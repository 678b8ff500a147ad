import MgComm.Server.Teardown

/-!
# What a shutdown closes

The destructor may be entered wherever the client thread has got to, and its
steps are interleaved with those of the thread in any way.  Three invariants
follow the descriptors which the server owns: there is never more than the
listening socket and the client's descriptor (`Covered`); these two are there
as long as the steps come in order (`Owning`); and if descriptor 0 is in use
elsewhere, `Exact` tells what is owned to the last descriptor.

A shutdown that is carried through always closes a descriptor which the server
does not own; as long as the steps come in order, it does not
(`shutdown_closes`).
-/

namespace MgComm
namespace Server

open StreamMachine Monitor

/-- The state in which the destructor is entered, after any steps of the
thread. -/
def atDestruction (sockfd : Int) (before : List Answer) : Teardown :=
  (run threadStep (constructed sockfd) before).1

/-- The calls of `close()` from there on, in any interleaving. -/
def shutdownCloses (sockfd : Int) (before : List Answer)
    (events : List TeardownEvent) : List CloseCall :=
  (run teardownStep (atDestruction sockfd before) (.destructor :: events)).2

/-- The point the destructor has reached by then. -/
def shutdownPoint (sockfd : Int) (before : List Answer)
    (events : List TeardownEvent) : DestructorPoint :=
  (run teardownStep (atDestruction sockfd before)
    (.destructor :: events)).1.destructor

/-! ## Who owns what -/

/-- `clientfd_` may hold the descriptor of a client. -/
def ThreadPoint.stored : ThreadPoint → Bool
  | .receiving => true
  | .closing _ => true
  | .closed _ => true
  | _ => false

/-- The destructor has not closed `clientfd_` yet. -/
def DestructorPoint.clientOpen : DestructorPoint → Bool
  | .terminate => true
  | .unblockRead => true
  | _ => false

/-- The destructor has not closed `sockfd_` yet. -/
def DestructorPoint.sockOpen : DestructorPoint → Bool
  | .terminate => true
  | .unblockRead => true
  | .unblockAccept => true
  | _ => false

/-- The destructor has joined the thread. -/
def DestructorPoint.joined : DestructorPoint → Bool
  | .closeClientfd => true
  | .closeSockfd => true
  | .done => true
  | _ => false

/-- The destructor has closed `clientfd_` for the second time. -/
def DestructorPoint.closedAgain : DestructorPoint → Bool
  | .closeSockfd => true
  | .done => true
  | _ => false

/-- Nothing is owned but the listening socket, until the destructor closes it,
and the client of the thread. -/
structure Covered (s : Teardown) : Prop where
  source : ∀ fd ∈ s.owned,
    (fd = s.sockfd ∧ s.destructor.sockOpen = true) ∨ s.client = some fd
  joined : s.destructor.joined = true → s.thread = .finished

theorem covered_threadStep {s : Teardown} (h : Covered s) (a : Answer) :
    Covered (threadStep s a).1 := by
  obtain ⟨hDestructor, hSockfd⟩ := threadStep_frame s a
  constructor
  · intro fd hMem
    rw [hDestructor, hSockfd]
    rcases threadStep_owned s a fd hMem with hOld | ⟨-, hNew⟩
    · exact (h.source fd hOld).imp_right fun hClient =>
        threadStep_client hClient hMem
    · exact Or.inr hNew
  · intro hJoined
    rw [hDestructor] at hJoined
    have hFinished := h.joined hJoined
    rw [threadStep_finished hFinished]
    exact hFinished

theorem covered_destructorStep {s : Teardown} (h : Covered s) :
    Covered (destructorStep s).1 := by
  obtain ⟨thread, destructor, sockfd, clientfd, terminate, owned⟩ := s
  obtain ⟨hSource, hJoined⟩ := h
  cases destructor with
  | terminate => exact ⟨hSource, hJoined⟩
  | unblockRead =>
      exact ⟨fun fd hMem => hSource fd (List.mem_filter.mp hMem).1, hJoined⟩
  | unblockAccept =>
      refine ⟨?_, hJoined⟩
      intro fd hMem
      obtain ⟨hOld, hOther⟩ := List.mem_filter.mp hMem
      refine Or.inr ((hSource fd hOld).resolve_left ?_)
      rintro ⟨rfl, -⟩
      simp at hOther
  | join =>
      by_cases hFinished : thread = .finished
      · simp only [destructorStep, if_pos hFinished]
        exact ⟨hSource, fun _ => hFinished⟩
      · simp only [destructorStep, if_neg hFinished]
        exact ⟨hSource, hJoined⟩
  | closeClientfd =>
      exact ⟨fun fd hMem => hSource fd (List.mem_filter.mp hMem).1, hJoined⟩
  | closeSockfd =>
      exact ⟨fun fd hMem => hSource fd (List.mem_filter.mp hMem).1, hJoined⟩
  | done => exact ⟨hSource, hJoined⟩

theorem covered_teardownStep {s : Teardown} (h : Covered s) (e : TeardownEvent) :
    Covered (teardownStep s e).1 := by
  cases e with
  | thread a => exact covered_threadStep h a
  | destructor => exact covered_destructorStep h

/-- After the join nothing is owned any more, so the second `close(clientfd_)`
is of a descriptor that is not the server's. -/
theorem closedAgain_unowned {s : Teardown} (h : Covered s) (e : TeardownEvent)
    (hBefore : ¬ s.destructor.closedAgain = true)
    (hAfter : (teardownStep s e).1.destructor.closedAgain = true) :
    ∃ c ∈ (teardownStep s e).2, c.owned = false := by
  cases e with
  | thread a =>
      rw [teardownStep, (threadStep_frame s a).1] at hAfter
      exact absurd hAfter hBefore
  | destructor =>
      obtain ⟨thread, destructor, sockfd, clientfd, terminate, owned⟩ := s
      cases destructor with
      | closeClientfd =>
          obtain rfl : thread = .finished := h.joined rfl
          have hNone : clientfd ∉ owned := by
            intro hMem
            rcases h.source clientfd hMem with ⟨-, hOpen⟩ | hClient
            · cases hOpen
            · cases hClient
          exact ⟨_, List.mem_singleton_self _, decide_eq_false hNone⟩
      | join =>
          simp only [teardownStep, destructorStep] at hAfter
          split at hAfter <;> cases hAfter
      | terminate => cases hAfter
      | unblockRead => cases hAfter
      | unblockAccept => cases hAfter
      | closeSockfd => exact absurd rfl hBefore
      | done => exact absurd rfl hBefore

/-! ## Shutdown in order -/

/-- A step is in order: the thread closes only a client's descriptor that the
destructor has not closed, the destructor closes `clientfd_` only while it holds
a client's descriptor that the thread has not closed, and nothing is closed a
second time. -/
def InOrder (s : Teardown) : TeardownEvent → Prop
  | .thread _ =>
      ∀ scnt, s.thread = .closing scnt →
        0 < s.clientfd ∧ s.destructor.clientOpen = true
  | .destructor =>
      match s.destructor with
      | .unblockRead => 0 < s.clientfd ∧ ∀ scnt, s.thread ≠ .closed scnt
      | .unblockAccept => 0 < s.sockfd
      | .closeClientfd => False
      | .closeSockfd => False
      | _ => True

/-- What is owned as long as the steps come in order. -/
structure Owning (s : Teardown) : Prop where
  idle : s.thread.stored = false → s.clientfd ≤ 0
  listening : 0 < s.sockfd → s.destructor.sockOpen = true → s.sockfd ∈ s.owned
  client : s.destructor.clientOpen = true → ∀ fd, s.client = some fd → 0 < fd →
    fd ∈ s.owned ∧ fd ≠ s.sockfd

theorem DestructorPoint.sockOpen_of_clientOpen {p : DestructorPoint}
    (h : p.clientOpen = true) : p.sockOpen = true := by
  cases p <;> first | rfl | cases h

/-- While the destructor has not closed `clientfd_`, every step of the thread
keeps to it; later the thread must not come to close. -/
theorem owning_threadStep {s : Teardown} (h : Owning s) (a : Answer)
    (hCloses : s.destructor.clientOpen = true ∨ ∀ scnt, s.thread ≠ .closing scnt) :
    Owning (threadStep s a).1 := by
  obtain ⟨thread, destructor, sockfd, clientfd, terminate, owned⟩ := s
  obtain ⟨hIdle, hListening, hClient⟩ := h
  cases thread with
  | test =>
      cases terminate with
      | false => exact ⟨hIdle, hListening, hClient⟩
      | true => exact ⟨hIdle, hListening, hClient⟩
  | accepting =>
      obtain ⟨accepted, r⟩ := a
      cases accepted with
      | none => exact ⟨hIdle, hListening, hClient⟩
      | some fd =>
          by_cases hOpen : (fd : Int) ∈ owned
          · simp only [threadStep, if_pos hOpen]
            exact ⟨hIdle, hListening, hClient⟩
          · simp only [threadStep, if_neg hOpen]
            refine ⟨hIdle, ?_, ?_⟩
            · exact fun hPos hSock => List.mem_cons_of_mem _ (hListening hPos hSock)
            · intro hClientOpen fd' hSome hPos
              obtain rfl : (fd : Int) = fd' := by simpa [Teardown.client] using hSome
              refine ⟨List.mem_cons_self, ?_⟩
              -- The listening socket is open, so its number is not free.
              rintro rfl
              exact hOpen (hListening hPos
                (DestructorPoint.sockOpen_of_clientOpen hClientOpen))
  | accepted fd =>
      by_cases hAccepted : fd ≥ 0
      · simp only [threadStep, if_pos hAccepted]
        refine ⟨fun hStored => (by cases hStored), hListening, ?_⟩
        simpa [Teardown.client, hAccepted] using hClient
      · simp only [threadStep, if_neg hAccepted]
        refine ⟨fun _ => Int.le_of_lt (Int.not_le.mp hAccepted), hListening, ?_⟩
        exact fun _ _ hSome => by cases hSome
  | receiving =>
      by_cases hData : a.recv.scnt > 0
      · simp only [threadStep, if_pos hData]
        exact ⟨hIdle, hListening, hClient⟩
      · simp only [threadStep, if_neg hData]
        exact ⟨fun hStored => (by cases hStored), hListening, hClient⟩
  | closing scnt =>
      have hClientOpen : destructor.clientOpen = true :=
        hCloses.resolve_right fun hNot => hNot scnt rfl
      refine ⟨fun hStored => (by cases hStored), ?_, fun _ _ hSome => by cases hSome⟩
      intro hPos hSock
      refine List.mem_filter.mpr ⟨hListening hPos hSock, ?_⟩
      have hOther : sockfd ≠ clientfd := by
        rintro rfl
        exact (hClient hClientOpen sockfd rfl hPos).2 rfl
      exact decide_eq_true hOther
  | closed scnt =>
      by_cases hAgain : scnt ≥ 0
      · simp only [threadStep, if_pos hAgain]
        refine ⟨fun _ => Int.le_refl 0, hListening, ?_⟩
        intro _ fd hSome hPos
        obtain rfl : (0 : Int) = fd := Option.some.inj hSome
        exact absurd hPos (Int.lt_irrefl 0)
      · simp only [threadStep, if_neg hAgain]
        exact ⟨fun _ => Int.le_refl 0, hListening, fun _ _ hSome => by cases hSome⟩
  | disconnected =>
      exact ⟨fun _ => Int.le_refl 0, hListening, fun _ _ hSome => by cases hSome⟩
  | finished => exact ⟨hIdle, hListening, hClient⟩

/-- A step of the thread in order closes nothing that the destructor has
closed. -/
theorem closes_of_inOrder {s : Teardown} {a : Answer}
    (hOrder : InOrder s (.thread a)) :
    s.destructor.clientOpen = true ∨ ∀ scnt, s.thread ≠ .closing scnt := by
  by_cases hClosing : ∃ scnt, s.thread = .closing scnt
  · obtain ⟨scnt, hThread⟩ := hClosing
    exact Or.inl (hOrder scnt hThread).2
  · exact Or.inr fun scnt hThread => hClosing ⟨scnt, hThread⟩

/-- A step in order closes what the server owns. -/
theorem owning_teardownStep {s : Teardown} (h : Owning s) (e : TeardownEvent)
    (hOrder : InOrder s e) :
    (∀ c ∈ (teardownStep s e).2, c.owned = true) ∧ Owning (teardownStep s e).1 := by
  cases e with
  | thread a =>
      refine ⟨?_, owning_threadStep h a (closes_of_inOrder hOrder)⟩
      rw [teardownStep, threadStep_closes]
      cases hThread : s.thread with
      | closing scnt =>
          obtain ⟨hPos, hOpen⟩ := hOrder scnt hThread
          have hOwned := (h.client hOpen s.clientfd (by simp [Teardown.client, hThread])
            hPos).1
          intro c hMem
          rw [List.mem_singleton.mp hMem]
          exact decide_eq_true hOwned
      | _ => exact List.forall_mem_nil _
  | destructor =>
      obtain ⟨thread, destructor, sockfd, clientfd, terminate, owned⟩ := s
      obtain ⟨hIdle, hListening, hClient⟩ := h
      cases destructor with
      | terminate => exact ⟨List.forall_mem_nil _, hIdle, hListening, hClient⟩
      | unblockRead =>
          obtain ⟨hPos, hNotClosed⟩ := hOrder
          -- A positive `clientfd_` that is not closed is the client's.
          have hCurrent : Teardown.client
              ⟨thread, .unblockRead, sockfd, clientfd, terminate, owned⟩ =
                some clientfd := by
            cases thread with
            | receiving => rfl
            | closing scnt => rfl
            | closed scnt => exact absurd rfl (hNotClosed scnt)
            | _ => exact absurd hPos (Int.not_lt.mpr (hIdle rfl))
          obtain ⟨hOwned, hOther⟩ := hClient rfl clientfd hCurrent hPos
          refine ⟨?_, hIdle, ?_, fun hOpen => by cases hOpen⟩
          · intro c hMem
            rw [List.mem_singleton.mp hMem]
            exact decide_eq_true hOwned
          · intro hSock _
            refine List.mem_filter.mpr ⟨hListening hSock rfl, ?_⟩
            exact decide_eq_true (Ne.symm hOther)
      | unblockAccept =>
          have hOwned : sockfd ∈ owned := hListening hOrder rfl
          refine ⟨?_, hIdle, fun _ hOpen => (by cases hOpen), fun hOpen => by cases hOpen⟩
          intro c hMem
          rw [List.mem_singleton.mp hMem]
          exact decide_eq_true hOwned
      | join =>
          by_cases hFinished : thread = .finished
          · simp only [teardownStep, destructorStep, if_pos hFinished]
            exact ⟨List.forall_mem_nil _, hIdle, fun _ hOpen => (by cases hOpen),
              fun hOpen => by cases hOpen⟩
          · simp only [teardownStep, destructorStep, if_neg hFinished]
            exact ⟨List.forall_mem_nil _, hIdle, hListening, hClient⟩
      | closeClientfd => exact hOrder.elim
      | closeSockfd => exact hOrder.elim
      | done => exact ⟨List.forall_mem_nil _, hIdle, hListening, hClient⟩

/-- What is owned exactly, when descriptor 0 belongs to neither a client nor the
listening socket. -/
structure Exact (s : Teardown) : Prop where
  owning : Owning s
  covered : Covered s
  sockfd : 0 < s.sockfd
  positive : ∀ fd ∈ s.owned, 0 < fd
  gone : ∀ scnt, s.thread = .closed scnt → s.clientfd ∉ s.owned
  /-- Once the destructor has closed `clientfd_`, the thread is left with a
  closed descriptor. -/
  left : s.destructor.clientOpen = false →
    (s.thread = .receiving ∨ ∃ scnt, s.thread = .closing scnt) ∧
      s.clientfd ∉ s.owned

/-- A step of the thread that does not close what the destructor has closed,
with descriptor 0 in use elsewhere. -/
theorem exact_threadStep {s : Teardown} (h : Exact s) (a : Answer)
    (hZero : a.accept ≠ some 0)
    (hCloses : s.destructor.clientOpen = true ∨ ∀ scnt, s.thread ≠ .closing scnt) :
    Exact (threadStep s a).1 := by
  obtain ⟨hDestructor, hSockfd⟩ := threadStep_frame s a
  constructor
  · exact owning_threadStep h.owning a hCloses
  · exact covered_threadStep h.covered a
  · rw [hSockfd]
    exact h.sockfd
  · intro fd hMem
    rcases threadStep_owned s a fd hMem with hOld | ⟨⟨n, hAccept, rfl⟩, -⟩
    · exact h.positive fd hOld
    · have hNe : n ≠ 0 := by
        rintro rfl
        exact hZero hAccept
      omega
  · exact threadStep_gone s a
  · intro hLeft
    rw [hDestructor] at hLeft
    obtain ⟨hThread, hNone⟩ := h.left hLeft
    -- The thread is in `recv()` and gets no further than to its close.
    have hReceiving : s.thread = .receiving := by
      refine hThread.resolve_right ?_
      rintro ⟨scnt, hClosing⟩
      rcases hCloses with hOpen | hNot
      · rw [hLeft] at hOpen
        cases hOpen
      · exact hNot scnt hClosing
    by_cases hData : a.recv.scnt > 0
    · simp only [threadStep, hReceiving, if_pos hData]
      exact ⟨Or.inl trivial, hNone⟩
    · simp only [threadStep, hReceiving, if_neg hData]
      exact ⟨Or.inr ⟨_, rfl⟩, hNone⟩

/-- If the destructor closes what the server owns, its step is in order. -/
theorem inOrder_destructor {s : Teardown} (h : Exact s)
    (hOwned : ∀ c ∈ (teardownStep s .destructor).2, c.owned = true) :
    InOrder s .destructor := by
  obtain ⟨thread, destructor, sockfd, clientfd, terminate, owned⟩ := s
  -- After the join the thread cannot be at its close, where it is left.
  have hJoined (hTrue : destructor.joined = true)
      (hFalse : destructor.clientOpen = false) : False := by
    obtain rfl : thread = .finished := h.covered.joined hTrue
    rcases (h.left hFalse).1 with hThread | ⟨scnt, hThread⟩ <;> cases hThread
  cases destructor with
  | unblockRead =>
      have hMem : clientfd ∈ owned :=
        of_decide_eq_true (hOwned _ (List.mem_singleton_self _))
      exact ⟨h.positive clientfd hMem, fun scnt hThread => h.gone scnt hThread hMem⟩
  | unblockAccept => exact h.sockfd
  | closeClientfd => exact hJoined rfl rfl
  | closeSockfd => exact hJoined rfl rfl
  | terminate => trivial
  | join => trivial
  | done => trivial

theorem exact_destructorStep {s : Teardown} (h : Exact s)
    (hOrder : InOrder s .destructor) : Exact (destructorStep s).1 := by
  obtain ⟨hThread, hSockfd, hClientfd, hSub⟩ := destructorStep_frame s
  constructor
  · exact (owning_teardownStep h.owning .destructor hOrder).2
  · exact covered_destructorStep h.covered
  · rw [hSockfd]
    exact h.sockfd
  · exact fun fd hMem => h.positive fd (hSub fd hMem)
  · intro scnt hClosed hMem
    rw [hThread] at hClosed
    rw [hClientfd] at hMem
    exact h.gone scnt hClosed (hSub _ hMem)
  · intro hLeft
    rw [hThread, hClientfd]
    by_cases hBefore : s.destructor.clientOpen = false
    · obtain ⟨hPoint, hNone⟩ := h.left hBefore
      exact ⟨hPoint, fun hMem => hNone (hSub _ hMem)⟩
    · obtain ⟨thread, destructor, sockfd, clientfd, terminate, owned⟩ := s
      cases destructor with
      | terminate => cases hLeft
      | unblockRead =>
          obtain ⟨hPos, hNotClosed⟩ := hOrder
          refine ⟨?_, fun hMem => ?_⟩
          · cases thread with
            | receiving => exact Or.inl rfl
            | closing scnt => exact Or.inr ⟨scnt, rfl⟩
            | closed scnt => exact absurd rfl (hNotClosed scnt)
            | _ => exact absurd hPos (Int.not_lt.mpr (h.owning.idle rfl))
          · exact absurd rfl (of_decide_eq_true (List.mem_filter.mp hMem).2)
      | _ => exact absurd rfl hBefore

/-- Then a step that closes nothing but what the server owns is in order. -/
theorem exact_teardownStep {s : Teardown} (h : Exact s) (e : TeardownEvent)
    (hZero : ∀ a, e = .thread a → a.accept ≠ some 0)
    (hOwned : ∀ c ∈ (teardownStep s e).2, c.owned = true) :
    InOrder s e ∧ Exact (teardownStep s e).1 := by
  cases e with
  | thread a =>
      have hOrder : InOrder s (.thread a) := by
        intro scnt hClosing
        rw [teardownStep, threadStep_closes, hClosing] at hOwned
        have hMem : s.clientfd ∈ s.owned :=
          of_decide_eq_true (hOwned _ (List.mem_singleton_self _))
        refine ⟨h.positive _ hMem, ?_⟩
        by_contra hNot
        exact (h.left (by simpa using hNot)).2 hMem
      exact ⟨hOrder, exact_threadStep h a (hZero a rfl) (closes_of_inOrder hOrder)⟩
  | destructor =>
      have hOrder := inOrder_destructor h hOwned
      exact ⟨hOrder, exact_destructorStep h hOrder⟩

/-! ## The whole shutdown -/

theorem owning_constructed (sockfd : Int) : Owning (constructed sockfd) :=
  ⟨fun _ => Int.le_refl 0, fun _ _ => List.mem_singleton_self sockfd,
    fun _ _ hSome => by cases hSome⟩

theorem covered_constructed (sockfd : Int) : Covered (constructed sockfd) :=
  ⟨fun _ hMem => Or.inl ⟨List.mem_singleton.mp hMem, rfl⟩, fun hJoined => by
    cases hJoined⟩

theorem exact_constructed {sockfd : Int} (hSockfd : 0 < sockfd) :
    Exact (constructed sockfd) where
  owning := owning_constructed sockfd
  covered := covered_constructed sockfd
  sockfd := hSockfd
  positive := fun fd hMem => by rwa [List.mem_singleton.mp hMem]
  gone := fun scnt hClosed => by cases hClosed
  left := fun hLeft => by cases hLeft

/-- Wherever the thread has got to, the server owns what it should when the
destructor is entered. -/
theorem owning_atDestruction (sockfd : Int) (before : List Answer) :
    Owning (atDestruction sockfd before) := by
  have hRun := run_invariant threadStep
    (fun s => Owning s ∧ s.destructor = .terminate)
    (fun s a ⟨hOwning, hPoint⟩ =>
      ⟨owning_threadStep hOwning a (Or.inl (by rw [hPoint]; rfl)),
        (threadStep_frame s a).1.trans hPoint⟩)
    ⟨owning_constructed sockfd, rfl⟩ before
  exact hRun.1

theorem covered_atDestruction (sockfd : Int) (before : List Answer) :
    Covered (atDestruction sockfd before) ∧
      (atDestruction sockfd before).destructor = .terminate :=
  run_invariant threadStep (fun s => Covered s ∧ s.destructor = .terminate)
    (fun s a ⟨hCovered, hPoint⟩ =>
      ⟨covered_threadStep hCovered a, (threadStep_frame s a).1.trans hPoint⟩)
    ⟨covered_constructed sockfd, rfl⟩ before

theorem exact_atDestruction {sockfd : Int} (hSockfd : 0 < sockfd)
    (before : List Answer) (hZero : ∀ a ∈ before, a.accept ≠ some 0) :
    Exact (atDestruction sockfd before) := by
  have hRun := run_invariant_of_mem threadStep
    (fun s => Exact s ∧ s.destructor = .terminate)
    (fun a => a.accept ≠ some 0)
    (fun s a hZero ⟨hExact, hPoint⟩ =>
      ⟨exact_threadStep hExact a hZero (Or.inl (by rw [hPoint]; rfl)),
        (threadStep_frame s a).1.trans hPoint⟩)
    ⟨exact_constructed hSockfd, rfl⟩ before hZero
  exact hRun.1

/-- Every step of the shutdown is in order. -/
def ShutdownInOrder (sockfd : Int) (before : List Answer)
    (events : List TeardownEvent) : Prop :=
  Accepts teardownNext InOrder (atDestruction sockfd before)
    (.destructor :: events)

/-- What `accept()` returns in an event. -/
def TeardownEvent.accept : TeardownEvent → Option Nat
  | .thread a => a.accept
  | .destructor => none

/-- For every point the thread may have reached and every interleaving:

* as long as the steps are in order, every descriptor closed is the server's;
* if descriptor 0 is in use elsewhere, so that it is neither the listening socket
  nor a client, this is the only way;
* once the destructor has done its second `close(clientfd_)`, a descriptor has
  been closed that was not the server's. -/
theorem shutdown_closes (sockfd : Int) (before : List Answer)
    (events : List TeardownEvent) :
    (ShutdownInOrder sockfd before events →
        ∀ c ∈ shutdownCloses sockfd before events, c.owned = true) ∧
      (0 < sockfd → (∀ a ∈ before, a.accept ≠ some 0) →
        (∀ e ∈ events, e.accept ≠ some 0) →
        (∀ c ∈ shutdownCloses sockfd before events, c.owned = true) →
        ShutdownInOrder sockfd before events) ∧
      ((shutdownPoint sockfd before events).closedAgain = true →
        ∃ c ∈ shutdownCloses sockfd before events, c.owned = false) := by
  refine ⟨fun hOrder => ?_, fun hSockfd hBefore hEvents hOwned => ?_, fun hPoint => ?_⟩
  · apply (forall_mem_run_iff teardownStep (fun c => c.owned = true) _ _).mpr
    exact accepts_mono teardownNext InOrder
      (fun s e hOwning hInOrder => owning_teardownStep hOwning e hInOrder)
      (owning_atDestruction sockfd before) hOrder
  · have hCloses : Accepts teardownNext
        (fun s e => ∀ c ∈ (teardownStep s e).2, c.owned = true)
        (atDestruction sockfd before) (.destructor :: events) :=
      (forall_mem_run_iff teardownStep (fun c => c.owned = true) _ _).mp hOwned
    have hZero : Accepts teardownNext (fun _ e => e.accept ≠ some 0)
        (atDestruction sockfd before) (.destructor :: events) := by
      apply (accepts_iff_forall _ _ _ _).mpr
      intro past e future hSplit
      have hMem : e ∈ TeardownEvent.destructor :: events := by
        rw [hSplit]
        exact List.mem_append_right _ List.mem_cons_self
      cases List.mem_cons.mp hMem with
      | inl hFirst =>
          rw [hFirst]
          simp [TeardownEvent.accept]
      | inr hLater => exact hEvents e hLater
    exact accepts_mono (P := Exact) teardownNext _
      (fun s e hExact hBoth => exact_teardownStep hExact e
        (fun a hThread => by simpa [hThread, TeardownEvent.accept] using hBoth.2) hBoth.1)
      (exact_atDestruction hSockfd before hBefore)
      (accepts_and teardownNext _ hCloses hZero)
  · obtain ⟨hCovered, hStart⟩ := covered_atDestruction sockfd before
    exact run_crossing teardownStep Covered
      (fun s => s.destructor.closedAgain = true) (fun c => c.owned = false)
      (fun s e hCovered => ⟨covered_teardownStep hCovered e,
        closedAgain_unowned hCovered e⟩)
      hCovered (by rw [hStart]; simp [DestructorPoint.closedAgain]) _ hPoint

/-- A server with a client on descriptor 5, which it is receiving from: both
closes before the join are of descriptors it owns. -/
theorem shutdown_closes_receiving :
    let before : List Answer := List.replicate 3 ⟨some 5, .failed⟩
    ShutdownInOrder 3 before [.destructor, .destructor] ∧
      (∀ c ∈ shutdownCloses 3 before [.destructor, .destructor], c.owned = true) ∧
      shutdownCloses 3 before [.destructor, .destructor] =
        [⟨5, true⟩, ⟨3, true⟩] := by
  intro before
  have hOrder : ShutdownInOrder 3 before [.destructor, .destructor] :=
    ⟨trivial, ⟨by decide, fun scnt hClosed => by cases hClosed⟩, by
      show (0 : Int) < 3
      decide, trivial⟩
  exact ⟨hOrder, (shutdown_closes 3 before [.destructor, .destructor]).1 hOrder, rfl⟩

/-- A server that never had a client, waiting in `accept()`, which fails when
the listening socket is closed: 0 and -1 are closed, and the socket twice. -/
theorem shutdown_closes_zero :
    let events : List TeardownEvent :=
      [.destructor, .destructor] ++ List.replicate 3 (.thread ⟨none, .failed⟩) ++
        List.replicate 3 .destructor
    shutdownCloses 3 [⟨none, .failed⟩] events =
        [⟨0, false⟩, ⟨3, true⟩, ⟨-1, false⟩, ⟨3, false⟩] ∧
      ¬ ∀ c ∈ shutdownCloses 3 [⟨none, .failed⟩] events, c.owned = true := by
  intro events
  have hCloses : shutdownCloses 3 [⟨none, .failed⟩] events =
      [⟨0, false⟩, ⟨3, true⟩, ⟨-1, false⟩, ⟨3, false⟩] := by decide
  refine ⟨hCloses, ?_⟩
  rw [hCloses]
  decide

end Server
end MgComm
