import MgComm.Server.ClientHandler

/-!
# `~TcpServer` and the client thread

The destructor closes `clientfd_` and `sockfd_` to get the client thread out of
`recv()` and `accept()`, joins it, and closes both again.  The thread stores and
clears `clientfd_` and closes it when `recv()` fails.  Both sides are modelled
here step by step, down to the store that follows `accept()` and the close that
precedes `clientfd_ = 0`, with the descriptors which the server has obtained
and not yet closed.

Up to its next blocking call, the thread does what `clientHandler` does
(`clientHandler_refined`).
-/

namespace MgComm
namespace Server

open StreamMachine

/-! ## The steps -/

/-- Where the client thread is. -/
inductive ThreadPoint where
  /-- Before the test `while(!terminate_)`. -/
  | test
  | accepting
  /-- `accept()` has returned; `clientfd_ = accept_()` is next. -/
  | accepted (fd : Int)
  | receiving
  /-- `recv()` has returned no data; `close(clientfd_)` is next. -/
  | closing (scnt : Int)
  /-- The `clientfd_ = 0` of `receive_` is next. -/
  | closed (scnt : Int)
  /-- The `clientfd_ = 0` of `client_handler` is next. -/
  | disconnected
  | finished
  deriving DecidableEq

/-- What the destructor does next. -/
inductive DestructorPoint where
  /-- `terminate_ = true` -/
  | terminate
  /-- `close(clientfd_)`, to unblock `read()` -/
  | unblockRead
  /-- `close(sockfd_)`, to unblock `accept()` -/
  | unblockAccept
  /-- `client_thread->join()` -/
  | join
  /-- The second `close(clientfd_)`. -/
  | closeClientfd
  /-- The second `close(sockfd_)`. -/
  | closeSockfd
  | done
  deriving DecidableEq

/-- The two threads, and the fields they share. -/
structure Teardown where
  thread : ThreadPoint
  destructor : DestructorPoint
  sockfd : Int
  clientfd : Int
  terminate : Bool
  /-- The descriptors that the server has obtained and not yet closed. -/
  owned : List Int

/-- A call of `close()`, and whether the server owned the descriptor. -/
structure CloseCall where
  fd : Int
  owned : Bool
  deriving DecidableEq

/-- `close(fd)`. -/
def Teardown.close (s : Teardown) (fd : Int) : Teardown × List CloseCall :=
  ({ s with owned := s.owned.filter fun x => x ≠ fd },
    [⟨fd, decide (fd ∈ s.owned)⟩])

/-- A step of the client thread.  `accept()` does not return a descriptor that
is open. -/
def threadStep (s : Teardown) (a : Answer) : Teardown × List CloseCall :=
  match s.thread with
  | .test =>
      ({ s with thread := if s.terminate then .finished else .accepting }, [])
  | .accepting =>
      match a.accept with
      | none => ({ s with thread := .accepted (-1) }, [])
      | some fd =>
          if (fd : Int) ∈ s.owned then (s, [])
          else ({ s with thread := .accepted fd, owned := fd :: s.owned }, [])
  | .accepted fd =>
      ({ s with clientfd := fd, thread := if fd ≥ 0 then .receiving else .test },
        [])
  | .receiving =>
      if a.recv.scnt > 0 then (s, [])
      else ({ s with thread := .closing a.recv.scnt }, [])
  | .closing scnt => { s with thread := .closed scnt }.close s.clientfd
  | .closed scnt =>
      -- `while(receive_() >= 0)` goes on after an orderly disconnection.
      ({ s with
          clientfd := 0
          thread := if scnt ≥ 0 then .receiving else .disconnected }, [])
  | .disconnected => ({ s with clientfd := 0, thread := .test }, [])
  | .finished => (s, [])

/-- A step of `~TcpServer`. -/
def destructorStep (s : Teardown) : Teardown × List CloseCall :=
  match s.destructor with
  | .terminate => ({ s with terminate := true, destructor := .unblockRead }, [])
  | .unblockRead => { s with destructor := .unblockAccept }.close s.clientfd
  | .unblockAccept => { s with destructor := .join }.close s.sockfd
  | .join =>
      if s.thread = .finished then ({ s with destructor := .closeClientfd }, [])
      else (s, [])
  | .closeClientfd => { s with destructor := .closeSockfd }.close s.clientfd
  | .closeSockfd => { s with destructor := .done }.close s.sockfd
  | .done => (s, [])

/-- Whose step it is. -/
inductive TeardownEvent where
  | thread (a : Answer)
  | destructor

/-- One step of either side. -/
def teardownStep (s : Teardown) : TeardownEvent → Teardown × List CloseCall
  | .thread a => threadStep s a
  | .destructor => destructorStep s

/-- The state after a step. -/
def teardownNext (s : Teardown) (e : TeardownEvent) : Teardown :=
  (teardownStep s e).1

/-- The server after its construction: it owns the listening socket. -/
def constructed (sockfd : Int) : Teardown :=
  { thread := .test
    destructor := .terminate
    sockfd := sockfd
    clientfd := 0
    terminate := false
    owned := [sockfd] }

/-! ## What the steps do -/

/-- The descriptor of the client that the thread is dealing with. -/
def Teardown.client (s : Teardown) : Option Int :=
  match s.thread with
  | .accepted fd => if fd ≥ 0 then some fd else none
  | .receiving => some s.clientfd
  | .closing _ => some s.clientfd
  | _ => none

/-- The thread leaves the destructor and `sockfd_` alone. -/
theorem threadStep_frame (s : Teardown) (a : Answer) :
    (threadStep s a).1.destructor = s.destructor ∧
      (threadStep s a).1.sockfd = s.sockfd := by
  unfold threadStep
  cases s.thread with
  | accepting =>
      cases a.accept with
      | none => exact ⟨rfl, rfl⟩
      | some fd =>
          dsimp only
          split <;> exact ⟨rfl, rfl⟩
  | receiving =>
      dsimp only
      split <;> exact ⟨rfl, rfl⟩
  | _ => exact ⟨rfl, rfl⟩

/-- Only the point `closing` closes anything. -/
theorem threadStep_closes (s : Teardown) (a : Answer) :
    (threadStep s a).2 =
      match s.thread with
      | .closing _ => [⟨s.clientfd, decide (s.clientfd ∈ s.owned)⟩]
      | _ => [] := by
  unfold threadStep
  cases s.thread with
  | accepting =>
      cases a.accept with
      | none => rfl
      | some fd =>
          dsimp only
          split <;> rfl
  | receiving =>
      dsimp only
      split <;> rfl
  | _ => rfl

theorem threadStep_finished {s : Teardown} (h : s.thread = .finished)
    (a : Answer) : threadStep s a = (s, []) := by
  unfold threadStep
  rw [h]

/-- The thread obtains descriptors from `accept()` only, one for its client. -/
theorem threadStep_owned (s : Teardown) (a : Answer) :
    ∀ fd ∈ (threadStep s a).1.owned,
      fd ∈ s.owned ∨
        (∃ n : Nat, a.accept = some n ∧ fd = n) ∧
          (threadStep s a).1.client = some fd := by
  obtain ⟨thread, destructor, sockfd, clientfd, terminate, owned⟩ := s
  cases thread with
  | accepting =>
      obtain ⟨accepted, r⟩ := a
      cases accepted with
      | none => exact fun fd hMem => Or.inl hMem
      | some n =>
          intro fd hMem
          by_cases hOpen : (n : Int) ∈ owned
          · simp only [threadStep, if_pos hOpen] at hMem
            exact Or.inl hMem
          · simp only [threadStep, if_neg hOpen] at hMem ⊢
            cases List.mem_cons.mp hMem with
            | inl hNew =>
                refine Or.inr ⟨⟨n, rfl, hNew⟩, ?_⟩
                simp [Teardown.client, hNew]
            | inr hOld => exact Or.inl hOld
  | receiving =>
      intro fd hMem
      simp only [threadStep] at hMem
      split at hMem <;> exact Or.inl hMem
  | closing scnt => exact fun fd hMem => Or.inl (List.mem_filter.mp hMem).1
  | _ => exact fun fd hMem => Or.inl hMem

/-- A client's descriptor that stays open stays the thread's. -/
theorem threadStep_client {s : Teardown} {a : Answer} {fd : Int}
    (hClient : s.client = some fd) (hMem : fd ∈ (threadStep s a).1.owned) :
    (threadStep s a).1.client = some fd := by
  obtain ⟨thread, destructor, sockfd, clientfd, terminate, owned⟩ := s
  cases thread with
  | accepted fd' =>
      by_cases hAccepted : fd' ≥ 0
      · simpa [threadStep, Teardown.client, hAccepted] using hClient
      · simp [Teardown.client, hAccepted] at hClient
  | receiving =>
      simp only [threadStep]
      split <;> exact hClient
  | closing scnt =>
      -- The close takes it from what is owned.
      obtain rfl : clientfd = fd := Option.some.inj hClient
      exact absurd rfl (of_decide_eq_true (List.mem_filter.mp hMem).2)
  | _ => cases hClient

/-- The thread comes to `closed` by closing `clientfd_`. -/
theorem threadStep_gone (s : Teardown) (a : Answer) (scnt : Int)
    (hClosed : (threadStep s a).1.thread = .closed scnt) :
    (threadStep s a).1.clientfd ∉ (threadStep s a).1.owned := by
  obtain ⟨thread, destructor, sockfd, clientfd, terminate, owned⟩ := s
  cases thread with
  | closing scnt' =>
      intro hMem
      have hOther := (List.mem_filter.mp hMem).2
      exact absurd rfl (of_decide_eq_true hOther)
  | test =>
      simp only [threadStep] at hClosed
      split at hClosed <;> cases hClosed
  | accepting =>
      obtain ⟨accepted, r⟩ := a
      cases accepted with
      | none => cases hClosed
      | some fd =>
          simp only [threadStep] at hClosed
          split at hClosed <;> cases hClosed
  | accepted fd =>
      simp only [threadStep] at hClosed
      split at hClosed <;> cases hClosed
  | receiving =>
      simp only [threadStep] at hClosed
      split at hClosed <;> cases hClosed
  | closed scnt' =>
      simp only [threadStep] at hClosed
      split at hClosed <;> cases hClosed
  | disconnected => cases hClosed
  | finished => cases hClosed

/-- The destructor moves on and closes; it writes nothing else. -/
theorem destructorStep_frame (s : Teardown) :
    (destructorStep s).1.thread = s.thread ∧
      (destructorStep s).1.sockfd = s.sockfd ∧
      (destructorStep s).1.clientfd = s.clientfd ∧
      ∀ fd ∈ (destructorStep s).1.owned, fd ∈ s.owned := by
  have hFilter (fd' : Int) : ∀ fd ∈ s.owned.filter (fun x => x ≠ fd'), fd ∈ s.owned :=
    fun fd hMem => (List.mem_filter.mp hMem).1
  unfold destructorStep
  cases s.destructor with
  | unblockRead => exact ⟨rfl, rfl, rfl, hFilter s.clientfd⟩
  | unblockAccept => exact ⟨rfl, rfl, rfl, hFilter s.sockfd⟩
  | closeClientfd => exact ⟨rfl, rfl, rfl, hFilter s.clientfd⟩
  | closeSockfd => exact ⟨rfl, rfl, rfl, hFilter s.sockfd⟩
  | join =>
      dsimp only
      split <;> exact ⟨rfl, rfl, rfl, fun fd hMem => hMem⟩
  | _ => exact ⟨rfl, rfl, rfl, fun fd hMem => hMem⟩

/-! ## `client_handler`, step by step -/

/-- The point of the thread that a blocking call of `client_handler` is. -/
def ThreadPc.point : ThreadPc → ThreadPoint
  | .accepting => .accepting
  | .receiving => .receiving
  | .finished => .finished

/-- Both models of the thread are at the same blocking call. -/
structure SamePoint (s : Teardown) (t : ClientThread) : Prop where
  thread : s.thread = t.pc.point
  sockfd : s.sockfd = t.srv.sockfd
  clientfd : s.clientfd = t.srv.clientfd
  terminate : s.terminate = t.srv.terminate

/-- The descriptors closed among some events. -/
def closedFds (events : List Event) : List Int :=
  events.filterMap fun e =>
    match e with
    | .close fd => some fd
    | _ => none

theorem closedFds_callbacks (lines : List (List Byte)) :
    closedFds (lines.map Event.callback) = [] := by
  induction lines with
  | nil => rfl
  | cons line lines ih => exact ih

theorem closedFds_outerLoop (eolFlag : Bool) (srv : TcpServer) :
    closedFds (outerLoop eolFlag srv).2 = [] := by
  unfold outerLoop
  split <;> rfl

/-- After the loop test. -/
theorem samePoint_outerLoop (destructor : DestructorPoint) (owned : List Int)
    (eolFlag : Bool) (srv : TcpServer) :
    SamePoint
      { thread := if srv.terminate then .finished else .accepting
        destructor := destructor
        sockfd := srv.sockfd
        clientfd := srv.clientfd
        terminate := srv.terminate
        owned := owned }
      (outerLoop eolFlag srv).1 := by
  unfold outerLoop
  cases hTerminate : srv.terminate with
  | false => exact ⟨rfl, rfl, rfl, hTerminate.symm⟩
  | true => exact ⟨rfl, rfl, rfl, hTerminate.symm⟩

/-- What `client_handler` does for one answer, the steps of the thread do one
after another. -/
theorem clientHandler_refined {s : Teardown} {t : ClientThread}
    (h : SamePoint s t) (a : Answer) (hFree : ∀ fd ∈ a.accept, (fd : Int) ∉ s.owned) :
    ∃ n, SamePoint (run threadStep s (List.replicate n a)).1 (clientHandler t a).1 ∧
      (run threadStep s (List.replicate n a)).2.map CloseCall.fd =
        closedFds (clientHandler t a).2 := by
  obtain ⟨fd, r⟩ := a
  obtain ⟨thread, destructor, sockfd, clientfd, terminate, owned⟩ := s
  obtain ⟨pc, eolFlag, srv⟩ := t
  obtain ⟨rfl, rfl, rfl, rfl⟩ := h
  cases pc with
  | accepting =>
      cases fd with
      | none =>
          -- The call returns, -1 is stored, and the loop is tested again.
          rw [clientHandler_refused rfl]
          refine ⟨3, samePoint_outerLoop destructor owned eolFlag
            { srv with clientfd := -1 }, ?_⟩
          exact (closedFds_outerLoop eolFlag { srv with clientfd := -1 }).symm
      | some fd =>
          have hNew : (fd : Int) ∉ owned := hFree fd rfl
          rw [clientHandler_accepted rfl]
          refine ⟨2, ?_⟩
          simp [List.replicate, run_cons, threadStep, ThreadPc.point, closedFds, hNew]
          exact ⟨rfl, rfl, rfl, rfl⟩
  | receiving =>
      cases r with
      | data c =>
          have hPositive : 0 < c.bytes.length := List.length_pos_iff.mpr c.nonempty
          obtain ⟨hSockfd, hClientfd, hTerminate, -⟩ :=
            receiveChunk_frame (eolFlag, srv) c
          have hCloses : closedFds
              (Event.recvReturn c.bytes.length ::
                ((receiveChunk (eolFlag, srv) c).2.map Event.callback ++
                  [Event.recvCall srv.clientfd])) = [] := by
            show closedFds (_ ++ _) = []
            unfold closedFds
            rw [List.filterMap_append]
            exact congrArg (· ++ []) (closedFds_callbacks _)
          rw [clientHandler_data rfl, hCloses]
          refine ⟨1, ?_⟩
          simp [threadStep, ThreadPc.point, RecvResult.scnt, hPositive]
          exact ⟨rfl, hSockfd.symm, hClientfd.symm, hTerminate.symm⟩
      | disconnected =>
          -- `recv()` returns 0: close, clear, and receive again.
          rw [clientHandler_disconnected rfl]
          exact ⟨3, ⟨rfl, rfl, rfl, rfl⟩, rfl⟩
      | failed =>
          -- `recv()` fails: close, clear twice, and test the loop.
          rw [clientHandler_failed rfl]
          refine ⟨5, samePoint_outerLoop destructor
            (owned.filter fun x => x ≠ srv.clientfd) eolFlag
            { srv with clientfd := 0 }, ?_⟩
          exact congrArg (srv.clientfd :: ·)
            (closedFds_outerLoop eolFlag { srv with clientfd := 0 }).symm
  | finished =>
      rw [clientHandler_finished rfl]
      exact ⟨0, ⟨rfl, rfl, rfl, rfl⟩, rfl⟩

end Server
end MgComm
