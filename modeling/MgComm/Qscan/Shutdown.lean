import MgComm.Dci.Hardware
import MgComm.Server.Sessions

/-!
# The end of `qscan`'s `main`

When `main` leaves its wait loop, its locals are destroyed in reverse order of
declaration.  The client thread of the server runs until `~TcpServer` has
joined it, and the read thread of the DCI library until `~DCI` has
deinitialised the library; both objects are declared first and destroyed last.
The server's callback and the log handler refer to objects that are gone by
then.

The steps of the three threads are interleaved here in any order.  No callback
reaches a destroyed object in the runs in which nothing comes too late
(`calls_alive`), and wherever something comes too late, the next step may be
such a callback.
-/

namespace MgComm
namespace Qscan

open StreamMachine DoubledSeparator Monitor Server Dci

/-! ## The threads -/

/-- The locals of `main`.  The server and the DCI object hold copies of `cb_cmd`
and `cb_log`, so nothing depends on these two once they are registered. -/
inductive Local where
  | dci
  | commSrv
  | processor
  | cbCmd
  | parser
  | cbLog
  deriving DecidableEq

/-- The locals of `main`, in order of declaration. -/
def declared : List Local := [.dci, .commSrv, .processor, .cbCmd, .parser, .cbLog]

/-- What `main` does after its wait loop. -/
inductive MainStep where
  /-- `terminate_ = true` -/
  | terminate
  /-- `close(clientfd_)` -/
  | closeClientfd
  /-- `close(sockfd_)` -/
  | closeSockfd
  /-- `client_thread->join()` -/
  | join
  /-- `diag_release_dci_client(&_client_id)` -/
  | releaseDciClient
  /-- `Diag_LSM_DeInit()`, which joins the read thread -/
  | lsmDeInit
  /-- An object's lifetime ends. -/
  | endOf (x : Local)
  deriving DecidableEq

/-- The body of an object's destructor; `clientId` is `_client_id`. -/
def destructor (clientId : Int) : Local → List MainStep
  | .commSrv =>
      [.terminate, .closeClientfd, .closeSockfd, .join, .closeClientfd,
        .closeSockfd]
  | .dci => if clientId ≠ -1 then [.releaseDciClient, .lsmDeInit] else []
  | _ => []

/-- The destruction of the locals, in reverse order of declaration. -/
def destruction (clientId : Int) : List MainStep :=
  declared.reverse.flatMap fun x => destructor clientId x ++ [.endOf x]

/-- The state of the process.  The handlers in `_log_handlers` are given by the
objects they are bound to. -/
structure Shutdown where
  /-- What `main` still has to do. -/
  todo : List MainStep
  destroyed : List Local
  client : ClientThread
  /-- The strings `process_buf` has still to give to `callback_`. -/
  callbacks : List (List Byte)
  dci : DCIBase Local
  /-- The handler calls `_handle_log` has still to make. -/
  logCalls : List (Invocation Local)
  deInit : Bool

/-- A call through `callback_` or through a log handler, and whether the object
it is bound to is destroyed. -/
inductive Call where
  | processCommand (cmd : List Byte) (destroyed : Bool)
  | processLog (ptr : Nat) (len : Int) (destroyed : Bool)

def Call.destroyed : Call → Bool
  | .processCommand _ destroyed => destroyed
  | .processLog _ _ destroyed => destroyed

/-- A step of one of the threads. -/
inductive ShutdownEvent where
  /-- The next step of `main`. -/
  | main
  /-- The client thread gets an answer from its environment. -/
  | client (a : Answer)
  /-- The client thread calls `callback_`. -/
  | callback
  /-- The read thread hands a packet to `DCI::_handle_log`. -/
  | packet (p : Packet)
  /-- The read thread calls the next log handler. -/
  | logCall

/-- `main` does its next step, unless it has to wait for a thread. -/
def mainNext (s : Shutdown) : Shutdown :=
  match s.todo with
  | [] => s
  | .terminate :: todo =>
      { s with
        todo := todo
        client := { s.client with srv := { s.client.srv with terminate := true } } }
  | .join :: todo =>
      if s.client.pc = .finished ∧ s.callbacks = [] then { s with todo := todo }
      else s
  | .lsmDeInit :: todo =>
      if s.logCalls = [] then { s with todo := todo, deInit := true } else s
  | .endOf x :: todo => { s with todo := todo, destroyed := x :: s.destroyed }
  | _ :: todo => { s with todo := todo }

/-- One step; a thread that cannot do it does nothing.  `callback_` is bound to
the processor. -/
def shutdownStep (s : Shutdown) : ShutdownEvent → Shutdown × List Call
  | .main => (mainNext s, [])
  | .client a =>
      if s.callbacks = [] then
        let (client, events) := clientHandler s.client a
        ({ s with client := client, callbacks := callbackLines events }, [])
      else (s, [])
  | .callback =>
      match s.callbacks with
      | [] => (s, [])
      | line :: callbacks =>
          ({ s with callbacks := callbacks },
            [.processCommand line (decide (.processor ∈ s.destroyed))])
  | .packet p =>
      if s.deInit = false ∧ s.logCalls = [] then
        ({ s with logCalls := DCI.handleLog s.dci p }, [])
      else (s, [])
  | .logCall =>
      match s.logCalls with
      | [] => (s, [])
      | call :: logCalls =>
          ({ s with logCalls := logCalls },
            [.processLog call.ptr call.len (decide (call.handler ∈ s.destroyed))])

/-- The state in which `main` leaves its wait loop: both threads may be
anywhere, also in the middle of their callbacks. -/
def afterWaitLoop (clientId : Int) (client : ClientThread)
    (callbacks : List (List Byte)) (logCodes : Finset UInt16)
    (packet : Option Packet) : Shutdown :=
  let dci : DCIBase Local :=
    { logCodes := logCodes, logHandlers := [.parser], undefined := false }
  { todo := destruction clientId
    destroyed := []
    client :=
      { client with
        srv := { client.srv with terminate := false, callbackSet := true } }
    callbacks := callbacks
    dci := dci
    logCalls := packet.toList.flatMap (DCI.handleLog dci)
    deInit := false }

/-- No callback of a run reaches a destroyed object. -/
def CallsAlive (s : Shutdown) (events : List ShutdownEvent) : Prop :=
  ∀ call ∈ (run shutdownStep s events).2, call.destroyed = false

instance (s : Shutdown) (events : List ShutdownEvent) :
    Decidable (CallsAlive s events) :=
  inferInstanceAs (Decidable
    (∀ call ∈ (run shutdownStep s events).2, call.destroyed = false))

/-! ## What comes too late -/

/-- The client thread receives a chunk that completes a message. -/
def CompletesMessage (t : ClientThread) (a : Answer) : Prop :=
  t.pc = .receiving ∧
    match a.recv with
    | .data c => terminators newline t.eolFlag 0 c.bytes ≠ []
    | _ => False

/-- A step brings nothing too late: no callback is left over when the processor
is destroyed and no message is completed afterwards, and no handler call is left
over when the parser is destroyed and no packet comes afterwards. -/
def InTime (s : Shutdown) : ShutdownEvent → Prop
  | .main =>
      (s.todo.head? = some (.endOf .processor) → s.callbacks = []) ∧
        (s.todo.head? = some (.endOf .parser) → s.logCalls = [])
  | .client a => .processor ∈ s.destroyed → ¬ CompletesMessage s.client a
  | .packet _ => .parser ∈ s.destroyed → s.deInit = true
  | .callback => True
  | .logCall => True

instance (t : ClientThread) : (a : Answer) → Decidable (CompletesMessage t a)
  | ⟨_, .data c⟩ => inferInstanceAs (Decidable
      (t.pc = .receiving ∧ terminators newline t.eolFlag 0 c.bytes ≠ []))
  | ⟨_, .failed⟩ => inferInstanceAs (Decidable (t.pc = .receiving ∧ False))
  | ⟨_, .disconnected⟩ => inferInstanceAs (Decidable (t.pc = .receiving ∧ False))

instance (s : Shutdown) : (e : ShutdownEvent) → Decidable (InTime s e)
  | .main => inferInstanceAs (Decidable
      ((s.todo.head? = some (.endOf .processor) → s.callbacks = []) ∧
        (s.todo.head? = some (.endOf .parser) → s.logCalls = [])))
  | .client a => inferInstanceAs (Decidable
      (.processor ∈ s.destroyed → ¬ CompletesMessage s.client a))
  | .packet _ => inferInstanceAs (Decidable
      (.parser ∈ s.destroyed → s.deInit = true))
  | .callback => inferInstanceAs (Decidable True)
  | .logCall => inferInstanceAs (Decidable True)

/-- The state after a step. -/
def shutdownNext (s : Shutdown) (e : ShutdownEvent) : Shutdown :=
  (shutdownStep s e).1

/-- Nothing has come too late so far: no call is pending for a destroyed
object. -/
structure Calm (s : Shutdown) : Prop where
  callbackSet : s.client.srv.callbackSet = true
  handlers : s.dci.logHandlers = [.parser]
  bound : ∀ call ∈ s.logCalls, call.handler = .parser
  processor : .processor ∈ s.destroyed → s.callbacks = []
  parser : .parser ∈ s.destroyed → s.logCalls = []

/-! ## One step -/

theorem outerLoop_callbackSet (eolFlag : Bool) (srv : TcpServer) :
    (outerLoop eolFlag srv).1.srv.callbackSet = srv.callbackSet ∧
      callbackLines (outerLoop eolFlag srv).2 = [] := by
  unfold outerLoop
  split <;> exact ⟨rfl, rfl⟩

/-- The client thread has a callback to make exactly after a chunk that
completes a message. -/
theorem clientHandler_callbacks {t : ClientThread}
    (hCallback : t.srv.callbackSet = true) (a : Answer) :
    (clientHandler t a).1.srv.callbackSet = true ∧
      (callbackLines (clientHandler t a).2 ≠ [] ↔ CompletesMessage t a) := by
  obtain ⟨fd, r⟩ := a
  unfold CompletesMessage
  cases hpc : t.pc with
  | accepting =>
      cases fd with
      | none =>
          obtain ⟨hSet, hLines⟩ :=
            outerLoop_callbackSet t.eolFlag { t.srv with clientfd := -1 }
          rw [clientHandler_refused hpc]
          refine ⟨hSet.trans hCallback, ?_⟩
          simpa [callbackLines] using hLines
      | some fd =>
          rw [clientHandler_accepted hpc]
          exact ⟨hCallback, by simp [callbackLines]⟩
  | receiving =>
      cases r with
      | failed =>
          obtain ⟨hSet, hLines⟩ :=
            outerLoop_callbackSet t.eolFlag { t.srv with clientfd := 0 }
          rw [clientHandler_failed hpc]
          refine ⟨hSet.trans hCallback, ?_⟩
          simpa [callbackLines] using hLines
      | disconnected =>
          rw [clientHandler_disconnected hpc]
          exact ⟨hCallback, by simp [callbackLines]⟩
      | data c =>
          have hState : (t.eolFlag, t.srv).2.callbackSet = true := hCallback
          have hSet := (receiveChunk_frame (t.eolFlag, t.srv) c).2.2.2
          have hLength := length_run_cutStep_snd newline (fun p => p == 0)
            (pending (t.eolFlag, t.srv)) 0 c.bytes
          have hLines := (receiveChunk_callback hState c).2
          rw [callbackLines_data hpc, clientHandler_data hpc]
          refine ⟨hSet.trans hCallback, ?_⟩
          have hIff : (feedChunk newline (pending (t.eolFlag, t.srv)) c.bytes).2 ≠ [] ↔
              terminators newline t.eolFlag 0 c.bytes ≠ [] := by
            rw [← List.length_pos_iff, ← List.length_pos_iff]
            exact iff_of_eq (congrArg (0 < ·) hLength)
          rw [hLines, hIff]
          exact (and_iff_right rfl).symm
  | finished =>
      rw [clientHandler_finished hpc]
      exact ⟨hCallback, by simp [callbackLines]⟩

/-- `main` leaves the calls of the threads alone, and destroys an object only by
the end of its lifetime. -/
theorem mainNext_spec (s : Shutdown) :
    (mainNext s).client.srv.callbackSet = s.client.srv.callbackSet ∧
      (mainNext s).dci = s.dci ∧ (mainNext s).callbacks = s.callbacks ∧
      (mainNext s).logCalls = s.logCalls ∧
      ∀ x ∈ (mainNext s).destroyed,
        x ∈ s.destroyed ∨ s.todo.head? = some (.endOf x) := by
  unfold mainNext
  cases hTodo : s.todo with
  | nil => simp
  | cons step todo =>
      cases step with
      | join =>
          simp only
          split <;> simp +contextual
      | lsmDeInit =>
          simp only
          split <;> simp +contextual
      | endOf x =>
          refine ⟨rfl, rfl, rfl, rfl, fun y hy => ?_⟩
          rcases List.mem_cons.mp hy with rfl | hOld
          · exact Or.inr rfl
          · exact Or.inl hOld
      | terminate => simp +contextual
      | closeClientfd => simp +contextual
      | closeSockfd => simp +contextual
      | releaseDciClient => simp +contextual

theorem shutdownNext_callback (s : Shutdown) :
    shutdownNext s .callback = { s with callbacks := s.callbacks.tail } := by
  obtain ⟨todo, destroyed, client, callbacks, dci, logCalls, deInit⟩ := s
  cases callbacks with
  | nil => rfl
  | cons line callbacks => rfl

theorem shutdownNext_logCall (s : Shutdown) :
    shutdownNext s .logCall = { s with logCalls := s.logCalls.tail } := by
  obtain ⟨todo, destroyed, client, callbacks, dci, logCalls, deInit⟩ := s
  cases logCalls with
  | nil => rfl
  | cons call logCalls => rfl

/-- The client thread goes on only when it has made all its callbacks. -/
theorem shutdownNext_client (s : Shutdown) (a : Answer) :
    shutdownNext s (.client a) =
      if s.callbacks = [] then
        { s with
          client := (clientHandler s.client a).1
          callbacks := callbackLines (clientHandler s.client a).2 }
      else s := by
  by_cases hIdle : s.callbacks = [] <;> simp [shutdownNext, shutdownStep, hIdle]

/-- A packet makes the read thread call the only handler there is. -/
theorem shutdownNext_packet {s : Shutdown} (hCalm : Calm s) (p : Packet) :
    shutdownNext s (.packet p) =
      if s.deInit = false ∧ s.logCalls = [] then
        { s with logCalls := [⟨0, .parser, p.ptr, p.len⟩] }
      else s := by
  have hCalls : DCI.handleLog s.dci p = [⟨0, .parser, p.ptr, p.len⟩] := by
    simp [DCI.handleLog, callHandlers, hCalm.handlers]
  by_cases hReads : s.deInit = false ∧ s.logCalls = []
  · simp [shutdownNext, shutdownStep, hReads, hCalls]
  · simp only [shutdownNext, shutdownStep, if_neg hReads]

/-- A step in time keeps calm. -/
theorem calm_next {s : Shutdown} (hCalm : Calm s) {e : ShutdownEvent}
    (hInTime : InTime s e) : Calm (shutdownNext s e) := by
  -- A call becomes pending only in `client` and `packet` steps, and an object is
  -- destroyed only in `main` steps.
  cases e with
  | main =>
      obtain ⟨hSet, hDci, hCallbacks, hLogCalls, hDestroyed⟩ := mainNext_spec s
      show Calm (mainNext s)
      constructor
      · exact hSet.trans hCalm.callbackSet
      · rw [hDci]
        exact hCalm.handlers
      · rw [hLogCalls]
        exact hCalm.bound
      · intro hGone
        rw [hCallbacks]
        exact (hDestroyed _ hGone).elim hCalm.processor hInTime.1
      · intro hGone
        rw [hLogCalls]
        exact (hDestroyed _ hGone).elim hCalm.parser hInTime.2
  | client a =>
      rw [shutdownNext_client]
      split
      · obtain ⟨hSet, hLines⟩ := clientHandler_callbacks hCalm.callbackSet a
        refine { hCalm with callbackSet := hSet, processor := fun hGone => ?_ }
        by_contra hSome
        exact hInTime hGone (hLines.mp hSome)
      · exact hCalm
  | packet p =>
      rw [shutdownNext_packet hCalm]
      split
      · rename_i hReads
        refine { hCalm with bound := by simp, parser := fun hGone => ?_ }
        have hDeInit : s.deInit = true := hInTime hGone
        rw [hReads.1] at hDeInit
        cases hDeInit
      · exact hCalm
  | callback =>
      rw [shutdownNext_callback]
      refine { hCalm with processor := fun hGone => ?_ }
      show s.callbacks.tail = []
      rw [hCalm.processor hGone, List.tail_nil]
  | logCall =>
      rw [shutdownNext_logCall]
      refine { hCalm with bound := ?_, parser := fun hGone => ?_ }
      · exact fun call hMem => hCalm.bound call (List.mem_of_mem_tail hMem)
      · show s.logCalls.tail = []
        rw [hCalm.parser hGone, List.tail_nil]

/-- A call made while nothing has come too late is on a living object. -/
theorem callsAlive_singleton {s : Shutdown} (hCalm : Calm s)
    (e : ShutdownEvent) : CallsAlive s [e] := by
  unfold CallsAlive
  rw [run_singleton]
  cases e with
  | main => simp [shutdownStep]
  | client a =>
      simp only [shutdownStep]
      split <;> simp
  | packet p =>
      simp only [shutdownStep]
      split <;> simp
  | callback =>
      cases hCallbacks : s.callbacks with
      | nil => simp [shutdownStep, hCallbacks]
      | cons line callbacks =>
          have hAlive : .processor ∉ s.destroyed := fun h => by
            simp [hCalm.processor h] at hCallbacks
          simp [shutdownStep, hCallbacks, Call.destroyed, hAlive]
  | logCall =>
      cases hLogCalls : s.logCalls with
      | nil => simp [shutdownStep, hLogCalls]
      | cons call logCalls =>
          have hHandler : call.handler = .parser :=
            hCalm.bound call (by simp [hLogCalls])
          have hAlive : .parser ∉ s.destroyed := fun h => by
            simp [hCalm.parser h] at hLogCalls
          simp [shutdownStep, hLogCalls, Call.destroyed, hHandler, hAlive]

/-- A callback left over for a destroyed processor can be made. -/
theorem callback_reaches_destroyed {s : Shutdown} (hGone : .processor ∈ s.destroyed)
    (hLeft : s.callbacks ≠ []) : ¬ CallsAlive s [.callback] := by
  obtain ⟨line, callbacks, hCallbacks⟩ := List.exists_cons_of_ne_nil hLeft
  simp [CallsAlive, shutdownStep, hCallbacks, hGone, Call.destroyed]

/-- So can a handler call left over for a destroyed parser. -/
theorem logCall_reaches_destroyed {s : Shutdown} (hGone : .parser ∈ s.destroyed)
    (hBound : ∀ call ∈ s.logCalls, call.handler = .parser)
    (hLeft : s.logCalls ≠ []) : ¬ CallsAlive s [.logCall] := by
  obtain ⟨call, logCalls, hLogCalls⟩ := List.exists_cons_of_ne_nil hLeft
  have hHandler : call.handler = .parser := hBound call (by simp [hLogCalls])
  simp [CallsAlive, shutdownStep, hLogCalls, hHandler, hGone, Call.destroyed]

/-- A message completed when the processor is gone is left over for it. -/
theorem message_reaches_destroyed {s : Shutdown} {a : Answer}
    (hSet : s.client.srv.callbackSet = true) (hIdle : s.callbacks = [])
    (hGone : .processor ∈ s.destroyed) (hCompletes : CompletesMessage s.client a) :
    ¬ CallsAlive (shutdownNext s (.client a)) [.callback] := by
  have hLines := (clientHandler_callbacks hSet a).2.mpr hCompletes
  rw [shutdownNext_client, if_pos hIdle]
  exact callback_reaches_destroyed hGone hLines

theorem mainNext_endOf {s : Shutdown} {x : Local}
    (hTodo : s.todo.head? = some (.endOf x)) :
    mainNext s = { s with todo := s.todo.tail, destroyed := x :: s.destroyed } := by
  obtain ⟨todo, hCons⟩ := List.head?_eq_some_iff.mp hTodo
  simp [mainNext, hCons]

/-- After a step that brings something too late, a callback can reach a
destroyed object. -/
theorem exists_call_destroyed {s : Shutdown} (hCalm : Calm s) {e : ShutdownEvent}
    (hLate : ¬ InTime s e) : ∃ e', ¬ CallsAlive (shutdownNext s e) [e'] := by
  cases e with
  | main =>
      show ∃ e', ¬ CallsAlive (mainNext s) [e']
      by_cases hProcessor :
          s.todo.head? = some (.endOf .processor) → s.callbacks = []
      · obtain ⟨hTodo, hLeft⟩ : s.todo.head? = some (.endOf .parser) ∧
            s.logCalls ≠ [] := by
          by_contra hNot
          refine hLate ⟨hProcessor, fun hTodo => ?_⟩
          by_contra hLeft
          exact hNot ⟨hTodo, hLeft⟩
        refine ⟨.logCall, ?_⟩
        rw [mainNext_endOf hTodo]
        exact logCall_reaches_destroyed List.mem_cons_self hCalm.bound hLeft
      · obtain ⟨hTodo, hLeft⟩ := Classical.not_imp.mp hProcessor
        refine ⟨.callback, ?_⟩
        rw [mainNext_endOf hTodo]
        exact callback_reaches_destroyed List.mem_cons_self hLeft
  | client a =>
      obtain ⟨hGone, hCompletes⟩ := Classical.not_imp.mp hLate
      exact ⟨.callback, message_reaches_destroyed hCalm.callbackSet
        (hCalm.processor hGone) hGone (not_not.mp hCompletes)⟩
  | packet p =>
      obtain ⟨hGone, hRunning⟩ := Classical.not_imp.mp hLate
      have hReads : s.deInit = false ∧ s.logCalls = [] :=
        ⟨by simpa using hRunning, hCalm.parser hGone⟩
      refine ⟨.logCall, ?_⟩
      rw [shutdownNext_packet hCalm, if_pos hReads]
      exact logCall_reaches_destroyed hGone (by simp) (by simp)
  | callback => exact absurd trivial hLate
  | logCall => exact absurd trivial hLate

/-! ## Whole runs -/

theorem callsAlive_append (s : Shutdown) (past events : List ShutdownEvent) :
    CallsAlive s (past ++ events) ↔
      CallsAlive s past ∧ CallsAlive (run shutdownStep s past).1 events := by
  unfold CallsAlive
  rw [run_append, List.forall_mem_append]

theorem callsAlive_cons (s : Shutdown) (e : ShutdownEvent)
    (events : List ShutdownEvent) :
    CallsAlive s (e :: events) ↔
      CallsAlive s [e] ∧ CallsAlive (shutdownNext s e) events := by
  have hFirst := callsAlive_append s [e] events
  rwa [run_singleton] at hFirst

/-- No call is made, and none can be made next, on a destroyed object. -/
def StaysAlive (s : Shutdown) (events : List ShutdownEvent) : Prop :=
  ∀ past, past <+: events → ∀ e, CallsAlive s (past ++ [e])

theorem staysAlive_cons {s : Shutdown} (hCalm : Calm s) (e : ShutdownEvent)
    (events : List ShutdownEvent) :
    StaysAlive s (e :: events) ↔ StaysAlive (shutdownNext s e) events := by
  constructor
  · intro h past hPast e'
    have hLonger := h (e :: past) (List.cons_prefix_cons.mpr ⟨rfl, hPast⟩) e'
    exact ((callsAlive_cons s e (past ++ [e'])).mp hLonger).2
  · intro h past hPast e'
    cases past with
    | nil => exact callsAlive_singleton hCalm e'
    | cons e₀ past =>
        obtain ⟨rfl, hRest⟩ := List.cons_prefix_cons.mp hPast
        exact (callsAlive_cons s e₀ (past ++ [e'])).mpr
          ⟨callsAlive_singleton hCalm e₀, h past hRest e'⟩

/-- From a calm state, the steps of a run are in time exactly if neither the run
nor a next step after any part of it calls a destroyed object. -/
theorem inTime_iff_staysAlive {s : Shutdown} (hCalm : Calm s)
    (events : List ShutdownEvent) :
    Accepts shutdownNext InTime s events ↔ StaysAlive s events := by
  induction events generalizing s with
  | nil =>
      refine iff_of_true trivial fun past hPast e => ?_
      rw [List.prefix_nil.mp hPast]
      exact callsAlive_singleton hCalm e
  | cons e events ih =>
      rw [accepts_cons, staysAlive_cons hCalm]
      by_cases hInTime : InTime s e
      · rw [ih (calm_next hCalm hInTime)]
        exact and_iff_right hInTime
      · -- The step that is not in time ends the part of the run considered.
        obtain ⟨e', hDestroyed⟩ := exists_call_destroyed hCalm hInTime
        refine iff_of_false (fun h => hInTime h.1) fun h => ?_
        exact hDestroyed (h [] List.nil_prefix e')

theorem calm_afterWaitLoop (clientId : Int) (client : ClientThread)
    (callbacks : List (List Byte)) (logCodes : Finset UInt16)
    (packet : Option Packet) :
    Calm (afterWaitLoop clientId client callbacks logCodes packet) := by
  refine ⟨rfl, rfl, ?_, by simp [afterWaitLoop], by simp [afterWaitLoop]⟩
  cases packet with
  | none => simp [afterWaitLoop]
  | some p => simp [afterWaitLoop, DCI.handleLog, callHandlers]

/-- No callback of the shutdown reaches a destroyed object in the runs in which
every step is in time; and there are no other runs in which none can: a step
that is not in time can be followed by such a callback. -/
theorem calls_alive (clientId : Int) (client : ClientThread)
    (callbacks : List (List Byte)) (logCodes : Finset UInt16)
    (packet : Option Packet) (events : List ShutdownEvent) :
    let s := afterWaitLoop clientId client callbacks logCodes packet
    (Accepts shutdownNext InTime s events → CallsAlive s events) ∧
      (Accepts shutdownNext InTime s events ↔ StaysAlive s events) := by
  intro s
  have hCalm : Calm s :=
    calm_afterWaitLoop clientId client callbacks logCodes packet
  have hIff := inTime_iff_staysAlive hCalm events
  refine ⟨fun hInTime => ?_, hIff⟩
  have hStays := hIff.mp hInTime
  cases events using List.reverseRecOn with
  | nil => simp [CallsAlive]
  | append_singleton past e => exact hStays past (List.prefix_append _ _) e

/-- A client thread with a client connected and nothing received. -/
def connectedClient : ClientThread :=
  ⟨.receiving, false, (freshServer (Vector.replicate _ 0) 3 4).2⟩

theorem calls_alive_quiet :
    CallsAlive (afterWaitLoop 1 connectedClient [ascii "x"] {0xB0C0} none)
      ([.callback] ++ List.replicate 7 .main ++ [.client ⟨none, .failed⟩] ++
        List.replicate 7 .main) := by
  apply (calls_alive 1 connectedClient [ascii "x"] {0xB0C0} none _).1
  decide +kernel

/-- A message that arrives when the processor is gone is given to it, and so is
a log packet to the parser. -/
theorem late_message_and_packet :
    ¬ CallsAlive (afterWaitLoop 1 connectedClient [] {0xB0C0} none)
        (List.replicate 4 .main ++
          ([.client ⟨none, .data ⟨ascii "x\n\n", by decide, by decide⟩⟩] ++
            [.callback])) ∧
      ¬ CallsAlive (afterWaitLoop 1 connectedClient [] {0xB0C0} none)
        (List.replicate 2 .main ++ [.packet ⟨fun _ => 0, 0, 4⟩] ++ [.logCall]) := by
  constructor
  · intro hAlive
    have hLate := ((callsAlive_append _ _ _).mp hAlive).2
    have hCallback := ((callsAlive_cons _ _ _).mp hLate).2
    exact message_reaches_destroyed rfl rfl (by decide) ⟨rfl, by decide⟩ hCallback
  · decide +kernel

end Qscan
end MgComm
