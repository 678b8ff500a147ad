import MgComm.Library.Monitor
import MgComm.Server.Framing

/-!
# The serving loop and its descriptors

`client_handler` accepts one client after another and calls `receive_` while
it returns a value `>= 0`.  A `recv()` result of 0 makes `receive_` close the
client's descriptor, set `clientfd_` to 0 and return 0, so the loop goes on and
calls `recv()` on descriptor 0.

The first part says what one step of the thread does for each answer of its
environment.  The second part follows the descriptor that is held through
whole runs: the loop keeps to it exactly when no `recv()` returns 0
(`ownsDescriptors_iff`).
-/

namespace MgComm
namespace Server

open StreamMachine DoubledSeparator Monitor

/-! ## The steps of the loop -/

/-- `accept()` fails: `clientfd_` becomes -1 and the loop is tested again. -/
theorem clientHandler_refused {t : ClientThread} (hpc : t.pc = .accepting)
    (r : RecvResult) :
    clientHandler t ⟨none, r⟩ =
      ((outerLoop t.eolFlag { t.srv with clientfd := -1 }).1,
        Event.acceptReturn (-1) ::
          (outerLoop t.eolFlag { t.srv with clientfd := -1 }).2) := by
  simp [clientHandler, hpc, acceptValue]

/-- `accept()` returns a descriptor and `receive_` is entered. -/
theorem clientHandler_accepted {t : ClientThread} (hpc : t.pc = .accepting)
    (fd : Nat) (r : RecvResult) :
    clientHandler t ⟨some fd, r⟩ =
      (⟨.receiving, t.eolFlag, { t.srv with clientfd := fd }⟩,
        [Event.acceptReturn fd, Event.recvCall fd]) := by
  simp [clientHandler, hpc, acceptValue]

/-- `recv()` returns a chunk: it is processed and `receive_` is called
again. -/
theorem clientHandler_data {t : ClientThread} (hpc : t.pc = .receiving)
    (a : Option Nat) (c : Chunk) :
    clientHandler t ⟨a, .data c⟩ =
      (⟨.receiving, (receiveChunk (t.eolFlag, t.srv) c).1.1,
          (receiveChunk (t.eolFlag, t.srv) c).1.2⟩,
        Event.recvReturn c.bytes.length ::
          ((receiveChunk (t.eolFlag, t.srv) c).2.map Event.callback ++
            [Event.recvCall t.srv.clientfd])) := by
  have hFrame := (receiveChunk_frame (t.eolFlag, t.srv) c).2.1
  simp [clientHandler, hpc, receive, RecvResult.scnt, hFrame]

/-- `recv()` returns 0: the descriptor is closed, and as 0 passes the test
`receive_() >= 0`, `recv()` is called on descriptor 0. -/
theorem clientHandler_disconnected {t : ClientThread} (hpc : t.pc = .receiving)
    (a : Option Nat) :
    clientHandler t ⟨a, .disconnected⟩ =
      (⟨.receiving, t.eolFlag, { t.srv with clientfd := 0 }⟩,
        [Event.recvReturn 0, Event.close t.srv.clientfd, Event.recvCall 0]) := by
  simp [clientHandler, hpc, receive, RecvResult.scnt]

/-- `recv()` fails: the descriptor is closed and the outer loop is tested. -/
theorem clientHandler_failed {t : ClientThread} (hpc : t.pc = .receiving)
    (a : Option Nat) :
    clientHandler t ⟨a, .failed⟩ =
      ((outerLoop t.eolFlag { t.srv with clientfd := 0 }).1,
        Event.recvReturn (-1) :: Event.close t.srv.clientfd ::
          (outerLoop t.eolFlag { t.srv with clientfd := 0 }).2) := by
  simp [clientHandler, hpc, receive, RecvResult.scnt]

theorem clientHandler_finished {t : ClientThread} (hpc : t.pc = .finished)
    (a : Answer) : clientHandler t a = (t, []) := by
  simp [clientHandler, hpc]

/-! ## Descriptors -/

/-- All events of `client_handler`, from its start. -/
def handlerTrace (eolFlag : Bool) (srv : TcpServer) (answers : List Answer) :
    List Event :=
  (outerLoop eolFlag srv).2 ++
    (run clientHandler (outerLoop eolFlag srv).1 answers).2

/-- How an event changes the descriptor that was accepted last and has not
been closed. -/
def heldNext (held : Option Int) : Event → Option Int
  | .acceptReturn fd => if fd ≥ 0 then some fd else held
  | .close fd => if held = some fd then none else held
  | _ => held

/-- The descriptor returned by the latest successful `accept()`, unless it has
been closed since. -/
def heldAfter (past : List Event) : Option Int := past.foldl heldNext none

/-- `recv()` and `close()` need the held descriptor, `accept()` needs that none
is held. -/
def UsesHeld (held : Option Int) : Event → Prop
  | .recvCall fd => held = some fd
  | .close fd => held = some fd
  | .acceptCall _ => held = none
  | _ => True

/-- Every `recv()` and `close()` is on the descriptor returned by the latest
successful `accept()` and not yet closed, and no accepted descriptor is still
open at the next `accept()`. -/
def OwnsDescriptors (trace : List Event) : Prop :=
  ∀ past e future, trace = past ++ e :: future → UsesHeld (heldAfter past) e

/-- What the thread's position says about the held descriptor. -/
def HoldsClient (t : ClientThread) (held : Option Int) : Prop :=
  match t.pc with
  | .accepting => held = none
  | .receiving => held = some t.srv.clientfd
  | .finished => held = none

/-- Handling data reports callbacks only, which no descriptor is involved in. -/
theorem accepts_callbacks (held : Option Int) (lines : List (List Byte))
    (events : List Event) :
    Accepts heldNext UsesHeld held (lines.map Event.callback ++ events) ↔
      Accepts heldNext UsesHeld held events := by
  induction lines with
  | nil => rfl
  | cons l lines ih => simpa [UsesHeld, heldNext] using ih

theorem foldl_heldNext_callbacks (held : Option Int) (lines : List (List Byte)) :
    (lines.map Event.callback).foldl heldNext held = held := by
  induction lines with
  | nil => rfl
  | cons l lines ih => simpa [heldNext] using ih

/-- The loop test, with no descriptor held. -/
theorem outerLoop_holds (eolFlag : Bool) (srv : TcpServer) :
    Accepts heldNext UsesHeld none (outerLoop eolFlag srv).2 ∧
      (∀ e ∈ (outerLoop eolFlag srv).2, e ≠ Event.recvReturn 0) ∧
      HoldsClient (outerLoop eolFlag srv).1
        ((outerLoop eolFlag srv).2.foldl heldNext none) := by
  unfold outerLoop
  split <;> simp [UsesHeld, heldNext, HoldsClient]

/-- Step rule: as long as no `recv()` returns 0, a step keeps to the held
descriptor and the thread's position keeps telling which one that is; a
`recv()` that returns 0 is followed by one on a descriptor that is not
held. -/
theorem clientHandler_holds (t : ClientThread) (held : Option Int) (a : Answer)
    (h : HoldsClient t held) :
    (Accepts heldNext UsesHeld held (clientHandler t a).2 ↔
        ∀ e ∈ (clientHandler t a).2, e ≠ Event.recvReturn 0) ∧
      ((∀ e ∈ (clientHandler t a).2, e ≠ Event.recvReturn 0) →
        HoldsClient (clientHandler t a).1
          ((clientHandler t a).2.foldl heldNext held)) := by
  obtain ⟨acceptResult, recvResult⟩ := a
  cases hpc : t.pc with
  | accepting =>
      obtain rfl : held = none := by simpa [HoldsClient, hpc] using h
      cases acceptResult with
      | none =>
          obtain ⟨hAccepts, hGood, hHolds⟩ :=
            outerLoop_holds t.eolFlag { t.srv with clientfd := -1 }
          rw [clientHandler_refused hpc]
          simp [UsesHeld, heldNext, hAccepts, hHolds]
          exact hGood
      | some fd =>
          rw [clientHandler_accepted hpc]
          simp [UsesHeld, heldNext, HoldsClient]
  | receiving =>
      obtain rfl : held = some t.srv.clientfd := by
        simpa [HoldsClient, hpc] using h
      cases recvResult with
      | failed =>
          obtain ⟨hAccepts, hGood, hHolds⟩ :=
            outerLoop_holds t.eolFlag { t.srv with clientfd := 0 }
          rw [clientHandler_failed hpc]
          simp [UsesHeld, heldNext, hAccepts, hHolds]
          exact hGood
      | disconnected =>
          -- After the close nothing is held, but `recv()` is called again.
          rw [clientHandler_disconnected hpc]
          simp [UsesHeld, heldNext]
      | data c =>
          have hFrame := (receiveChunk_frame (t.eolFlag, t.srv) c).2.1
          rw [clientHandler_data hpc]
          simp only [accepts_cons, accepts_callbacks, List.foldl_cons,
            List.foldl_append, foldl_heldNext_callbacks, HoldsClient]
          simp [UsesHeld, heldNext, hFrame]
          refine ⟨c.nonempty, ?_⟩
          rintro e (⟨line, -, rfl⟩ | rfl) <;> simp
  | finished =>
      rw [clientHandler_finished hpc]
      simpa using h

/-- The serving loop keeps to the accepted descriptors exactly in the runs in
which no `recv()` returns 0. -/
theorem ownsDescriptors_iff (eolFlag : Bool) (srv : TcpServer)
    (answers : List Answer) :
    OwnsDescriptors (handlerTrace eolFlag srv answers) ↔
      Event.recvReturn 0 ∉ handlerTrace eolFlag srv answers := by
  obtain ⟨hAccepts, hGood, hHolds⟩ := outerLoop_holds eolFlag srv
  have hRun := run_accepts_iff heldNext UsesHeld clientHandler_holds hHolds answers
  have hForall : OwnsDescriptors (handlerTrace eolFlag srv answers) ↔
      Accepts heldNext UsesHeld none (handlerTrace eolFlag srv answers) :=
    (accepts_iff_forall heldNext UsesHeld none _).symm
  rw [hForall, handlerTrace, accepts_append, hRun, List.mem_append, not_or]
  constructor
  · rintro ⟨-, hAll⟩
    exact ⟨fun hMem => hGood _ hMem rfl, fun hMem => hAll _ hMem rfl⟩
  · rintro ⟨-, hNot⟩
    exact ⟨hAccepts, fun e hMem hEq => hNot (hEq ▸ hMem)⟩

/-- A client on descriptor 5 disconnects in an orderly way: descriptor 0 is
read, and closed when that fails. -/
theorem disconnection_closes_zero :
    ¬ OwnsDescriptors (handlerTrace false (freshServer (Vector.replicate _ 0) 3 0).2
      [⟨some 5, .failed⟩, ⟨none, .disconnected⟩, ⟨none, .failed⟩]) := by
  intro hOwns
  have hClose := hOwns
    [.acceptCall 3, .acceptReturn 5, .recvCall 5, .recvReturn 0, .close 5,
      .recvCall 0, .recvReturn (-1)]
    (.close 0) [.acceptCall 3] (by decide)
  revert hClose
  simp [UsesHeld, heldAfter, heldNext]

end Server
end MgComm
