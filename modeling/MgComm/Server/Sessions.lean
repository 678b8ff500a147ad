import MgComm.Server.ClientHandler

/-!
# Client sessions

A client connects, sends its chunks and disconnects; then the next one is
accepted.  `keeped_` belongs to the server object and `eol_flag` to the
process, and neither is touched when a client goes, so the bytes after the last
terminator of one client stand in front of those of the next one.

A session acts on the framing state as its chunks do (`run_session`), whatever
descriptors and failed calls it involves.  From this the deliveries of a client
after any history of other clients are computed, and they are those of a fresh
server, for every next client, exactly when the earlier clients left no
unterminated bytes (`isolated_iff`).
-/

namespace MgComm
namespace Server

open StreamMachine DoubledSeparator

/-- One client: failed calls of `accept()` before it, the descriptor it gets,
its chunks, and the number of times `recv()` returns 0 before it fails.  The
loop goes back to `accept()` only after a failed `recv()`. -/
structure Session where
  failedAccepts : Nat
  fd : Nat
  chunks : List Chunk
  zeroReads : Nat

/-- The answers which `client_handler` gets in a session. -/
def Session.answers (s : Session) : List Answer :=
  List.replicate s.failedAccepts ⟨none, .failed⟩ ++
    ⟨some s.fd, .failed⟩ :: (s.chunks.map fun c => ⟨none, .data c⟩) ++
      List.replicate s.zeroReads ⟨none, .disconnected⟩ ++ [⟨none, .failed⟩]

/-- The strings given to `callback_` among some events. -/
def callbackLines (events : List Event) : List (List Byte) :=
  events.filterMap fun e =>
    match e with
    | .callback line => some line
    | _ => none

@[simp] theorem callbackLines_append (es es' : List Event) :
    callbackLines (es ++ es') = callbackLines es ++ callbackLines es' := by
  simp [callbackLines]

@[simp] theorem callbackLines_map_callback (lines : List (List Byte)) :
    callbackLines (lines.map Event.callback) = lines := by
  induction lines with
  | nil => rfl
  | cons line lines ih => simp [callbackLines]

/-- A thread at a given place of the loop, not asked to terminate and with a
callback set, whose framing state is `p`. -/
structure Serving (pc : ThreadPc) (p : Pending Byte) (t : ClientThread) :
    Prop where
  pc_eq : t.pc = pc
  running : t.srv.terminate = false
  callback : t.srv.callbackSet = true
  framing : pending (t.eolFlag, t.srv) = p

/-- The loop test passes and `accept()` is called. -/
theorem serving_outerLoop (eolFlag : Bool) (srv : TcpServer)
    (hRunning : srv.terminate = false) (hCallback : srv.callbackSet = true) :
    Serving .accepting (pending (eolFlag, srv)) (outerLoop eolFlag srv).1 ∧
      callbackLines (outerLoop eolFlag srv).2 = [] := by
  have hLoop : outerLoop eolFlag srv =
      (⟨.accepting, eolFlag, srv⟩, [Event.acceptCall srv.sockfd]) := by
    simp [outerLoop, hRunning]
  rw [hLoop]
  exact ⟨⟨rfl, hRunning, hCallback, rfl⟩, rfl⟩

theorem serving_refused {p : Pending Byte} {t : ClientThread}
    (h : Serving .accepting p t) (r : RecvResult) :
    Serving .accepting p (clientHandler t ⟨none, r⟩).1 ∧
      callbackLines (clientHandler t ⟨none, r⟩).2 = [] := by
  obtain ⟨hServing, hLines⟩ := serving_outerLoop t.eolFlag
    { t.srv with clientfd := -1 } h.running h.callback
  rw [clientHandler_refused h.pc_eq]
  exact ⟨h.framing ▸ hServing, hLines⟩

theorem serving_accepted {p : Pending Byte} {t : ClientThread}
    (h : Serving .accepting p t) (fd : Nat) (r : RecvResult) :
    Serving .receiving p (clientHandler t ⟨some fd, r⟩).1 ∧
      callbackLines (clientHandler t ⟨some fd, r⟩).2 = [] := by
  rw [clientHandler_accepted h.pc_eq]
  exact ⟨⟨rfl, h.running, h.callback, h.framing⟩, rfl⟩

/-- The strings given to `callback_` for a chunk are those which `process_buf`
delivers. -/
theorem callbackLines_data {t : ClientThread} (hpc : t.pc = .receiving)
    (a : Option Nat) (c : Chunk) :
    callbackLines (clientHandler t ⟨a, .data c⟩).2 =
      (receiveChunk (t.eolFlag, t.srv) c).2 := by
  have hCall : callbackLines [Event.recvCall t.srv.clientfd] = [] := rfl
  rw [clientHandler_data hpc]
  calc
    callbackLines (Event.recvReturn c.bytes.length ::
          ((receiveChunk (t.eolFlag, t.srv) c).2.map Event.callback ++
            [Event.recvCall t.srv.clientfd]))
        = callbackLines
            ((receiveChunk (t.eolFlag, t.srv) c).2.map Event.callback) ++
          callbackLines [Event.recvCall t.srv.clientfd] := by
      rw [← callbackLines_append]
      rfl
    _ = (receiveChunk (t.eolFlag, t.srv) c).2 := by
      rw [callbackLines_map_callback, hCall, List.append_nil]

theorem serving_data {p : Pending Byte} {t : ClientThread}
    (h : Serving .receiving p t) (a : Option Nat) (c : Chunk) :
    Serving .receiving (feedChunk newline p c.bytes).1
        (clientHandler t ⟨a, .data c⟩).1 ∧
      callbackLines (clientHandler t ⟨a, .data c⟩).2 =
        (feedChunk newline p c.bytes).2 := by
  obtain ⟨hPending, hDelivered⟩ := receiveChunk_eq (t.eolFlag, t.srv) c
  obtain ⟨-, -, hTerminate, hSet⟩ := receiveChunk_frame (t.eolFlag, t.srv) c
  have hCallback := h.callback
  simp only [h.framing, hCallback, if_true] at hPending hDelivered
  rw [callbackLines_data h.pc_eq, clientHandler_data h.pc_eq]
  exact ⟨⟨rfl, hTerminate.trans h.running, hSet.trans h.callback, hPending⟩,
    hDelivered⟩

theorem serving_disconnected {p : Pending Byte} {t : ClientThread}
    (h : Serving .receiving p t) (a : Option Nat) :
    Serving .receiving p (clientHandler t ⟨a, .disconnected⟩).1 ∧
      callbackLines (clientHandler t ⟨a, .disconnected⟩).2 = [] := by
  rw [clientHandler_disconnected h.pc_eq]
  exact ⟨⟨rfl, h.running, h.callback, h.framing⟩, rfl⟩

theorem serving_failed {p : Pending Byte} {t : ClientThread}
    (h : Serving .receiving p t) (a : Option Nat) :
    Serving .accepting p (clientHandler t ⟨a, .failed⟩).1 ∧
      callbackLines (clientHandler t ⟨a, .failed⟩).2 = [] := by
  obtain ⟨hServing, hLines⟩ := serving_outerLoop t.eolFlag
    { t.srv with clientfd := 0 } h.running h.callback
  rw [clientHandler_failed h.pc_eq]
  exact ⟨h.framing ▸ hServing, by simpa [callbackLines] using hLines⟩

/-! ## Runs of one kind of answer -/

/-- Answers that change neither the place nor the framing state may come any
number of times. -/
theorem serving_replicate {pc : ThreadPc} {p : Pending Byte} {a : Answer}
    (hStep : ∀ t, Serving pc p t →
      Serving pc p (clientHandler t a).1 ∧
        callbackLines (clientHandler t a).2 = [])
    {t : ClientThread} (h : Serving pc p t) (n : Nat) :
    Serving pc p (run clientHandler t (List.replicate n a)).1 ∧
      callbackLines (run clientHandler t (List.replicate n a)).2 = [] := by
  induction n generalizing t with
  | zero => exact ⟨h, rfl⟩
  | succ n ih =>
      obtain ⟨hNext, hHead⟩ := hStep t h
      obtain ⟨hEnd, hTail⟩ := ih hNext
      rw [List.replicate_succ, run_cons]
      exact ⟨hEnd, by rw [callbackLines_append, hHead, hTail, List.nil_append]⟩

/-- The chunks of a client go through the chunk receiver. -/
theorem serving_chunks {p : Pending Byte} {t : ClientThread}
    (h : Serving .receiving p t) (cs : List Chunk) :
    Serving .receiving (run (feedChunk newline) p (cs.map Chunk.bytes)).1
        (run clientHandler t (cs.map fun c => ⟨none, .data c⟩)).1 ∧
      callbackLines (run clientHandler t (cs.map fun c => ⟨none, .data c⟩)).2 =
        (run (feedChunk newline) p (cs.map Chunk.bytes)).2 := by
  induction cs generalizing t p with
  | nil => exact ⟨h, rfl⟩
  | cons c cs ih =>
      obtain ⟨hNext, hHead⟩ := serving_data h none c
      obtain ⟨hEnd, hTail⟩ := ih hNext
      simp only [List.map_cons, run_cons]
      exact ⟨hEnd, by rw [callbackLines_append, hHead, hTail]⟩

/-- A whole session takes the framing state where its chunks take it, and
delivers what its chunks deliver. -/
theorem run_session {p : Pending Byte} {t : ClientThread}
    (h : Serving .accepting p t) (s : Session) :
    Serving .accepting
        (run (feedChunk newline) p (s.chunks.map Chunk.bytes)).1
        (run clientHandler t s.answers).1 ∧
      callbackLines (run clientHandler t s.answers).2 =
        (run (feedChunk newline) p (s.chunks.map Chunk.bytes)).2 := by
  obtain ⟨hRefused, hNone₁⟩ := serving_replicate
    (fun _ hServing => serving_refused hServing .failed) h s.failedAccepts
  obtain ⟨hAccepted, hNone₂⟩ := serving_accepted hRefused s.fd .failed
  obtain ⟨hChunks, hLines⟩ := serving_chunks hAccepted s.chunks
  obtain ⟨hZero, hNone₃⟩ := serving_replicate
    (fun _ hServing => serving_disconnected hServing none) hChunks s.zeroReads
  obtain ⟨hFailed, hNone₄⟩ := serving_failed hZero none
  simp only [Session.answers, List.append_assoc, List.cons_append, run_append,
    run_cons, run_nil, callbackLines_append]
  refine ⟨hFailed, ?_⟩
  rw [hNone₁, hNone₂, hLines, hNone₃, hNone₄]
  simp [callbackLines]

/-! ## Histories of sessions -/

/-- The thread of a server that has just been constructed. -/
def startThread (rcvBuf : RcvBuf) (sockfd : Int) : ClientThread :=
  (outerLoop false (freshServer rcvBuf sockfd 0).2).1

/-- What `callback_` gets while `next` is connected, after the clients of
`history`. -/
def deliveredTo (rcvBuf : RcvBuf) (sockfd : Int) (history : List Session)
    (next : Session) : List (List Byte) :=
  callbackLines
    (run clientHandler
      (run clientHandler (startThread rcvBuf sockfd)
        (history.flatMap Session.answers)).1 next.answers).2

/-- All bytes sent by the clients of a history. -/
def bytesOf (history : List Session) : List Byte :=
  history.flatMap fun s => stream s.chunks

theorem serving_startThread (rcvBuf : RcvBuf) (sockfd : Int) :
    Serving .accepting (Remainder.empty : Remainder newline).toPending
      (startThread rcvBuf sockfd) := by
  exact (serving_outerLoop false (freshServer rcvBuf sockfd 0).2 rfl rfl).1

/-- After a history of sessions the framing state is the remainder of all
bytes sent. -/
theorem serving_history (rcvBuf : RcvBuf) (sockfd : Int)
    (history : List Session) :
    Serving .accepting (decode newline (bytesOf history)).1.toPending
      (run clientHandler (startThread rcvBuf sockfd)
        (history.flatMap Session.answers)).1 := by
  induction history using List.reverseRecOn with
  | nil => exact serving_startThread rcvBuf sockfd
  | append_singleton history s ih =>
      have hSession := (run_session ih s).1
      rw [run_feedChunk_eq newline _ _ fun _ => bytes_ne_nil_of_mem] at hSession
      have hBytes : bytesOf (history ++ [s]) = bytesOf history ++ stream s.chunks := by
        simp [bytesOf]
      rw [hBytes, decode, run_append, List.flatMap_append, run_append]
      simpa [decode, stream] using hSession

/-- The deliveries to a client depend on the earlier ones only through the
bytes they left behind. -/
theorem deliveredTo_eq (rcvBuf : RcvBuf) (sockfd : Int)
    (history : List Session) (next : Session) :
    deliveredTo rcvBuf sockfd history next =
      (run (feedChunk newline) (decode newline (bytesOf history)).1.toPending
        (next.chunks.map Chunk.bytes)).2 :=
  (run_session (serving_history rcvBuf sockfd history) next).2

/-- A client that sends one complete message in one chunk. -/
def probe : Session :=
  { failedAccepts := 0
    fd := 4
    chunks := [⟨ascii "a\n\n", by decide, by decide⟩]
    zeroReads := 1 }

/-- The first string delivered to `probe` starts with what was left. -/
theorem feedChunk_probe (p : Pending Byte) :
    (run (feedChunk newline) p (probe.chunks.map Chunk.bytes)).2 =
      [p.kept ++ ascii "a"] := by
  have hBytes : ascii "a\n\n" = [97, newline, newline] := by decide
  have hText : ascii "a" = [97] := by decide
  have hOther : (97 : Byte) ≠ newline := by decide
  simp [probe, feedChunk, cutStep, run_cons, hBytes, hText, hOther]

/-- The next client, whatever it sends, is served as by a fresh server exactly
when the bytes of all earlier clients end at a terminator, or there are
none. -/
theorem isolated_iff (rcvBuf : RcvBuf) (sockfd : Int) (history : List Session) :
    (∀ next : Session, deliveredTo rcvBuf sockfd history next =
        deliveredTo rcvBuf sockfd [] next) ↔
      (decode newline (bytesOf history)).1.kept = [] := by
  constructor
  · intro hAll
    -- What was left stands in front of the first complete message.
    have hProbe := hAll probe
    rw [deliveredTo_eq, deliveredTo_eq, feedChunk_probe, feedChunk_probe] at hProbe
    simpa [bytesOf, decode, Remainder.toPending, Remainder.empty] using hProbe
  · intro hKept next
    have hEmpty : (decode newline (bytesOf history)).1 = Remainder.empty :=
      Remainder.ext hKept
    rw [deliveredTo_eq, deliveredTo_eq, hEmpty]
    simp [bytesOf, decode]

/-- A client sends `"a"` and disconnects; the next one sends `"b\n\n"`, and
`"ab"` is delivered. -/
theorem session_sees_predecessor :
    deliveredTo (Vector.replicate _ 0) 3
        [⟨0, 4, [⟨ascii "a", by decide, by decide⟩], 1⟩]
        ⟨0, 4, [⟨ascii "b\n\n", by decide, by decide⟩], 1⟩ ≠
      deliveredTo (Vector.replicate _ 0) 3 []
        ⟨0, 4, [⟨ascii "b\n\n", by decide, by decide⟩], 1⟩ := by
  rw [deliveredTo_eq, deliveredTo_eq]
  decide

end Server
end MgComm
