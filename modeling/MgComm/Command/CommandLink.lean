import MgComm.Command.CommandProcessor
import MgComm.Server.Framing

/-!
# Commands arriving over the socket

`qscan.cpp` sets `CommandProcessor::process_command` as the callback of its
`TcpServer`.  The two objects are composed here: every string `process_buf`
delivers is given to `cbCmd` before the next chunk is received.

Two ways of cutting a stream may deliver a command with or without the first
newline of its terminator.  A final newline belongs to no word, so both are
dispatched alike.
-/

namespace MgComm
namespace Command

open StreamMachine DoubledSeparator WordExtraction Server

/-- The server and the processor it is connected to. -/
structure Qscan where
  commSrv : Bool × TcpServer
  processor : CommandProcessor

/-- One chunk received by the server, with the commands it completes. -/
def Qscan.receive (q : Qscan) (c : Chunk) : Qscan × List Dispatch :=
  let received := receiveChunk q.commSrv c
  let processed := run cbCmd q.processor received.2
  (⟨received.1, processed.1⟩, processed.2)

/-- Both objects as `main` constructs them. -/
def Qscan.fresh (rcvBuf : RcvBuf) (sockfd clientfd : Int) : Qscan :=
  ⟨freshServer rcvBuf sockfd clientfd, CommandProcessor.fresh⟩

/-- The dispatches of a run are those of the strings the server delivers. -/
theorem run_receive (q : Qscan) (cs : List Chunk) :
    (run Qscan.receive q cs).2 =
      (run receiveChunk q.commSrv cs).2.map
        fun l => dispatchOf (words isSpace l) := by
  induction cs generalizing q with
  | nil => rfl
  | cons c cs ih =>
      rw [run_cons, run_cons, List.map_append, ih]
      simp [Qscan.receive, run_cbCmd]

/-- A message is dispatched alike whether or not its terminator straddled a
chunk boundary. -/
theorem dispatchOf_delivered (cut : Nat → Bool) (m : Message newline) (p : Nat) :
    dispatchOf (words isSpace (delivered newline cut m p)) =
      dispatchOf (words isSpace m.text) := by
  unfold delivered
  split
  · rw [words_concat isSpace (by decide)]
  · rfl

/-- The commands dispatched for any chunks are those of the messages of the
stream. -/
theorem run_receive_fresh (rcvBuf : RcvBuf) (sockfd clientfd : Int)
    (cs : List Chunk) :
    (run Qscan.receive (Qscan.fresh rcvBuf sockfd clientfd) cs).2 =
      (decode newline (stream cs)).2.map
        fun m => dispatchOf (words isSpace m.text) := by
  have hServer : (Qscan.fresh rcvBuf sockfd clientfd).commSrv =
      freshServer rcvBuf sockfd clientfd := rfl
  rw [run_receive, hServer, (run_freshServer rcvBuf sockfd clientfd cs).2]
  exact map_delivered newline _ _ _ (length_terminatorEnds (stream cs)) _ _
    fun m p _ => dispatchOf_delivered _ m p

/-- Command dispatch does not depend on how the stream is cut. -/
theorem dispatches_eq (rcvBuf : RcvBuf) (sockfd clientfd : Int)
    {s : List Byte} (cut cut' : Cut s) :
    (run Qscan.receive (Qscan.fresh rcvBuf sockfd clientfd) cut.chunks).2 =
      (run Qscan.receive (Qscan.fresh rcvBuf sockfd clientfd) cut'.chunks).2 := by
  rw [run_receive_fresh, run_receive_fresh, cut.whole, cut'.whole]

end Command
end MgComm
