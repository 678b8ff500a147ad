import MgComm.Bytes

/-!
# `TcpServer`: receiving commands from one client at a time

The receiving half of `server/TcpServer.cpp`, function by function.  The
object is a `TcpServer` record; the function-level `static bool eol_flag` of
`process_buf` belongs to the process, not to the object, and is passed beside
it.  What the code does to its environment is recorded as a list of `Event`s;
what the environment answers is an input.

Console output, the port number and the constructor's `socket`, `bind` and
`listen` calls are left out.
-/

namespace MgComm
namespace Server

/-- `sizeof(rcv_buf)`. -/
def rcvBufSize : Nat := 2048

/-- `char rcv_buf[2048]`. -/
abbrev RcvBuf := Vector Byte rcvBufSize

namespace RcvBuf

/-- `rcv_buf[i]`. -/
def read (buf : RcvBuf) (i : Nat) : Byte := buf.toList.getD i 0

/-- What `recv()` leaves in the buffer: the received bytes in front, the old
content behind them. -/
def fill (buf : RcvBuf) (bytes : List Byte) : RcvBuf :=
  Vector.ofFn fun i => bytes.getD i.val buf[i]

/-- The bytes `[start, start + len)` of the buffer. -/
def range (buf : RcvBuf) (start len : Nat) : List Byte :=
  (buf.toList.drop start).take len

end RcvBuf

/-- A positive result of `recv(fd, rcv_buf, sizeof(rcv_buf), 0)`. -/
structure Chunk where
  bytes : List Byte
  nonempty : bytes ≠ []
  fits : bytes.length ≤ rcvBufSize

/-- The fields of the object which the receiving code uses. -/
structure TcpServer where
  rcvBuf : RcvBuf
  keeped : List Byte
  sockfd : Int
  clientfd : Int
  terminate : Bool
  /-- `callback_` holds a target. -/
  callbackSet : Bool

/-! ## `process_buf` -/

/-- The variables of `process_buf` at the head of its loop, with the strings
given to `callback_` so far. -/
structure Scan where
  keeped : List Byte
  eolFlag : Bool
  startOfChunk : Nat
  delivered : List (List Byte)

/-- The loop body of `process_buf` for index `i`. -/
def scanByte (rcvBuf : RcvBuf) (callbackSet : Bool) (st : Scan) (i : Nat) :
    Scan :=
  if rcvBuf.read i = newline then
    if st.eolFlag then
      -- Only what precedes the first newline of the terminator is appended,
      -- and nothing when that newline is not in this buffer.
      let keeped :=
        if i > st.startOfChunk + 1 then
          st.keeped ++
            rcvBuf.range st.startOfChunk (sizeT ((i : Int) - st.startOfChunk - 1))
        else st.keeped
      { keeped := []
        eolFlag := false
        startOfChunk := i + 1
        delivered :=
          if callbackSet then st.delivered ++ [keeped] else st.delivered }
    else { st with eolFlag := true }
  else { st with eolFlag := false }

/-- The loop `for(int i = 0; i < scnt; ++i)` of `process_buf`. -/
def scanLoop (eolFlag : Bool) (srv : TcpServer) (scnt : Nat) : Scan :=
  (List.range scnt).foldl (scanByte srv.rcvBuf srv.callbackSet)
    { keeped := srv.keeped, eolFlag := eolFlag, startOfChunk := 0,
      delivered := [] }

/-- `void TcpServer::process_buf(ssize_t scnt)`.  Returns the static
`eol_flag`, the object, and the strings given to `callback_` in order. -/
def processBuf (eolFlag : Bool) (srv : TcpServer) (scnt : Nat) :
    (Bool × TcpServer) × List (List Byte) :=
  let st := scanLoop eolFlag srv scnt
  let keeped :=
    if st.startOfChunk < scnt then
      st.keeped ++
        srv.rcvBuf.range st.startOfChunk (sizeT ((scnt : Int) - st.startOfChunk))
    else st.keeped
  ((st.eolFlag, { srv with keeped := keeped }), st.delivered)

/-- One chunk: `recv()` fills `rcv_buf` and `process_buf` handles it. -/
def receiveChunk (state : Bool × TcpServer) (c : Chunk) :
    (Bool × TcpServer) × List (List Byte) :=
  processBuf state.1 { state.2 with rcvBuf := state.2.rcvBuf.fill c.bytes }
    c.bytes.length

/-! ## `receive_` and `client_handler` -/

/-- What the client thread does to its environment and learns from it. -/
inductive Event where
  | acceptCall (sockfd : Int)
  | acceptReturn (fd : Int)
  | recvCall (fd : Int)
  | recvReturn (scnt : Int)
  | close (fd : Int)
  | callback (line : List Byte)
  deriving DecidableEq

/-- A result of `recv()`. -/
inductive RecvResult where
  | failed
  | disconnected
  | data (c : Chunk)

/-- The value `recv()` returns. -/
def RecvResult.scnt : RecvResult → Int
  | .failed => -1
  | .disconnected => 0
  | .data c => c.bytes.length

/-- `int TcpServer::receive_()` once its `recv()` has answered.  Returns the
value of the function, the state, and what it did. -/
def receive (state : Bool × TcpServer) (r : RecvResult) :
    Int × (Bool × TcpServer) × List Event :=
  match r with
  | .data c =>
      let (state', lines) := receiveChunk state c
      (r.scnt, state', Event.recvReturn r.scnt :: lines.map Event.callback)
  | _ =>
      (r.scnt, (state.1, { state.2 with clientfd := 0 }),
        [Event.recvReturn r.scnt, Event.close state.2.clientfd])

/-- Where `client_handler` is blocked. -/
inductive ThreadPc where
  | accepting
  | receiving
  | finished
  deriving DecidableEq

/-- The client thread between two answers of its environment. -/
structure ClientThread where
  pc : ThreadPc
  eolFlag : Bool
  srv : TcpServer

/-- What the environment answers next: the result of `accept()` (`none` is an
error) if the thread is blocked there, of `recv()` if it is blocked there. -/
structure Answer where
  accept : Option Nat
  recv : RecvResult

/-- The value `accept_()` returns. -/
def acceptValue : Option Nat → Int
  | some fd => fd
  | none => -1

/-- The test `while(!terminate_)`, up to the next blocking call. -/
def outerLoop (eolFlag : Bool) (srv : TcpServer) : ClientThread × List Event :=
  if srv.terminate then (⟨.finished, eolFlag, srv⟩, [])
  else (⟨.accepting, eolFlag, srv⟩, [Event.acceptCall srv.sockfd])

/-- `void TcpServer::client_handler()`, from one blocking call to the next. -/
def clientHandler (t : ClientThread) (a : Answer) : ClientThread × List Event :=
  match t.pc with
  | .accepting =>
      let fd := acceptValue a.accept
      let srv := { t.srv with clientfd := fd }
      if fd ≥ 0 then
        (⟨.receiving, t.eolFlag, srv⟩,
          [Event.acceptReturn fd, Event.recvCall srv.clientfd])
      else
        let (t', events) := outerLoop t.eolFlag srv
        (t', Event.acceptReturn fd :: events)
  | .receiving =>
      let (value, (eolFlag, srv), events) := receive (t.eolFlag, t.srv) a.recv
      if value ≥ 0 then
        (⟨.receiving, eolFlag, srv⟩, events ++ [Event.recvCall srv.clientfd])
      else
        let (t', more) := outerLoop eolFlag { srv with clientfd := 0 }
        (t', events ++ more)
  | .finished => (t, [])

end Server
end MgComm
