import MgComm.Library.DoubledSeparator
import MgComm.Server.TcpServer

/-!
# Framing of the received stream

`process_buf` sees one chunk at a time and keeps a string and a flag.  This
module shows that it is the chunk receiver of `DoubledSeparator` with newline
as the separator (`receiveChunk_eq`), from every value of `keeped_` and
`eol_flag`, and derives what a sequence of chunks delivers
(`run_receiveChunk`).  After any chunks a fresh server holds a function of the
whole stream (`framerInv_freshServer`).

The receiver forgets that a newline kept from the previous chunk belongs to
the terminator, so a message is delivered with that newline exactly when its
terminator straddles a chunk boundary.
-/

namespace MgComm
namespace Server

open StreamMachine DoubledSeparator

/-! ## The buffer -/

theorem RcvBuf.read_fill (buf : RcvBuf) (c : Chunk) {i : Nat}
    (hi : i < c.bytes.length) : (buf.fill c.bytes).read i = c.bytes[i] := by
  have hSize : i < rcvBufSize := hi.trans_le c.fits
  simp [RcvBuf.read, RcvBuf.fill, List.getD_eq_getElem?_getD, hSize, hi]

/-- A range inside the received bytes holds received bytes. -/
theorem RcvBuf.range_fill (buf : RcvBuf) (c : Chunk) {start len : Nat}
    (h : start + len ≤ c.bytes.length) :
    (buf.fill c.bytes).range start len = (c.bytes.drop start).take len := by
  have hFits := c.fits
  apply List.ext_getElem
  · simp only [RcvBuf.range, List.length_take, List.length_drop,
      Vector.length_toList]
    omega
  · intro j hLeft hRight
    have hj : start + j < c.bytes.length := by
      simp only [List.length_take, List.length_drop] at hRight
      omega
    simp [RcvBuf.range, RcvBuf.fill, List.getD_eq_getElem?_getD, hj]

/-- Lengths of ranges of `rcv_buf` survive the conversion to `size_t`. -/
theorem sizeT_of_nonneg {n : Int} (hLow : 0 ≤ n) (hHigh : n ≤ rcvBufSize) :
    sizeT n = n.toNat := by
  have : n < 2 ^ 64 := by
    simp only [rcvBufSize] at hHigh
    omega
  unfold sizeT
  rw [Int.emod_eq_of_lt hLow this]

/-! ## The scan of one chunk -/

/-- The receiver state that `keeped_` and `eol_flag` stand for. -/
def pending (state : Bool × TcpServer) : Pending Byte :=
  ⟨state.2.keeped, state.1⟩

/-- The chunk receiver after the first `i` bytes of a chunk. -/
def scanned (p : Pending Byte) (bytes : List Byte) (i : Nat) :
    Pending Byte × List (List Byte) :=
  run (cutStep newline fun q => q == 0) p (bytes.take i).zipIdx

/-- What the loop variables of `process_buf` stand for after `i` bytes: the
bytes since the last terminator are those of `keeped_` and those of the chunk
from `start_of_chunk` on. -/
structure ScanInv (p : Pending Byte) (bytes : List Byte) (callbackSet : Bool)
    (i : Nat) (st : Scan) : Prop where
  start_le : st.startOfChunk ≤ i
  start_lt : st.eolFlag = true → i = 0 ∨ st.startOfChunk < i
  kept : (scanned p bytes i).1.kept =
    st.keeped ++ (bytes.take i).drop st.startOfChunk
  armed : (scanned p bytes i).1.armed = st.eolFlag
  delivered : st.delivered =
    if callbackSet then (scanned p bytes i).2 else []

theorem scanned_succ (p : Pending Byte) (bytes : List Byte) {i : Nat}
    (hi : i < bytes.length) :
    scanned p bytes (i + 1) =
      ((cutStep newline (fun q => q == 0) (scanned p bytes i).1
          (bytes[i], i)).1,
        (scanned p bytes i).2 ++
          (cutStep newline (fun q => q == 0) (scanned p bytes i).1
            (bytes[i], i)).2) := by
  have hLength : (bytes.take i).length = i := by simp; omega
  have hTake : (bytes.take (i + 1)).zipIdx =
      (bytes.take i).zipIdx ++ [(bytes[i], i)] := by
    rw [List.take_succ_eq_append_getElem hi, List.zipIdx_append]
    simp [hLength]
  unfold scanned
  rw [hTake, run_append, run_singleton]

theorem drop_take_succ (bytes : List Byte) {start i : Nat} (hStart : start ≤ i)
    (hi : i < bytes.length) :
    (bytes.take (i + 1)).drop start =
      (bytes.take i).drop start ++ [bytes[i]] := by
  have hLength : start ≤ (bytes.take i).length := by simp; omega
  rw [List.take_succ_eq_append_getElem hi,
    List.drop_append_of_le_length hLength]

/-- The string given to `callback_` at a terminator ending at `i`: without the
terminator's first newline if that is in the chunk, and all of `keeped_`
otherwise. -/
theorem terminated_eq (keeped bytes : List Byte) {start i : Nat}
    (hStart : start ≤ i) (hi : i < bytes.length) (hLt : i = 0 ∨ start < i) :
    (if i > start + 1 then keeped ++ (bytes.drop start).take (i - start - 1)
      else keeped) =
      if i == 0 then keeped ++ (bytes.take i).drop start
      else (keeped ++ (bytes.take i).drop start).dropLast := by
  rcases Nat.eq_zero_or_pos i with rfl | hPos
  · simp
  · have hLt' : start < i := hLt.resolve_left hPos.ne'
    have hDrop : (bytes.take i).drop start = (bytes.drop start).take (i - start) :=
      List.drop_take
    have hNe : (bytes.drop start).take (i - start) ≠ [] := by
      apply List.ne_nil_of_length_pos
      simp
      omega
    have hLength : ((bytes.drop start).take (i - start)).length = i - start := by
      simp
      omega
    have hLater : (i == 0) = false := by simpa using hPos.ne'
    rw [hLater, hDrop]
    simp only [Bool.false_eq_true, if_false]
    rw [List.dropLast_append_of_ne_nil hNe, List.dropLast_eq_take, hLength,
      List.take_take, Nat.min_eq_left (Nat.sub_le _ _)]
    split
    · rfl
    · have hOne : i - start - 1 = 0 := by omega
      simp [hOne]

/-- One iteration of the loop is one step of the chunk receiver. -/
theorem scanByte_inv {p : Pending Byte} {c : Chunk} {buf : RcvBuf}
    {callbackSet : Bool} {i : Nat} {st : Scan}
    (hi : i < c.bytes.length) (h : ScanInv p c.bytes callbackSet i st) :
    ScanInv p c.bytes callbackSet (i + 1)
      (scanByte (buf.fill c.bytes) callbackSet st i) := by
  have hRead := RcvBuf.read_fill buf c hi
  have hSucc := scanned_succ p c.bytes hi
  have hDrop := drop_take_succ c.bytes h.start_le hi
  have hFits := c.fits
  have hStart := h.start_le
  by_cases hNewline : c.bytes[i] = newline
  · by_cases hEol : st.eolFlag = true
    · -- The terminator ends here: the message is handed out.
      have hRange : i > st.startOfChunk + 1 →
          (buf.fill c.bytes).range st.startOfChunk
              (sizeT ((i : Int) - st.startOfChunk - 1)) =
            (c.bytes.drop st.startOfChunk).take (i - st.startOfChunk - 1) := by
        intro hFar
        rw [sizeT_of_nonneg (by omega) (by omega),
          show ((i : Int) - st.startOfChunk - 1).toNat =
            i - st.startOfChunk - 1 by omega]
        exact RcvBuf.range_fill buf c (by omega)
      have hLine := terminated_eq st.keeped c.bytes hStart hi (h.start_lt hEol)
      have hStep : cutStep newline (fun q => q == 0) (scanned p c.bytes i).1
            (c.bytes[i], i) =
          (⟨[], false⟩, [if i == 0 then (scanned p c.bytes i).1.kept
            else (scanned p c.bytes i).1.kept.dropLast]) :=
        cutStep_closes newline _ i hNewline (h.armed.trans hEol)
      have hScan : scanByte (buf.fill c.bytes) callbackSet st i =
          { keeped := [], eolFlag := false, startOfChunk := i + 1,
            delivered :=
              if callbackSet then
                st.delivered ++ [if i == 0 then (scanned p c.bytes i).1.kept
                  else (scanned p c.bytes i).1.kept.dropLast]
              else st.delivered } := by
        rw [h.kept, ← hLine]
        by_cases hFar : i > st.startOfChunk + 1
        · simp [scanByte, hRead, hNewline, hEol, hFar, hRange hFar]
        · simp [scanByte, hRead, hNewline, hEol, hFar]
      rw [hScan]
      constructor
      · exact Nat.le_refl _
      · simp
      · simp [hSucc, hStep]
      · simp [hSucc, hStep]
      · cases callbackSet <;> simp [hSucc, hStep, h.delivered]
    · -- A first newline stays in the message for now.
      have hEol' : st.eolFlag = false := by simpa using hEol
      have hStep : cutStep newline (fun q => q == 0) (scanned p c.bytes i).1
            (c.bytes[i], i) =
          (⟨(scanned p c.bytes i).1.kept ++ [c.bytes[i]], true⟩, []) :=
        cutStep_opens newline _ i hNewline (h.armed.trans hEol')
      have hScan : scanByte (buf.fill c.bytes) callbackSet st i =
          { st with eolFlag := true } := by
        simp [scanByte, hRead, hNewline, hEol']
      rw [hScan]
      constructor
      · exact Nat.le_succ_of_le hStart
      · exact fun _ => Or.inr (Nat.lt_succ_of_le hStart)
      · simp [hSucc, hStep, h.kept, hDrop]
      · simp [hSucc, hStep]
      · simp [hSucc, hStep, h.delivered]
  · -- Any other byte makes the newline before it part of the message.
    have hStep : cutStep newline (fun q => q == 0) (scanned p c.bytes i).1
          (c.bytes[i], i) =
        (⟨(scanned p c.bytes i).1.kept ++ [c.bytes[i]], false⟩, []) :=
      cutStep_other newline _ _ i hNewline
    have hScan : scanByte (buf.fill c.bytes) callbackSet st i =
        { st with eolFlag := false } := by
      simp [scanByte, hRead, hNewline]
    rw [hScan]
    constructor
    · exact Nat.le_succ_of_le hStart
    · simp
    · simp [hSucc, hStep, h.kept, hDrop]
    · simp [hSucc, hStep]
    · simp [hSucc, hStep, h.delivered]

theorem scanLoop_zero (eolFlag : Bool) (srv : TcpServer) :
    scanLoop eolFlag srv 0 =
      { keeped := srv.keeped, eolFlag := eolFlag, startOfChunk := 0,
        delivered := [] } := rfl

theorem scanLoop_succ (eolFlag : Bool) (srv : TcpServer) (n : Nat) :
    scanLoop eolFlag srv (n + 1) =
      scanByte srv.rcvBuf srv.callbackSet (scanLoop eolFlag srv n) n := by
  simp [scanLoop, List.range_succ]

/-- The loop of `process_buf` over a received chunk. -/
theorem scanLoop_inv (eolFlag : Bool) (srv : TcpServer) (c : Chunk) {n : Nat}
    (hn : n ≤ c.bytes.length) :
    ScanInv (pending (eolFlag, srv)) c.bytes srv.callbackSet n
      (scanLoop eolFlag { srv with rcvBuf := srv.rcvBuf.fill c.bytes } n) := by
  induction n with
  | zero =>
      rw [scanLoop_zero]
      constructor <;> simp [scanned, pending]
  | succ n ih =>
      rw [scanLoop_succ]
      exact scanByte_inv hn (ih (Nat.le_of_succ_le hn))

/-- One chunk through `recv()` and `process_buf` is one chunk of the abstract
receiver, whatever `keeped_` and `eol_flag` were. -/
theorem receiveChunk_eq (state : Bool × TcpServer) (c : Chunk) :
    pending (receiveChunk state c).1 =
        (feedChunk newline (pending state) c.bytes).1 ∧
      (receiveChunk state c).2 =
        if state.2.callbackSet then
          (feedChunk newline (pending state) c.bytes).2
        else [] := by
  have hInv := scanLoop_inv state.1 state.2 c (Nat.le_refl c.bytes.length)
  have hAll : scanned (pending state) c.bytes c.bytes.length =
      feedChunk newline (pending state) c.bytes := by
    simp [scanned, feedChunk]
  obtain ⟨hStart, -, hKept, hArmed, hDelivered⟩ := hInv
  rw [show pending (state.1, state.2) = pending state from rfl, hAll]
    at hKept hArmed hDelivered
  refine ⟨?_, hDelivered⟩
  have hFits := c.fits
  have hKeeped : (receiveChunk state c).1.2.keeped =
      (feedChunk newline (pending state) c.bytes).1.kept := by
    rw [hKept, List.take_length]
    unfold receiveChunk processBuf
    set st := scanLoop state.1
      { state.2 with rcvBuf := state.2.rcvBuf.fill c.bytes } c.bytes.length
    simp only
    split
    · -- The rest of the chunk is kept.
      have hLength : ((c.bytes.length : Int) - st.startOfChunk).toNat =
          c.bytes.length - st.startOfChunk := by omega
      rw [sizeT_of_nonneg (by omega) (by omega), hLength,
        RcvBuf.range_fill state.2.rcvBuf c (by omega),
        List.take_of_length_le (by simp)]
    · have hNil : c.bytes.drop st.startOfChunk = [] :=
        List.drop_eq_nil_of_le (by omega)
      rw [hNil, List.append_nil]
  calc
    pending (receiveChunk state c).1
        = ⟨(receiveChunk state c).1.2.keeped, (receiveChunk state c).1.1⟩ := rfl
    _ = ⟨(feedChunk newline (pending state) c.bytes).1.kept,
          (feedChunk newline (pending state) c.bytes).1.armed⟩ := by
      rw [hKeeped, hArmed]
      rfl

/-- `receiveChunk_eq` with a callback set. -/
theorem receiveChunk_callback {state : Bool × TcpServer}
    (hCallback : state.2.callbackSet = true) (c : Chunk) :
    pending (receiveChunk state c).1 =
        (feedChunk newline (pending state) c.bytes).1 ∧
      (receiveChunk state c).2 =
        (feedChunk newline (pending state) c.bytes).2 := by
  have hEq := receiveChunk_eq state c
  rwa [hCallback, if_pos rfl] at hEq

theorem bytes_ne_nil_of_mem {cs : List Chunk} {bytes : List Byte}
    (hMem : bytes ∈ cs.map Chunk.bytes) : bytes ≠ [] := by
  obtain ⟨c, -, rfl⟩ := List.mem_map.mp hMem
  exact c.nonempty

/-- `process_buf` writes only `rcv_buf`, `keeped_` and `eol_flag`. -/
theorem receiveChunk_frame (state : Bool × TcpServer) (c : Chunk) :
    (receiveChunk state c).1.2.sockfd = state.2.sockfd ∧
      (receiveChunk state c).1.2.clientfd = state.2.clientfd ∧
      (receiveChunk state c).1.2.terminate = state.2.terminate ∧
      (receiveChunk state c).1.2.callbackSet = state.2.callbackSet := by
  simp [receiveChunk, processBuf]

/-! ## Sequences of chunks -/

/-- The bytes of a sequence of chunks. -/
def stream (cs : List Chunk) : List Byte := (cs.map Chunk.bytes).flatten

/-- Where the chunks start in their stream. -/
def starts (cs : List Chunk) : List Nat :=
  chunkStarts 0 (cs.map Chunk.bytes)

/-- Positions at which a terminator of a stream ends. -/
def terminatorEnds (s : List Byte) : List Nat := terminators newline false 0 s

/-- Every terminator closes one message. -/
theorem length_terminatorEnds (s : List Byte) :
    (terminatorEnds s).length = (decode newline s).2.length :=
  length_terminators newline Remainder.empty 0 s

/-- A way in which `recv()` may cut a stream. -/
structure Cut (s : List Byte) where
  chunks : List Chunk
  whole : stream chunks = s

/-- A server without client data, with a callback set. -/
def freshServer (rcvBuf : RcvBuf) (sockfd clientfd : Int) : Bool × TcpServer :=
  (false,
    { rcvBuf := rcvBuf, keeped := [], sockfd := sockfd, clientfd := clientfd,
      terminate := false, callbackSet := true })

@[simp] theorem pending_freshServer (rcvBuf : RcvBuf) (sockfd clientfd : Int) :
    pending (freshServer rcvBuf sockfd clientfd) =
      (Remainder.empty : Remainder newline).toPending := rfl

/-- Chunk after chunk, the object is the abstract chunk receiver. -/
theorem run_receiveChunk_feedChunk (state : Bool × TcpServer)
    (hCallback : state.2.callbackSet = true) (cs : List Chunk) :
    pending (run receiveChunk state cs).1 =
        (run (feedChunk newline) (pending state) (cs.map Chunk.bytes)).1 ∧
      (run receiveChunk state cs).2 =
        (run (feedChunk newline) (pending state) (cs.map Chunk.bytes)).2 := by
  have hRun := run_simulates receiveChunk (feedChunk newline) pending Chunk.bytes
    (fun state => state.2.callbackSet = true)
    (fun s c hSet => by
      obtain ⟨hPending, hDelivered⟩ := receiveChunk_callback hSet c
      refine ⟨(receiveChunk_frame s c).2.2.2.trans hSet, ?_⟩
      rw [hPending, hDelivered]) hCallback cs
  rw [hRun]
  exact ⟨rfl, rfl⟩

/-- What the object keeps and delivers after any chunks, from a coherent
state: the remainder and the messages of the stream, each message with a
final newline when its terminator straddles a chunk boundary. -/
theorem run_receiveChunk (state : Bool × TcpServer) (r : Remainder newline)
    (hState : pending state = r.toPending)
    (hCallback : state.2.callbackSet = true) (cs : List Chunk) :
    pending (run receiveChunk state cs).1 =
        (run (frameStep newline) r (stream cs)).1.toPending ∧
      (run receiveChunk state cs).2 =
        List.zipWith (delivered newline fun p => decide (p ∈ starts cs))
          (run (frameStep newline) r (stream cs)).2
          (terminators newline r.armed 0 (stream cs)) := by
  obtain ⟨hPending, hDelivered⟩ :=
    run_receiveChunk_feedChunk state hCallback cs
  have hFeed := run_feedChunk_eq newline r (cs.map Chunk.bytes)
    fun _ => bytes_ne_nil_of_mem
  rw [hState, hFeed] at hPending hDelivered
  exact ⟨hPending, hDelivered⟩

/-- `run_receiveChunk` from a fresh server. -/
theorem run_freshServer (rcvBuf : RcvBuf) (sockfd clientfd : Int)
    (cs : List Chunk) :
    pending (run receiveChunk (freshServer rcvBuf sockfd clientfd) cs).1 =
        (decode newline (stream cs)).1.toPending ∧
      (run receiveChunk (freshServer rcvBuf sockfd clientfd) cs).2 =
        List.zipWith (delivered newline fun p => decide (p ∈ starts cs))
          (decode newline (stream cs)).2 (terminatorEnds (stream cs)) :=
  run_receiveChunk _ Remainder.empty (pending_freshServer rcvBuf sockfd clientfd)
    rfl cs

/-- What the framer holds after the bytes `s`, with the strings it has given to
`callback_`: nothing but a function of `s`, however `s` was cut. -/
structure FramerInv (s : List Byte) (state : Bool × TcpServer)
    (lines : List (List Byte)) : Prop where
  /-- `keeped_` is what has been received since the last terminator. -/
  keeped : state.2.keeped = s.drop (afterLast 0 (terminatorEnds s))
  clean : ¬ [newline, newline] <:+: state.2.keeped
  eolFlag : state.1 = true ↔
    state.2.keeped ≠ [] ∧ state.2.keeped.getLast? = some newline
  callbacks : lines.length = (terminatorEnds s).length

/-- A fresh server with a callback set keeps the framer invariant, over all
sequences of chunks. -/
theorem framerInv_freshServer (rcvBuf : RcvBuf) (sockfd clientfd : Int)
    (cs : List Chunk) :
    FramerInv (stream cs)
      (run receiveChunk (freshServer rcvBuf sockfd clientfd) cs).1
      (run receiveChunk (freshServer rcvBuf sockfd clientfd) cs).2 := by
  obtain ⟨hPending, hDelivered⟩ := run_freshServer rcvBuf sockfd clientfd cs
  have hKept := congrArg Pending.kept hPending
  have hArmed := congrArg Pending.armed hPending
  simp only [pending, Remainder.toPending] at hKept hArmed
  constructor
  · rw [hKept]
    exact decode_kept newline (stream cs)
  · rw [hKept]
    exact (decode newline (stream cs)).1.clean
  · rw [hKept, hArmed, Remainder.armed, decide_eq_true_iff]
    constructor
    · intro hLast
      refine ⟨fun hNil => ?_, hLast⟩
      rw [hNil] at hLast
      cases hLast
    · exact And.right
  · rw [hDelivered, List.length_zipWith, length_terminatorEnds, Nat.min_self]

/-- Two ways of cutting a stream are treated alike: the same strings are
delivered, and `keeped_` and `eol_flag` end up the same. -/
def SameFraming (start : Bool × TcpServer) {s : List Byte}
    (cut cut' : Cut s) : Prop :=
  (run receiveChunk start cut.chunks).2 =
      (run receiveChunk start cut'.chunks).2 ∧
    pending (run receiveChunk start cut.chunks).1 =
      pending (run receiveChunk start cut'.chunks).1

/-- Framing is the same for two cuts of a stream exactly when each terminator
straddles a chunk boundary in both of them or in neither. -/
theorem sameFraming_iff (rcvBuf : RcvBuf) (sockfd clientfd : Int)
    {s : List Byte} (cut cut' : Cut s) :
    SameFraming (freshServer rcvBuf sockfd clientfd) cut cut' ↔
      ∀ p ∈ terminatorEnds s, p ∈ starts cut.chunks ↔ p ∈ starts cut'.chunks := by
  obtain ⟨hPending, hDelivered⟩ :=
    run_freshServer rcvBuf sockfd clientfd cut.chunks
  obtain ⟨hPending', hDelivered'⟩ :=
    run_freshServer rcvBuf sockfd clientfd cut'.chunks
  have hLength := length_terminatorEnds s
  unfold SameFraming
  rw [hPending, hPending', hDelivered, hDelivered', cut.whole, cut'.whole,
    delivered_eq_iff newline _ _ _ _ hLength]
  simp

/-- A terminator cut in two: `"a\n\n"` received at once gives `"a"`, and
received as `"a\n"` and `"\n"` gives `"a\n"`. -/
theorem framing_depends_on_cut :
    ¬ SameFraming (freshServer (Vector.replicate _ 0) 3 4) (s := ascii "a\n\n")
      ⟨[⟨ascii "a\n\n", by decide, by decide⟩], rfl⟩
      ⟨[⟨ascii "a\n", by decide, by decide⟩, ⟨ascii "\n", by decide, by decide⟩],
        rfl⟩ := by
  intro hSame
  have hLines := hSame.1
  rw [(run_freshServer _ _ _ _).2, (run_freshServer _ _ _ _).2] at hLines
  revert hLines
  decide

/-- The stream of a list of messages, each followed by two newlines. -/
def encodeMessages (msgs : List (List Byte)) : List Byte :=
  msgs.flatMap fun m => m ++ [newline, newline]

/-- A stream of terminated messages gives back the messages, however it is cut,
as long as no cut falls between the two newlines of a terminator. -/
theorem deliveries_encodeMessages (rcvBuf : RcvBuf) (sockfd clientfd : Int)
    (msgs : List (List Byte))
    (hMessages : ∀ m ∈ msgs,
      ¬ [newline, newline] <:+: m ∧ m.getLast? ≠ some newline)
    (cut : Cut (encodeMessages msgs))
    (hCut : ∀ p ∈ closingPositions 0 msgs, p ∉ starts cut.chunks) :
    (run receiveChunk (freshServer rcvBuf sockfd clientfd) cut.chunks).2 = msgs ∧
      (run receiveChunk (freshServer rcvBuf sockfd clientfd)
        cut.chunks).1.2.keeped = [] ∧
      (run receiveChunk (freshServer rcvBuf sockfd clientfd) cut.chunks).1.1 =
        false := by
  obtain ⟨ms, hTexts⟩ := exists_messages newline msgs
    fun m hm => (terminable_iff newline m).mpr (hMessages m hm)
  have hStream : stream cut.chunks = encode newline ms Remainder.empty := by
    rw [cut.whole, ← hTexts]
    simp [encodeMessages, encode, List.flatMap_map]
  have hDecode : decode newline (stream cut.chunks) = (Remainder.empty, ms) := by
    rw [hStream, decode_encode]
  have hEnds : terminatorEnds (stream cut.chunks) = closingPositions 0 msgs := by
    rw [hStream, terminatorEnds, terminators_encode, hTexts]
  have hLength : (closingPositions 0 msgs).length = ms.length := by
    rw [← hEnds, length_terminatorEnds, hDecode]
  obtain ⟨hPending, hDelivered⟩ :=
    run_freshServer rcvBuf sockfd clientfd cut.chunks
  rw [hDecode] at hPending hDelivered
  rw [hEnds, delivered_of_not_cut newline _ ms _ hLength
    (by simpa using hCut), hTexts] at hDelivered
  exact ⟨hDelivered, congrArg Pending.kept hPending,
    congrArg Pending.armed hPending⟩

theorem deliveries_encodeMessages_two :
    (run receiveChunk (freshServer (Vector.replicate _ 0) 3 4)
      [⟨ascii "a\n\n\n", by decide, by decide⟩,
        ⟨ascii "b\n\n", by decide, by decide⟩]).2 = [ascii "a", ascii "\nb"] :=
  (deliveries_encodeMessages (Vector.replicate _ 0) 3 4
    [ascii "a", ascii "\nb"] (by decide)
    ⟨[⟨ascii "a\n\n\n", by decide, by decide⟩,
      ⟨ascii "b\n\n", by decide, by decide⟩], rfl⟩ (by decide)).1

end Server
end MgComm
