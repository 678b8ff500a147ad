import MgComm.Server.Framing

/-!
# The accesses of `process_buf` to `rcv_buf`

`process_buf` subtracts signed indices and hands the difference to `append` as
a `size_t`.  This module repeats `process_buf` with a record of what it reads
of `rcv_buf` (`processBufTraced`, the same function by
`processBufTraced_fst`), and shows that every read stays within the received
bytes (`processBuf_inBounds`).  Nothing is assumed about `eol_flag`, `keeped_`
and the content of the buffer.
-/

namespace MgComm
namespace Server

open StreamMachine

/-- What `process_buf` reads of `rcv_buf`. -/
inductive Access where
  /-- `rcv_buf[i]`. -/
  | index (i : Nat)
  /-- `keeped_.append(rcv_buf + start, len)`, with the length as it is before
  its conversion to `size_t`. -/
  | append (start : Nat) (len : Int)
  deriving DecidableEq

/-- The access reads received bytes only, and its length survives the
conversion. -/
def Access.InBounds (scnt : Nat) : Access → Prop
  | .index i => i < scnt
  | .append start len =>
      0 < len ∧ (sizeT len : Int) = len ∧ start + sizeT len ≤ scnt

/-- `scanByte` with its accesses. -/
def scanByteTraced (rcvBuf : RcvBuf) (callbackSet : Bool) (st : Scan) (i : Nat) :
    Scan × List Access :=
  if rcvBuf.read i = newline then
    if st.eolFlag then
      let appended :=
        if i > st.startOfChunk + 1 then
          (st.keeped ++
              rcvBuf.range st.startOfChunk
                (sizeT ((i : Int) - st.startOfChunk - 1)),
            [Access.append st.startOfChunk ((i : Int) - st.startOfChunk - 1)])
        else (st.keeped, [])
      ({ keeped := []
         eolFlag := false
         startOfChunk := i + 1
         delivered :=
           if callbackSet then st.delivered ++ [appended.1]
           else st.delivered },
        Access.index i :: appended.2)
    else ({ st with eolFlag := true }, [Access.index i])
  else ({ st with eolFlag := false }, [Access.index i])

/-- `scanLoop` with its accesses. -/
def scanLoopTraced (eolFlag : Bool) (srv : TcpServer) (scnt : Nat) :
    Scan × List Access :=
  run (scanByteTraced srv.rcvBuf srv.callbackSet)
    { keeped := srv.keeped, eolFlag := eolFlag, startOfChunk := 0,
      delivered := [] }
    (List.range scnt)

/-- `processBuf` with its accesses. -/
def processBufTraced (eolFlag : Bool) (srv : TcpServer) (scnt : Nat) :
    ((Bool × TcpServer) × List (List Byte)) × List Access :=
  let (st, accesses) := scanLoopTraced eolFlag srv scnt
  if st.startOfChunk < scnt then
    let len := (scnt : Int) - st.startOfChunk
    let keeped := st.keeped ++ srv.rcvBuf.range st.startOfChunk (sizeT len)
    (((st.eolFlag, { srv with keeped := keeped }), st.delivered),
      accesses ++ [Access.append st.startOfChunk len])
  else
    (((st.eolFlag, { srv with keeped := st.keeped }), st.delivered), accesses)

/-! ## The record does not change the function -/

theorem scanByteTraced_fst (rcvBuf : RcvBuf) (callbackSet : Bool) (st : Scan)
    (i : Nat) :
    (scanByteTraced rcvBuf callbackSet st i).1 =
      scanByte rcvBuf callbackSet st i := by
  unfold scanByteTraced scanByte
  split
  · split
    · by_cases hFar : i > st.startOfChunk + 1
      · simp only [if_pos hFar]
      · simp only [if_neg hFar]
    · rfl
  · rfl

/-- One more iteration. -/
theorem scanLoopTraced_succ (eolFlag : Bool) (srv : TcpServer) (n : Nat) :
    scanLoopTraced eolFlag srv (n + 1) =
      ((scanByteTraced srv.rcvBuf srv.callbackSet
          (scanLoopTraced eolFlag srv n).1 n).1,
        (scanLoopTraced eolFlag srv n).2 ++
          (scanByteTraced srv.rcvBuf srv.callbackSet
            (scanLoopTraced eolFlag srv n).1 n).2) := by
  unfold scanLoopTraced
  rw [List.range_succ, run_append, run_singleton]

theorem scanLoopTraced_fst (eolFlag : Bool) (srv : TcpServer) (n : Nat) :
    (scanLoopTraced eolFlag srv n).1 = scanLoop eolFlag srv n := by
  induction n with
  | zero => rfl
  | succ n ih =>
      rw [scanLoopTraced_succ, scanLoop_succ, scanByteTraced_fst, ih]

/-- `processBufTraced` computes what `processBuf` does. -/
theorem processBufTraced_fst (eolFlag : Bool) (srv : TcpServer) (scnt : Nat) :
    (processBufTraced eolFlag srv scnt).1 = processBuf eolFlag srv scnt := by
  unfold processBufTraced processBuf
  rw [← scanLoopTraced_fst]
  by_cases hRest : (scanLoopTraced eolFlag srv scnt).1.startOfChunk < scnt
  · simp only [if_pos hRest]
  · simp only [if_neg hRest]

/-! ## Bounds -/

/-- A positive length of at most `rcvBufSize` survives the conversion to
`size_t`. -/
theorem inBounds_append {start scnt : Nat} {len : Int}
    (hPos : 0 < len) (hEnd : start + len ≤ scnt) (hScnt : scnt ≤ rcvBufSize) :
    (Access.append start len).InBounds scnt := by
  have hSize : sizeT len = len.toNat := sizeT_of_nonneg (by omega) (by omega)
  refine ⟨hPos, ?_, ?_⟩
  · rw [hSize]
    omega
  · rw [hSize]
    omega

/-- One iteration moves `start_of_chunk` to at most the next index. -/
theorem scanByte_start_le {rcvBuf : RcvBuf} {callbackSet : Bool} {st : Scan}
    {i : Nat} (hStart : st.startOfChunk ≤ i) :
    (scanByte rcvBuf callbackSet st i).startOfChunk ≤ i + 1 := by
  unfold scanByte
  split
  · split
    · exact Nat.le_refl _
    · exact Nat.le_succ_of_le hStart
  · exact Nat.le_succ_of_le hStart

/-- One iteration reads within the received bytes. -/
theorem scanByteTraced_inBounds {rcvBuf : RcvBuf} {callbackSet : Bool} {st : Scan}
    {i scnt : Nat} (hi : i < scnt) (hScnt : scnt ≤ rcvBufSize) :
    ∀ a ∈ (scanByteTraced rcvBuf callbackSet st i).2, a.InBounds scnt := by
  have hIndex : (Access.index i).InBounds scnt := hi
  unfold scanByteTraced
  split
  · split
    · by_cases hFar : i > st.startOfChunk + 1
      · -- The guard makes the length of the only subtraction positive.
        have hAppend : (Access.append st.startOfChunk
            ((i : Int) - st.startOfChunk - 1)).InBounds scnt :=
          inBounds_append (by omega) (by omega) hScnt
        simpa [hFar] using ⟨hIndex, hAppend⟩
      · simpa [hFar] using hIndex
    · simpa using hIndex
  · simpa using hIndex

theorem scanLoop_start_le (eolFlag : Bool) (srv : TcpServer) (i : Nat) :
    (scanLoop eolFlag srv i).startOfChunk ≤ i := by
  induction i with
  | zero => exact Nat.le_refl 0
  | succ i ih =>
      rw [scanLoop_succ]
      exact scanByte_start_le ih

theorem scanLoopTraced_inBounds (eolFlag : Bool) (srv : TcpServer) {n scnt : Nat}
    (hn : n ≤ scnt) (hScnt : scnt ≤ rcvBufSize) :
    ∀ a ∈ (scanLoopTraced eolFlag srv n).2, a.InBounds scnt := by
  induction n with
  | zero => simp [scanLoopTraced]
  | succ n ih =>
      rw [scanLoopTraced_succ]
      intro a hMem
      cases List.mem_append.mp hMem with
      | inl hEarlier => exact ih (Nat.le_of_succ_le hn) a hEarlier
      | inr hLast => exact scanByteTraced_inBounds hn hScnt a hLast

/-- `process_buf` stays inside the received bytes, from every `eol_flag`,
`keeped_` and buffer: whenever the loop condition is tested, `start_of_chunk`
is at most `i`, and every byte read and every range appended is in bounds. -/
theorem processBuf_inBounds (eolFlag : Bool) (srv : TcpServer) (scnt : Nat)
    (hScnt : scnt ≤ rcvBufSize) :
    (∀ i ≤ scnt, (scanLoop eolFlag srv i).startOfChunk ≤ i) ∧
      ∀ a ∈ (processBufTraced eolFlag srv scnt).2, a.InBounds scnt := by
  refine ⟨fun i _ => scanLoop_start_le eolFlag srv i, ?_⟩
  have hLoop := scanLoopTraced_inBounds eolFlag srv (Nat.le_refl scnt) hScnt
  have hStart := scanLoop_start_le eolFlag srv scnt
  rw [← scanLoopTraced_fst] at hStart
  unfold processBufTraced
  by_cases hRest : (scanLoopTraced eolFlag srv scnt).1.startOfChunk < scnt
  · simp only [if_pos hRest]
    intro a hMem
    cases List.mem_append.mp hMem with
    | inl hEarlier => exact hLoop a hEarlier
    | inr hLast =>
        obtain rfl := List.mem_singleton.mp hLast
        exact inBounds_append (by omega) (by omega) hScnt
  · simpa only [if_neg hRest] using hLoop

/-- A full buffer, scanned with a newline pending from the call before. -/
theorem processBuf_inBounds_full :
    rcvBufSize ≤ rcvBufSize ∧
      ∀ a ∈ (processBufTraced true (freshServer (Vector.replicate _ newline) 3 5).2
        rcvBufSize).2, a.InBounds rcvBufSize :=
  ⟨Nat.le_refl _,
    (processBuf_inBounds true (freshServer (Vector.replicate _ newline) 3 5).2
      rcvBufSize (Nat.le_refl _)).2⟩

end Server
end MgComm
