import MgComm.Dci.DiagLog
import MgComm.Dci.Requests
import MgComm.Library.WireWords

/-!
# DCI payloads

The read thread of the diag library reads a block from the driver into
`read_buffer` and hands it to `process_diag_payload`.  A block of type
`DCI_DATA_TYPE` names a processor and a length, and goes on with records one
after the other: responses to requests, log packets and events.  The loop finds
its way by the lengths in the records alone; the number of bytes that were read
is not looked at.

For a block that was put together from records, the loop hands on exactly these
records, in order, whatever the rest of the buffer holds (`dciLoop_encode`).
Any other block of a length that fits the buffer is left after at most as many
turns as it has bytes, unless a response in it has a length below -8
(`dciLoop_ends`); with -9 the loop stays where it is (`dciLoop_stuck`).

The platform is that of `MgComm.Bytes`.  What the calls do is not a matter of this
module: the loop is modelled by the calls it makes.
-/

namespace MgComm
namespace Dci

universe u

open WireWords

/-- `sizeof(read_buffer)`. -/
def readBufSize : Nat := 100000

/-- `DCI_PKT_RSP_TYPE`. -/
def dciPktRspType : Int := 0

/-- `DCI_EVENT_TYPE`. -/
def dciEventType : Int := -2

/-- `*(int *)` at an address. -/
def readInt (mem : Nat → Byte) (addr : Nat) : Int := intT (readWord mem addr 4)

/-- `ptr + k` -/
def advance (ptr : Nat) (k : Int) : Nat := ((ptr + k) % 2 ^ 64).toNat

/-- A call which the loop makes. -/
inductive DciCall where
  /-- `raise(dci_client_tbl->data_signal_type)`, if that is enabled -/
  | signal
  /-- `lookup_pkt_rsp_transaction(ptr, dci_proc)`, with what it reads first -/
  | pktRsp (rsp : PktRsp)
  /-- `func_ptr_logs(ptr, len)` -/
  | log (p : Packet)
  /-- `func_ptr_events(ptr, len)` -/
  | event (p : Packet)

/-- The fields `lookup_pkt_rsp_transaction` reads. -/
def readPktRsp (mem : Nat → Byte) (ptr : Nat) : PktRsp where
  len := readInt mem ptr
  deleteFlag := mem (advance ptr 4)
  uid := readInt mem (advance ptr 5)
  data := fun i => mem (advance ptr (9 + i))

/-- One turn of the loop: its call, and `ptr` and `read_bytes` after it; on a
`break` there is neither. -/
def dciTurn (mem : Nat → Byte) (ptr : Nat) (readBytes : Int) :
    Option (DciCall × Nat × Int) :=
  let type := readInt mem ptr
  -- Past the header, for each of the types.
  let body := advance ptr 4
  let readBytes := intT (readBytes + 4)
  if type = dciPktRspType then
    let len := 4 + 1 + readInt mem body
    some (.pktRsp (readPktRsp mem body), advance body len, intT (readBytes + len))
  else if type = dciLogType then
    let len := (readUint16 mem body).toNat
    some (.log ⟨mem, body, len⟩, advance body len, intT (readBytes + len))
  else if type = dciEventType then
    let len := 2 + (readUint16 mem body).toNat
    some (.event ⟨mem, body, len⟩, advance body len, intT (readBytes + len))
  else none

/-- The calls of a turn and of the loop after it, if it does not `break`. -/
def afterTurn (rest : Nat → Int → List DciCall × Bool) :
    Option (DciCall × Nat × Int) → List DciCall × Bool
  | none => ([.signal], true)
  | some (call, ptr, readBytes) =>
      (.signal :: call :: (rest ptr readBytes).1, (rest ptr readBytes).2)

/-- `while (read_bytes < dci_data_len)`, for at most the given number of turns:
the calls, and whether the loop was left. -/
def dciLoop (mem : Nat → Byte) (dciDataLen : Int) :
    Nat → Nat → Int → List DciCall × Bool
  | 0, _, _ => ([], false)
  | turns + 1, ptr, readBytes =>
      if readBytes < dciDataLen then
        afterTurn (dciLoop mem dciDataLen turns) (dciTurn mem ptr readBytes)
      else ([], true)

/-- The branch of `process_diag_payload` for `DCI_DATA_TYPE`; `ptr` points past
the type.  A block for a processor that does not exist is dropped. -/
def processDciData (n : Nat) (mem : Nat → Byte) (ptr : Nat) (turns : Nat) :
    Option (Fin n × List DciCall × Bool) :=
  (procIndex n (readInt mem ptr)).map fun dciProc =>
    (dciProc,
      dciLoop mem (readInt mem (advance ptr 4)) turns (advance (advance ptr 4) 4) 0)

/-! ## Blocks made of records -/

/-- What a record says. -/
inductive DciRecord where
  | pktRsp (deleteFlag : Byte) (uid : Int) (data : List Byte)
  /-- A log packet starts with its own length. -/
  | log (packet : List Byte)
  | event (data : List Byte)
  deriving DecidableEq

/-- The bytes of an `int`. -/
def intBytes (n : Int) : List Byte := wordBytes 4 (n % 2 ^ 32).toNat

/-- The bytes of a record. -/
def DciRecord.encode : DciRecord → List Byte
  | .pktRsp deleteFlag uid data =>
      intBytes dciPktRspType ++
        (intBytes (data.length + 4) ++ deleteFlag :: (intBytes uid ++ data))
  | .log packet => intBytes dciLogType ++ packet
  | .event data => intBytes dciEventType ++ (wordBytes 2 data.length ++ data)

/-- The fields of the record can hold what it says. -/
def DciRecord.WellFormed : DciRecord → Prop
  | .pktRsp _ uid data => -2 ^ 31 ≤ uid ∧ uid < 2 ^ 31 ∧ data.length + 4 < 2 ^ 31
  | .log packet => packet.length < 2 ^ 16 ∧ wordBytes 2 packet.length <+: packet
  | .event data => data.length < 2 ^ 16

/-- A block without its type: processor, length and records. -/
def encodeBlock (proc : Int) (records : List DciRecord) : List Byte :=
  let data := records.flatMap DciRecord.encode
  intBytes proc ++ (intBytes data.length ++ data)

/-- What a call hands on; the signal says nothing. -/
def DciCall.record : DciCall → Option DciRecord
  | .signal => none
  | .pktRsp rsp =>
      some (.pktRsp rsp.deleteFlag rsp.uid
        ((List.range (intT (rsp.len - 4)).toNat).map rsp.data))
  | .log p => some (.log (slice p.mem p.ptr p.len.toNat))
  | .event p => some (.event (slice p.mem (p.ptr + 2) (p.len - 2).toNat))

theorem intT_of_bounds {n : Int} (hLow : -2 ^ 31 ≤ n) (hHigh : n < 2 ^ 31) :
    intT n = n := by
  unfold intT
  exact Int.bmod_eq_of_le (by omega) (by omega)

theorem advance_of_lt {ptr k : Nat} (h : ptr + k < 2 ^ 64) :
    advance ptr k = ptr + k := by
  unfold advance
  omega

theorem readUint16_toNat (mem : Nat → Byte) (addr : Nat) :
    (readUint16 mem addr).toNat = readWord mem addr 2 := by
  have hLow := (mem addr).toNat_lt
  have hHigh := (mem (addr + 1)).toNat_lt
  simp only [readUint16, readWord, UInt16.toNat_add, UInt16.toNat_mul,
    UInt8.toNat_toUInt16, Nat.mul_zero, Nat.add_zero]
  have hBase : UInt16.toNat 256 = 256 := rfl
  rw [hBase]
  omega

section Memory

variable {mem : Nat → Byte} {addr : Nat}

theorem readInt_intBytes {n : Int} (h : Holds mem addr (intBytes n))
    (hLow : -2 ^ 31 ≤ n) (hHigh : n < 2 ^ 31) : readInt mem addr = n := by
  have hWord : ((n % 2 ^ 32).toNat : Int) = n % 2 ^ 32 :=
    Int.toNat_of_nonneg (Int.emod_nonneg n (by decide))
  have hSmall : (n % 2 ^ 32).toNat < 256 ^ 4 := by
    have hBelow : n % 2 ^ 32 < 2 ^ 32 := Int.emod_lt_of_pos n (by decide)
    omega
  rw [readInt, h.readWord_eq, Nat.mod_eq_of_lt hSmall, hWord, intT,
    show ((2 : Int) ^ 32) = ((2 ^ 32 : Nat) : Int) by norm_cast, Int.emod_bmod]
  exact intT_of_bounds hLow hHigh

theorem readUint16_wordBytes {n : Nat} (h : Holds mem addr (wordBytes 2 n))
    (hn : n < 2 ^ 16) : (readUint16 mem addr).toNat = n := by
  rw [readUint16_toNat, h.readWord_eq, Nat.mod_eq_of_lt (by simpa using hn)]

end Memory

@[simp] theorem length_intBytes (n : Int) : (intBytes n).length = 4 :=
  length_wordBytes 4 _

/-! ## The loop gives the records back -/

section Turns

variable {mem : Nat → Byte} {ptr : Nat} {readBytes : Int}

theorem dciTurn_pktRsp {deleteFlag : Byte} {uid : Int} {data : List Byte}
    (hWell : (DciRecord.pktRsp deleteFlag uid data).WellFormed)
    (hHolds : Holds mem ptr (DciRecord.pktRsp deleteFlag uid data).encode)
    (hPtr : ptr + (DciRecord.pktRsp deleteFlag uid data).encode.length < 2 ^ 64)
    (hLow : 0 ≤ readBytes)
    (hHigh : readBytes + (DciRecord.pktRsp deleteFlag uid data).encode.length < 2 ^ 31) :
    ∃ call, call.record = some (.pktRsp deleteFlag uid data) ∧
      dciTurn mem ptr readBytes = some (call,
        ptr + (DciRecord.pktRsp deleteFlag uid data).encode.length,
        readBytes + (DciRecord.pktRsp deleteFlag uid data).encode.length) := by
  obtain ⟨hUidLow, hUidHigh, hData⟩ := hWell
  simp only [DciRecord.encode] at hHolds
  rw [holds_append, holds_append, holds_cons, holds_append] at hHolds
  simp only [length_intBytes] at hHolds
  obtain ⟨hType, hLen, hFlag, hUid, hBytes⟩ := hHolds
  have hSize : (DciRecord.pktRsp deleteFlag uid data).encode.length =
      13 + data.length := by
    simp only [DciRecord.encode, List.length_append, length_intBytes, List.length_cons]
    omega
  rw [hSize] at hPtr hHigh ⊢
  push_cast at hHigh ⊢
  have hReadType : readInt mem ptr = dciPktRspType :=
    readInt_intBytes hType (by decide) (by decide)
  have hReadLen : readInt mem (ptr + 4) = data.length + 4 :=
    readInt_intBytes hLen (by omega) (by omega)
  have hReadUid : readInt mem (ptr + 4 + 4 + 1) = uid :=
    readInt_intBytes hUid hUidLow hUidHigh
  -- No pointer and no count wraps.
  have hBody : advance ptr 4 = ptr + 4 := advance_of_lt (k := 4) (by omega)
  have hFlagAt : advance (ptr + 4) 4 = ptr + 4 + 4 := advance_of_lt (k := 4) (by omega)
  have hUidAt : advance (ptr + 4) 5 = ptr + 4 + 4 + 1 := advance_of_lt (k := 5) (by omega)
  have hNext : advance (ptr + 4) (4 + 1 + ((data.length : Int) + 4)) =
      ptr + (13 + data.length) := by
    have hAdvance : advance (ptr + 4) ((9 + data.length : Nat) : Int) =
        ptr + 4 + (9 + data.length) := advance_of_lt (by omega)
    rw [show (4 + 1 + ((data.length : Int) + 4)) = ((9 + data.length : Nat) : Int) by
      push_cast; omega, hAdvance]
    omega
  have hHeader : intT (readBytes + 4) = readBytes + 4 :=
    intT_of_bounds (by omega) (by omega)
  have hCount : intT (readBytes + 4 + (4 + 1 + ((data.length : Int) + 4))) =
      readBytes + (13 + data.length) := by
    rw [intT_of_bounds (by omega) (by omega)]
    omega
  refine ⟨.pktRsp (readPktRsp mem (ptr + 4)), ?_, ?_⟩
  · have hRspLen : intT (data.length + 4 - 4) = data.length := by
      rw [Int.add_sub_cancel, intT_of_bounds (by omega) (by omega)]
    have hRspData : (List.range data.length).map (readPktRsp mem (ptr + 4)).data =
        data := by
      conv => rhs; rw [← hBytes.slice_eq, slice_eq_map]
      refine List.map_congr_left fun k hk => ?_
      have hBelow := List.mem_range.mp hk
      have hAt : advance (ptr + 4) ((9 + k : Nat) : Int) = ptr + 4 + (9 + k) :=
        advance_of_lt (by omega)
      push_cast at hAt
      simp only [readPktRsp, hAt]
      exact congrArg mem (by omega)
    have hRsp : (readPktRsp mem (ptr + 4)).len = data.length + 4 ∧
        (readPktRsp mem (ptr + 4)).deleteFlag = deleteFlag ∧
        (readPktRsp mem (ptr + 4)).uid = uid := by
      simp only [readPktRsp, hReadLen, hFlagAt, hFlag, hUidAt, hReadUid, and_self]
    rw [DciCall.record, hRsp.1, hRsp.2.1, hRsp.2.2, hRspLen, Int.toNat_natCast, hRspData]
  · rw [dciTurn]
    simp only [hReadType, hBody, hReadLen, hNext, hHeader, hCount, if_true]

theorem dciTurn_log {packet : List Byte} (hWell : (DciRecord.log packet).WellFormed)
    (hHolds : Holds mem ptr (DciRecord.log packet).encode)
    (hPtr : ptr + (DciRecord.log packet).encode.length < 2 ^ 64) (hLow : 0 ≤ readBytes)
    (hHigh : readBytes + (DciRecord.log packet).encode.length < 2 ^ 31) :
    ∃ call, call.record = some (.log packet) ∧
      dciTurn mem ptr readBytes = some (call,
        ptr + (DciRecord.log packet).encode.length,
        readBytes + (DciRecord.log packet).encode.length) := by
  obtain ⟨hShort, rest, hOwn⟩ := hWell
  simp only [DciRecord.encode] at hHolds
  rw [holds_append, length_intBytes] at hHolds
  obtain ⟨hType, hPacket⟩ := hHolds
  have hSize : (DciRecord.log packet).encode.length = 4 + packet.length := by
    simp [DciRecord.encode]
  rw [hSize] at hPtr hHigh ⊢
  push_cast at hHigh ⊢
  have hReadType : readInt mem ptr = dciLogType :=
    readInt_intBytes hType (by decide) (by decide)
  have hReadLen : (readUint16 mem (ptr + 4)).toNat = packet.length := by
    refine readUint16_wordBytes ?_ hShort
    have hSplit := hPacket
    rw [← hOwn, holds_append] at hSplit
    exact hSplit.1
  have hBody : advance ptr 4 = ptr + 4 := advance_of_lt (k := 4) (by omega)
  have hNext : advance (ptr + 4) packet.length = ptr + (4 + packet.length) := by
    rw [advance_of_lt (by omega)]
    omega
  have hHeader : intT (readBytes + 4) = readBytes + 4 :=
    intT_of_bounds (by omega) (by omega)
  have hCount : intT (readBytes + 4 + packet.length) =
      readBytes + (4 + packet.length) := by
    rw [intT_of_bounds (by omega) (by omega)]
    omega
  have hNotRsp : ¬ dciLogType = dciPktRspType := by decide
  refine ⟨.log ⟨mem, ptr + 4, packet.length⟩, ?_, ?_⟩
  · rw [DciCall.record, Int.toNat_natCast, hPacket.slice_eq]
  · rw [dciTurn]
    simp only [hReadType, hBody, hReadLen, hNext, hHeader, hCount, hNotRsp, if_true, if_false]

theorem dciTurn_event {data : List Byte} (hWell : (DciRecord.event data).WellFormed)
    (hHolds : Holds mem ptr (DciRecord.event data).encode)
    (hPtr : ptr + (DciRecord.event data).encode.length < 2 ^ 64) (hLow : 0 ≤ readBytes)
    (hHigh : readBytes + (DciRecord.event data).encode.length < 2 ^ 31) :
    ∃ call, call.record = some (.event data) ∧
      dciTurn mem ptr readBytes = some (call,
        ptr + (DciRecord.event data).encode.length,
        readBytes + (DciRecord.event data).encode.length) := by
  simp only [DciRecord.encode] at hHolds
  rw [holds_append, holds_append, length_intBytes, length_wordBytes] at hHolds
  obtain ⟨hType, hLen, hData⟩ := hHolds
  have hSize : (DciRecord.event data).encode.length = 6 + data.length := by
    simp only [DciRecord.encode, List.length_append, length_intBytes, length_wordBytes]
    omega
  rw [hSize] at hPtr hHigh ⊢
  push_cast at hHigh ⊢
  have hReadType : readInt mem ptr = dciEventType :=
    readInt_intBytes hType (by decide) (by decide)
  have hReadLen : (readUint16 mem (ptr + 4)).toNat = data.length :=
    readUint16_wordBytes hLen hWell
  have hBody : advance ptr 4 = ptr + 4 := advance_of_lt (k := 4) (by omega)
  have hNext : advance (ptr + 4) ((2 + data.length : Nat) : Int) =
      ptr + (6 + data.length) := by
    rw [advance_of_lt (by omega)]
    omega
  have hHeader : intT (readBytes + 4) = readBytes + 4 :=
    intT_of_bounds (by omega) (by omega)
  have hCount : intT (readBytes + 4 + ((2 + data.length : Nat) : Int)) =
      readBytes + (6 + data.length) := by
    rw [intT_of_bounds (by omega) (by omega)]
    omega
  have hNotRsp : ¬ dciEventType = dciPktRspType := by decide
  have hNotLog : ¬ dciEventType = dciLogType := by decide
  refine ⟨.event ⟨mem, ptr + 4, (2 + data.length : Nat)⟩, ?_, ?_⟩
  · have hLength : (((2 + data.length : Nat) : Int) - 2).toNat = data.length := by omega
    rw [DciCall.record, hLength, Nat.add_assoc ptr, ← Nat.add_assoc, hData.slice_eq]
  · rw [dciTurn]
    simp only [hReadType, hBody, hReadLen, hNext, hHeader, hCount, hNotRsp, hNotLog,
      if_true, if_false]

/-- Step lemma: a turn hands on the record that lies there, and goes on right
behind it. -/
theorem dciTurn_encode {r : DciRecord} (hWell : r.WellFormed)
    (hHolds : Holds mem ptr r.encode) (hPtr : ptr + r.encode.length < 2 ^ 64)
    (hLow : 0 ≤ readBytes) (hHigh : readBytes + r.encode.length < 2 ^ 31) :
    ∃ call, call.record = some r ∧ dciTurn mem ptr readBytes =
      some (call, ptr + r.encode.length, readBytes + r.encode.length) := by
  cases r with
  | pktRsp deleteFlag uid data => exact dciTurn_pktRsp hWell hHolds hPtr hLow hHigh
  | log packet => exact dciTurn_log hWell hHolds hPtr hLow hHigh
  | event data => exact dciTurn_event hWell hHolds hPtr hLow hHigh

end Turns

theorem DciRecord.encode_length_pos (r : DciRecord) : 0 < r.encode.length := by
  cases r <;> simp only [DciRecord.encode, List.length_append, length_intBytes] <;> omega

/-- Run lemma: the loop hands on the records that lie one after the other, and is
left behind the last one. -/
theorem dciLoop_encode (mem : Nat → Byte) {records : List DciRecord}
    (hWell : ∀ r ∈ records, r.WellFormed) {ptr turns : Nat} {readBytes dciDataLen : Int}
    (hHolds : Holds mem ptr (records.flatMap DciRecord.encode))
    (hPtr : ptr + (records.flatMap DciRecord.encode).length < 2 ^ 64)
    (hLow : 0 ≤ readBytes)
    (hLen : readBytes + (records.flatMap DciRecord.encode).length = dciDataLen)
    (hHigh : dciDataLen < 2 ^ 31) (hTurns : records.length < turns) :
    ∃ calls, dciLoop mem dciDataLen turns ptr readBytes = (calls, true) ∧
      calls.map DciCall.record = records.flatMap fun r => [none, some r] := by
  induction records generalizing ptr readBytes turns with
  | nil =>
      cases turns with
      | zero => exact absurd hTurns (Nat.not_lt_zero _)
      | succ turns =>
          have hDone : ¬ readBytes < dciDataLen := by
            simp only [List.flatMap_nil, List.length_nil] at hLen
            omega
          refine ⟨[], ?_, rfl⟩
          rw [dciLoop, if_neg hDone]
  | cons r records ih =>
      cases turns with
      | zero => exact absurd hTurns (Nat.not_lt_zero _)
      | succ turns =>
          simp only [List.flatMap_cons, List.length_append] at hHolds hPtr hLen
          rw [holds_append] at hHolds
          obtain ⟨hHere, hBehind⟩ := hHolds
          have hPos := r.encode_length_pos
          obtain ⟨call, hCall, hTurn⟩ := dciTurn_encode
            (hWell r List.mem_cons_self) hHere (by omega) hLow (by omega)
          obtain ⟨calls, hLoop, hCalls⟩ := ih
            (fun q hMem => hWell q (List.mem_cons_of_mem r hMem)) hBehind (by omega)
            (by omega : 0 ≤ readBytes + r.encode.length) (by omega) (by simpa using hTurns)
          have hMore : readBytes < dciDataLen := by omega
          refine ⟨.signal :: call :: calls, ?_, ?_⟩
          · rw [dciLoop, if_pos hMore, hTurn, afterTurn, hLoop]
          · rw [List.map_cons, List.map_cons, hCall, hCalls]
            rfl

/-- A block made of records is taken apart into these records again, and each is
preceded by the signal; what the rest of the memory holds does not matter. -/
theorem processDciData_encodeBlock {n : Nat} (i : Fin n) (hProcs : n < 2 ^ 31)
    {records : List DciRecord} (hWell : ∀ r ∈ records, r.WellFormed)
    (hFits : (encodeBlock i.val records).length + 4 ≤ readBufSize)
    (mem : Nat → Byte) {ptr : Nat} (hHolds : Holds mem ptr (encodeBlock i.val records))
    (hPtr : ptr + readBufSize < 2 ^ 64) {turns : Nat} (hTurns : records.length < turns) :
    ∃ calls, processDciData n mem ptr turns = some (i, calls, true) ∧
      calls.map DciCall.record = records.flatMap fun r => [none, some r] := by
  have hProc : (i.val : Int) < 2 ^ 31 := by
    have hBelow := i.isLt
    omega
  simp only [encodeBlock, List.length_append, length_intBytes] at hFits
  rw [encodeBlock] at hHolds
  simp only [holds_append, length_intBytes] at hHolds
  obtain ⟨hProcBytes, hLenBytes, hData⟩ := hHolds
  simp only [readBufSize] at hFits hPtr
  have hReadProc : readInt mem ptr = i.val :=
    readInt_intBytes hProcBytes (by omega) hProc
  have hReadLen : readInt mem (ptr + 4) = (records.flatMap DciRecord.encode).length :=
    readInt_intBytes hLenBytes (by omega) (by omega)
  have hLenAt : advance ptr 4 = ptr + 4 := advance_of_lt (k := 4) (by omega)
  have hDataAt : advance (ptr + 4) 4 = ptr + 4 + 4 := advance_of_lt (k := 4) (by omega)
  obtain ⟨calls, hLoop, hCalls⟩ := dciLoop_encode mem hWell hData (by omega)
    (Int.le_refl 0) (Int.zero_add _) (by omega) hTurns
  refine ⟨calls, ?_, hCalls⟩
  rw [processDciData, hReadProc, procIndex_val, Option.map_some, hLenAt, hDataAt,
    hReadLen, hLoop]

/-! ## Leaving the loop -/

/-- The length of a response leads the loop onward, and no count wraps. -/
def PktRsp.MovesOn (rsp : PktRsp) : Prop :=
  -8 ≤ rsp.len ∧ rsp.len + 9 + readBufSize < 2 ^ 31

/-- The call is not a response with a length that holds the loop up. -/
def DciCall.MovesOn : DciCall → Prop
  | .pktRsp rsp => rsp.MovesOn
  | _ => True

/-- Step lemma: every record but a response with such a length makes the loop
count at least one byte. -/
theorem dciTurn_movesOn {mem : Nat → Byte} {ptr ptr' : Nat} {readBytes readBytes' : Int}
    {call : DciCall} (hTurn : dciTurn mem ptr readBytes = some (call, ptr', readBytes'))
    (hLow : 0 ≤ readBytes) (hHigh : readBytes < readBufSize) (hCall : call.MovesOn) :
    readBytes < readBytes' := by
  simp only [readBufSize] at hHigh
  have hHeader : intT (readBytes + 4) = readBytes + 4 :=
    intT_of_bounds (by omega) (by omega)
  have hShort := (readUint16 mem (advance ptr 4)).toNat_lt
  by_cases hRsp : readInt mem ptr = dciPktRspType
  · simp only [dciTurn, hRsp, if_true, Option.some.injEq, Prod.mk.injEq] at hTurn
    obtain ⟨rfl, -, rfl⟩ := hTurn
    simp only [DciCall.MovesOn, PktRsp.MovesOn, readPktRsp, readBufSize] at hCall
    obtain ⟨hMore, hLess⟩ := hCall
    rw [hHeader, intT_of_bounds (by omega) (by omega)]
    omega
  · by_cases hLog : readInt mem ptr = dciLogType
    · simp only [dciTurn, hLog, if_true] at hTurn
      rw [if_neg (by decide)] at hTurn
      simp only [Option.some.injEq, Prod.mk.injEq] at hTurn
      obtain ⟨rfl, -, rfl⟩ := hTurn
      rw [hHeader, intT_of_bounds (by omega) (by omega)]
      omega
    · by_cases hEvent : readInt mem ptr = dciEventType
      · simp only [dciTurn, hEvent, if_true] at hTurn
        rw [if_neg (by decide), if_neg (by decide)] at hTurn
        simp only [Option.some.injEq, Prod.mk.injEq] at hTurn
        obtain ⟨rfl, -, rfl⟩ := hTurn
        rw [hHeader, intT_of_bounds (by omega) (by omega)]
        omega
      · simp [dciTurn, hRsp, hLog, hEvent] at hTurn

/-- Whatever a block of a length that fits the buffer holds, the loop is left
within as many turns as the block has bytes, unless a response in it has a
length that holds the loop up. -/
theorem dciLoop_ends (mem : Nat → Byte) {dciDataLen readBytes : Int} {ptr turns : Nat}
    (hLen : dciDataLen ≤ readBufSize) (hLow : 0 ≤ readBytes)
    (hTurns : (dciDataLen - readBytes).toNat < turns) :
    (dciLoop mem dciDataLen turns ptr readBytes).2 = true ∨
      ∃ call ∈ (dciLoop mem dciDataLen turns ptr readBytes).1, ¬ call.MovesOn := by
  induction turns generalizing ptr readBytes with
  | zero => exact absurd hTurns (Nat.not_lt_zero _)
  | succ turns ih =>
      rw [dciLoop]
      by_cases hMore : readBytes < dciDataLen
      · rw [if_pos hMore]
        cases hTurn : dciTurn mem ptr readBytes with
        | none => exact Or.inl rfl
        | some next =>
            obtain ⟨call, ptr', readBytes'⟩ := next
            rw [afterTurn]
            by_cases hCall : call.MovesOn
            · have hOnward := dciTurn_movesOn hTurn hLow (by omega) hCall
              have hRest : (dciLoop mem dciDataLen turns ptr' readBytes').2 = true ∨
                  ∃ call ∈ (dciLoop mem dciDataLen turns ptr' readBytes').1,
                    ¬ call.MovesOn := ih (by omega) (by omega)
              rcases hRest with hEnds | ⟨held, hMem, hHeld⟩
              · exact Or.inl hEnds
              · exact Or.inr ⟨held, List.mem_cons_of_mem _ (List.mem_cons_of_mem _ hMem),
                  hHeld⟩
            · exact Or.inr ⟨call, by simp, hCall⟩
      · rw [if_neg hMore]
        exact Or.inl rfl

theorem dciLoop_ends_zeros :
    (dciLoop (fun _ => 0) 20 21 0 0).2 = true ∨
      ∃ call ∈ (dciLoop (fun _ => 0) 20 21 0 0).1, ¬ call.MovesOn :=
  dciLoop_ends (fun _ => 0) (by simp [readBufSize]) (Int.le_refl 0) (by decide)

/-- The turn a response of length -9 takes: pointer and count are the same
again. -/
theorem dciTurn_stuck {mem : Nat → Byte} {ptr : Nat} {readBytes : Int}
    (hType : readInt mem ptr = dciPktRspType) (hLen : readInt mem (ptr + 4) = -9)
    (hPtr : ptr + 4 < 2 ^ 64) (hLow : 0 ≤ readBytes) (hHigh : readBytes < readBufSize) :
    dciTurn mem ptr readBytes =
      some (.pktRsp (readPktRsp mem (ptr + 4)), ptr, readBytes) := by
  simp only [readBufSize] at hHigh
  have hBody : advance ptr 4 = ptr + 4 := advance_of_lt (k := 4) hPtr
  have hBack : advance (ptr + 4) (4 + 1 + -9) = ptr := by
    unfold advance
    omega
  have hHeader : intT (readBytes + 4) = readBytes + 4 :=
    intT_of_bounds (by omega) (by omega)
  have hSame : intT (readBytes + 4 + (4 + 1 + -9)) = readBytes := by
    rw [intT_of_bounds (by omega) (by omega)]
    omega
  simp only [dciTurn, hType, hBody, hLen, hBack, hHeader, hSame, if_true]

/-- A response of length -9 is never left behind: a turn raises the signal, if that
is enabled, looks the response up and leaves pointer and count as they were, and so
does each of however many turns the loop takes. -/
theorem dciLoop_stuck {mem : Nat → Byte} {ptr : Nat} {readBytes dciDataLen : Int}
    (hType : readInt mem ptr = dciPktRspType) (hLen : readInt mem (ptr + 4) = -9)
    (hPtr : ptr + 4 < 2 ^ 64) (hLow : 0 ≤ readBytes) (hMore : readBytes < dciDataLen)
    (hFits : dciDataLen ≤ readBufSize) :
    dciTurn mem ptr readBytes =
        some (.pktRsp (readPktRsp mem (ptr + 4)), ptr, readBytes) ∧
      ∀ turns, dciLoop mem dciDataLen turns ptr readBytes =
        ((List.replicate turns
          [DciCall.signal, .pktRsp (readPktRsp mem (ptr + 4))]).flatten, false) := by
  have hTurn := dciTurn_stuck hType hLen hPtr hLow (by omega : readBytes < readBufSize)
  refine ⟨hTurn, fun turns => ?_⟩
  induction turns with
  | zero => rfl
  | succ turns ih =>
      rw [dciLoop, if_pos hMore, hTurn, afterTurn, ih, List.replicate_succ,
        List.flatten_cons]
      rfl

/-- A response of length -9. -/
def heldUp : List Byte := [0, 0, 0, 0, 0xF7, 0xFF, 0xFF, 0xFF]

theorem dciLoop_stuck_heldUp :
    dciLoop (fun addr => heldUp.getD addr 0) 20 1000 0 0 =
      ((List.replicate 1000 [DciCall.signal,
        .pktRsp (readPktRsp (fun addr => heldUp.getD addr 0) (0 + 4))]).flatten, false) :=
  (dciLoop_stuck (by decide) (by decide) (by simp) (Int.le_refl 0) (by decide)
    (by simp [readBufSize])).2 1000

end Dci
end MgComm
