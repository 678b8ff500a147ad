import MgComm.Dci.ReadThread
import MgComm.Library.BitMask

/-!
# The masks of the diag services

Besides data the driver sends masks: which log codes, events and messages of the
process a tool wants to see.  `process_diag_payload` copies them into tables, and
the services look a code, an event or a subsystem up before they report anything.

A `MaskMessage` is what the driver sends, and `Filters` is what the masks sent so
far enable.  `Masks.Shows` says that the tables hold these filters; every mask
message keeps that (`Masks.Shows.receive`), and each lookup then answers from the
filters (`logStatusMask_eq`, `eventMaskBits_eq`, `msgGetSsidRtMask_eq`).

The arrays have fixed sizes, and a read beyond the end of one has no meaning:
lookups return an option.  For codes and events none is beyond the end.  The
search for a subsystem looks for a row that ends the table and finds none if all
rows are used: then it runs off the end (`lookupRows`).

The words of the tables and of the messages are `uint32`, with the 32 bits of
`MgComm.Bytes`.
-/

namespace MgComm
namespace Dci

open WireWords BitMask

/-! ## The tables -/

/-- `MAX_EQUIP_ID` -/
def maxEquipId : Nat := 16

/-- `LOG_MASK_ITEM_SIZE`: equipment id, number of items and the mask. -/
def logMaskItemSize : Nat := 1 + 4 + 512

/-- `LOG_MASK_SIZE` -/
def logMaskSize : Nat := maxEquipId * logMaskItemSize

/-- `DCI_LOG_MASK_SIZE` -/
def dciLogMaskSize : Nat := 16 * 514

/-- `EVENT_LAST_ID` -/
def eventLastId : Nat := 0xA22

/-- `EVENT_MASK_SIZE` -/
def eventMaskSize : Nat := eventLastId / 8 + 1

/-- `DCI_EVENT_MASK_SIZE` -/
def dciEventMaskSize : Nat := 512

/-- `MAX_SSID_PER_RANGE` -/
def maxSsidPerRange : Nat := 200

/-- `MSG_MASK_TBL_CNT` -/
def msgMaskTblCnt : Nat := 24

/-- The bytes of a row of `read_mask`. -/
def rowSize : Nat := (maxSsidPerRange + 3) * 4

/-- `MSG_MASK_SIZE` -/
def msgMaskSize : Nat := rowSize * msgMaskTblCnt

/-- A byte array of the library. -/
structure ByteTable (size : Nat) where
  bytes : Nat → Byte

namespace ByteTable

variable {size : Nat}

/-- A byte of the array, none beyond its end. -/
def read (t : ByteTable size) (i : Nat) : Option Byte :=
  if i < size then some (t.bytes i) else none

/-- `*(uint32_t *)` within the array. -/
def readWord (t : ByteTable size) (i : Nat) : Option Nat :=
  if i + 4 ≤ size then some (WireWords.readWord t.bytes i 4) else none

/-- `memcpy` over the whole array. -/
def copy (mem : Nat → Byte) (ptr : Nat) : ByteTable size := ⟨fun k => mem (ptr + k)⟩

theorem read_of_lt (t : ByteTable size) {i : Nat} (h : i < size) :
    t.read i = some (t.bytes i) := if_pos h

theorem readWord_of_le (t : ByteTable size) {i : Nat} (h : i + 4 ≤ size) :
    t.readWord i = some (WireWords.readWord t.bytes i 4) := if_pos h

theorem le_of_readWord {t : ByteTable size} {i w : Nat} (h : t.readWord i = some w) :
    i + 4 ≤ size := by
  by_contra hOutside
  rw [readWord, if_neg hOutside] at h
  exact absurd h (by simp)

end ByteTable

/-- The masks of the services and what is kept beside them. -/
structure Masks where
  readMask : ByteTable msgMaskSize
  logMask : ByteTable logMaskSize
  eventMask : ByteTable eventMaskSize
  dciCumulativeLogMask : ByteTable dciLogMaskSize
  numDciClientsLog : Int
  dciCumulativeEventMask : ByteTable dciEventMaskSize
  numDciClientsEvent : Int
  diagSyncMask : Nat

/-- The masks when the process starts. -/
def Masks.init : Masks where
  readMask := ⟨fun _ => 0⟩
  logMask := ⟨fun _ => 0⟩
  eventMask := ⟨fun _ => 0⟩
  dciCumulativeLogMask := ⟨fun _ => 0⟩
  numDciClientsLog := 0
  dciCumulativeEventMask := ⟨fun _ => 0⟩
  numDciClientsEvent := 0
  diagSyncMask := 0

/-! ## Updates -/

/-- `MSG_MASKS_TYPE` -/
def msgMasksType : Int := 1

/-- `LOG_MASKS_TYPE` -/
def logMasksType : Int := 2

/-- `EVENT_MASKS_TYPE` -/
def eventMasksType : Int := 4

/-- `DCI_LOG_MASKS_TYPE` -/
def dciLogMasksType : Int := 0x100

/-- `DCI_EVENT_MASKS_TYPE` -/
def dciEventMasksType : Int := 0x200

/-- `msg_update_mask`: what the message does not reach keeps its old bytes. -/
def msgUpdateMask (m : Masks) (mem : Nat → Byte) (ptr : Nat) (numBytesRead : Int) :
    Masks :=
  let bytesToRead : Int :=
    if (msgMaskSize : Int) < numBytesRead then msgMaskSize else numBytesRead
  { m with
    readMask := ⟨fun k => if (k : Int) < bytesToRead then mem (ptr + k) else m.readMask.bytes k⟩ }

/-- `log_update_mask` -/
def logUpdateMask (m : Masks) (mem : Nat → Byte) (ptr : Nat) : Masks :=
  { m with logMask := .copy mem ptr }

/-- `event_update_mask` -/
def eventUpdateMask (m : Masks) (mem : Nat → Byte) (ptr : Nat) : Masks :=
  { m with eventMask := .copy mem ptr }

/-- `log_update_dci_mask` -/
def logUpdateDciMask (m : Masks) (mem : Nat → Byte) (ptr : Nat) : Masks :=
  { m with
    numDciClientsLog := readInt mem ptr
    dciCumulativeLogMask := .copy mem (ptr + 4) }

/-- `event_update_dci_mask` -/
def eventUpdateDciMask (m : Masks) (mem : Nat → Byte) (ptr : Nat) : Masks :=
  { m with
    numDciClientsEvent := readInt mem ptr
    dciCumulativeEventMask := .copy mem (ptr + 4) }

/-- `update_sync_mask` -/
def updateSyncMask (m : Masks) (mask : Int) : Masks :=
  { m with diagSyncMask := m.diagSyncMask ||| mask.toNat }

/-- The branches of `process_diag_payload` for masks. -/
def processMasks (m : Masks) (mem : Nat → Byte) (readBuffer : Nat) (numBytesRead : Int) :
    Masks :=
  let type := readInt mem readBuffer
  let ptr := readBuffer + 4
  if type = msgMasksType then
    updateSyncMask (msgUpdateMask m mem ptr (numBytesRead - 4)) msgMasksType
  else if type = logMasksType then
    updateSyncMask (logUpdateMask m mem ptr) logMasksType
  else if type = eventMasksType then
    updateSyncMask (eventUpdateMask m mem ptr) eventMasksType
  else if type = dciLogMasksType then logUpdateDciMask m mem ptr
  else if type = dciEventMasksType then eventUpdateDciMask m mem ptr
  else m

/-- A turn of the read thread, with the masks. -/
def maskTurn (n turns : Nat) (thread : ReadThread) (m : Masks) (result : ReadResult) :
    ReadThread × Masks :=
  let next := (readTurn n turns thread result).1
  match result with
  | .failed => (next, m)
  | .bytes bs =>
      if thread.state = .reading ∧ bs ≠ [] ∧ next.state ≠ .exited then
        (next, processMasks m next.mem next.readBuffer bs.length)
      else (next, m)

/-! ## Lookups -/

/-- `log_mask_enabled` -/
def logMaskEnabled (maskPtr : ByteTable logMaskSize) (id item : Nat) : Option Bool :=
  if maxEquipId ≤ id then some false
  else
    let byteIndex := item / 8 + 1 + 4
    let byteMask := bit (item % 8)
    let offset := id * logMaskItemSize + byteIndex
    if logMaskSize < offset then some false
    else (maskPtr.read offset).map fun b => b &&& byteMask == byteMask

/-- `log_dci_mask_enabled` -/
def logDciMaskEnabled (maskPtr : ByteTable dciLogMaskSize) (id item : Nat) : Option Bool :=
  let byteIndex := item / 8 + 2
  let byteMask := bit (item % 8)
  let offset := id * 514
  (maskPtr.read (offset + byteIndex)).map fun b => b &&& byteMask == byteMask

/-- `DIAG_DATA_TYPE_LOG` -/
def diagDataTypeLog : Nat := 2

/-- `DIAG_DATA_TYPE_DCI_LOG` -/
def diagDataTypeDciLog : Nat := 0x100

/-- `log_search_mask` -/
def logSearchMask (m : Masks) (logType id item : Nat) : Option Bool :=
  if logType = diagDataTypeLog then logMaskEnabled m.logMask id item
  else if 0 < m.numDciClientsLog ∧ logType = diagDataTypeDciLog then
    logDciMaskEnabled m.dciCumulativeLogMask id item
  else some false

/-- `log_status_mask` -/
def logStatusMask (m : Masks) (code : UInt16) : Option Nat := do
  let id := code.toNat >>> 12 &&& 0x000F
  let item := code.toNat &&& 0x0FFF
  let log ← logSearchMask m diagDataTypeLog id item
  let dci ← logSearchMask m diagDataTypeDciLog id item
  some ((if log then diagDataTypeLog else 0) ||| (if dci then diagDataTypeDciLog else 0))

/-- The test of the masks in `event_alloc`: `mask_set` and `dci_mask_set`. -/
def eventMaskBits (m : Masks) (id : Nat) : Option (Bool × Bool) :=
  if id ≤ eventLastId then do
    let b ← m.eventMask.read (id / 8)
    let maskSet := b &&& bit (id &&& 0x07) != 0
    if 0 < m.numDciClientsEvent then
      let b ← m.dciCumulativeEventMask.read (id / 8)
      some (maskSet, b &&& bit (id &&& 0x07) != 0)
    else some (maskSet, false)
  else some (false, false)

/-- The loop of `msg_get_ssid_rt_mask`: first subsystem and masks of the row it
finds, or that there is none. -/
def ssidLoop (readMask : ByteTable msgMaskSize) (ssid : Int) (ptr : Nat) :
    Option (Option (Int × Nat)) :=
  match _hUsed : readMask.readWord (ptr + 4) with
  | none => none
  | some used =>
      if used = 0 then some none
      else
        match readMask.readWord ptr, readMask.readWord (ptr + 8) with
        | some first, some last =>
            if intT first ≤ ssid ∧ ssid ≤ intT last then some (some (intT first, ptr + 12))
            else ssidLoop readMask ssid (ptr + 12 + maxSsidPerRange * 4)
        | _, _ => none
termination_by msgMaskSize - ptr
decreasing_by
  have hInside := ByteTable.le_of_readWord _hUsed
  omega

/-- The mask of the subsystem in the row that was found. -/
def rowMask (readMask : ByteTable msgMaskSize) (ssid : Int) :
    Option (Int × Nat) → Option (Option Nat)
  | none => some none
  | some (first, ptr) => (readMask.readWord (ptr + ((ssid - first) * 4).toNat)).map some

/-- `msg_get_ssid_rt_mask`: the mask of a subsystem, or `FALSE`. -/
def msgGetSsidRtMask (m : Masks) (ssid : Int) : Option (Option Nat) :=
  (ssidLoop m.readMask ssid 0).bind (rowMask m.readMask ssid)

/-! ## What the driver sends -/

/-- A row of `read_mask`: first and last subsystem, the last one in use, and the
masks. -/
structure SsidRow where
  first : UInt32
  last : UInt32
  actualLast : UInt32
  masks : Nat → UInt32

/-- The words of a row. -/
def SsidRow.words (r : SsidRow) : List UInt32 :=
  r.first :: r.last :: r.actualLast :: (List.range maxSsidPerRange).map r.masks

/-- The subsystem belongs to the row. -/
def SsidRow.Covers (r : SsidRow) (ssid : Int) : Prop :=
  intT r.first.toNat ≤ ssid ∧ ssid ≤ intT r.actualLast.toNat

instance (r : SsidRow) (ssid : Int) : Decidable (r.Covers ssid) :=
  inferInstanceAs (Decidable (_ ∧ _))

/-- The bytes of words. -/
def wordsBytes (words : List UInt32) : List Byte :=
  words.flatMap fun w => wordBytes 4 w.toNat

/-- The bytes of rows. -/
def rowsBytes (rows : List SsidRow) : List Byte :=
  wordsBytes (rows.flatMap SsidRow.words)

/-- A message of the driver about masks. -/
inductive MaskMessage where
  | msg (rows : List SsidRow)
  | log (items : Nat → Nat) (enabled : Nat → Bool)
  | event (enabled : Nat → Bool)
  | dciLog (clients : Int) (dirty : Nat → Byte) (enabled : Nat → Bool)
  | dciEvent (clients : Int) (enabled : Nat → Bool)

/-- The codes of an equipment, by their items. -/
def ofEquip (enabled : Nat → Bool) (id : Nat) : Nat → Bool :=
  fun item => enabled (4096 * id + item)

/-- The part of the log mask for an equipment. -/
def equipBytes (items : Nat → Nat) (enabled : Nat → Bool) (id : Nat) : List Byte :=
  UInt8.ofNat id :: (wordBytes 4 (items id) ++ bytesOf (ofEquip enabled id) 512)

/-- The part of the cumulative DCI log mask for an equipment. -/
def dciEquipBytes (dirty : Nat → Byte) (enabled : Nat → Bool) (id : Nat) : List Byte :=
  UInt8.ofNat id :: dirty id :: bytesOf (ofEquip enabled id) 512

/-- The bytes of a message. -/
def MaskMessage.encode : MaskMessage → List Byte
  | .msg rows => intBytes msgMasksType ++ rowsBytes rows
  | .log items enabled =>
      intBytes logMasksType ++ (List.range maxEquipId).flatMap (equipBytes items enabled)
  | .event enabled => intBytes eventMasksType ++ bytesOf enabled eventMaskSize
  | .dciLog clients dirty enabled =>
      intBytes dciLogMasksType ++
        (intBytes clients ++ (List.range 16).flatMap (dciEquipBytes dirty enabled))
  | .dciEvent clients enabled =>
      intBytes dciEventMasksType ++ (intBytes clients ++ bytesOf enabled dciEventMaskSize)

/-- The number of clients is an `int`. -/
def MaskMessage.WellFormed : MaskMessage → Prop
  | .dciLog clients _ _ => -2 ^ 31 ≤ clients ∧ clients < 2 ^ 31
  | .dciEvent clients _ => -2 ^ 31 ≤ clients ∧ clients < 2 ^ 31
  | _ => True

/-- What the masks enable. -/
structure Filters where
  rows : Fin msgMaskTblCnt → SsidRow
  logs : Nat → Bool
  events : Nat → Bool
  dciLogClients : Int
  dciLogs : Nat → Bool
  dciEventClients : Int
  dciEvents : Nat → Bool

/-- Nothing is enabled. -/
def Filters.init : Filters where
  rows := fun _ => ⟨0, 0, 0, fun _ => 0⟩
  logs := fun _ => false
  events := fun _ => false
  dciLogClients := 0
  dciLogs := fun _ => false
  dciEventClients := 0
  dciEvents := fun _ => false

/-- A mask replaces the one of its kind; rows replace as many from the first on. -/
def Filters.receive (f : Filters) : MaskMessage → Filters
  | .msg rows => { f with rows := fun i => rows.getD i (f.rows i) }
  | .log _ enabled => { f with logs := enabled }
  | .event enabled => { f with events := enabled }
  | .dciLog clients _ enabled => { f with dciLogClients := clients, dciLogs := enabled }
  | .dciEvent clients enabled => { f with dciEventClients := clients, dciEvents := enabled }

/-- The data types a log is reported under, 0 for none. -/
def Filters.logStatus (f : Filters) (code : UInt16) : Nat :=
  (if f.logs code.toNat then diagDataTypeLog else 0) |||
    (if 0 < f.dciLogClients ∧ f.dciLogs code.toNat then diagDataTypeDciLog else 0)

/-- Whether an event is reported to the tool and to DCI clients. -/
def Filters.eventStatus (f : Filters) (id : Nat) : Bool × Bool :=
  (decide (id ≤ eventLastId) && f.events id,
    decide (id ≤ eventLastId) && decide (0 < f.dciEventClients) && f.dciEvents id)

/-- The search through rows: it ends with a row that is not used, and is lost
beyond the last one. -/
def lookupRows (ssid : Int) : List SsidRow → Option (Option Nat)
  | [] => none
  | r :: rows =>
      if r.last = 0 then some none
      else if r.Covers ssid then
        (((r :: rows).flatMap SsidRow.words)[3 + (ssid - intT r.first.toNat).toNat]?).map
          fun w => some w.toNat
      else lookupRows ssid rows

/-- The mask of a subsystem. -/
def Filters.ssidMask (f : Filters) (ssid : Int) : Option (Option Nat) :=
  lookupRows ssid (List.ofFn f.rows)

/-! ## The tables show the filters -/

/-- The tables hold what is enabled. -/
structure Masks.Shows (m : Masks) (f : Filters) : Prop where
  rows : Holds m.readMask.bytes 0 (rowsBytes (List.ofFn f.rows))
  logs : ∀ id < maxEquipId, ∀ j < 512,
    m.logMask.bytes (id * logMaskItemSize + (j + 1 + 4)) = byteOf (ofEquip f.logs id) j
  events : ∀ j < eventMaskSize, m.eventMask.bytes j = byteOf f.events j
  dciLogClients : m.numDciClientsLog = f.dciLogClients
  dciLogs : ∀ id < 16, ∀ j < 512,
    m.dciCumulativeLogMask.bytes (id * 514 + (j + 2)) = byteOf (ofEquip f.dciLogs id) j
  dciEventClients : m.numDciClientsEvent = f.dciEventClients
  dciEvents : ∀ j < dciEventMaskSize,
    m.dciCumulativeEventMask.bytes j = byteOf f.dciEvents j

section Sizes

@[simp] theorem length_words (r : SsidRow) : r.words.length = maxSsidPerRange + 3 := by
  simp [SsidRow.words]

@[simp] theorem length_wordsBytes (words : List UInt32) :
    (wordsBytes words).length = 4 * words.length := by
  simp [wordsBytes, List.length_flatMap, Nat.mul_comm]

@[simp] theorem length_rowsBytes (rows : List SsidRow) :
    (rowsBytes rows).length = rowSize * rows.length := by
  simp [rowsBytes, List.length_flatMap, rowSize, Nat.mul_comm, Nat.mul_assoc]

@[simp] theorem length_equipBytes (items : Nat → Nat) (enabled : Nat → Bool) (id : Nat) :
    (equipBytes items enabled id).length = logMaskItemSize := by
  simp [equipBytes, logMaskItemSize]

@[simp] theorem length_dciEquipBytes (dirty : Nat → Byte) (enabled : Nat → Bool) (id : Nat) :
    (dciEquipBytes dirty enabled id).length = 514 := by
  simp [dciEquipBytes]

theorem rowsBytes_append (xs ys : List SsidRow) :
    rowsBytes (xs ++ ys) = rowsBytes xs ++ rowsBytes ys := by
  simp [rowsBytes, wordsBytes]

end Sizes

theorem byteOf_none (j : Nat) : byteOf (fun _ => false) j = 0 := rfl

/-- The tables of a process that starts show that nothing is enabled. -/
theorem shows_init : Masks.init.Shows Filters.init := by
  have hZero : ∀ c ∈ rowsBytes (List.ofFn Filters.init.rows), c = 0 := by
    intro c hMem
    obtain ⟨w, hWord, hByte⟩ := List.mem_flatMap.mp hMem
    obtain ⟨r, hRow, hIn⟩ := List.mem_flatMap.mp hWord
    obtain ⟨i, rfl⟩ := List.mem_ofFn.mp hRow
    simp only [Filters.init, SsidRow.words, List.mem_cons, List.mem_map] at hIn
    have hw : w = 0 := by
      obtain rfl | rfl | rfl | ⟨_, _, rfl⟩ := hIn <;> rfl
    subst hw
    simpa [wordBytes] using hByte
  exact {
    rows := holds_const hZero
    logs := fun id _ j _ => (byteOf_none j).symm
    events := fun j _ => (byteOf_none j).symm
    dciLogClients := rfl
    dciLogs := fun id _ j _ => (byteOf_none j).symm
    dciEventClients := rfl
    dciEvents := fun j _ => (byteOf_none j).symm }

/-! ## Messages arrive -/

section Receive

variable {m : Masks} {f : Filters} {mem : Nat → Byte} {readBuffer : Nat}

/-- A mask of one table, as it lies in a message. -/
theorem bytes_of_mask {members : Nat → Bool} {size addr j : Nat}
    (h : Holds mem addr (bytesOf members size)) (hj : j < size) :
    mem (addr + j) = byteOf members j := by
  have hByte := h.getElem (by simpa using hj)
  rwa [getElem_bytesOf] at hByte

theorem bytes_of_equip {items : Nat → Nat} {enabled : Nat → Bool} {addr id j : Nat}
    (h : Holds mem addr ((List.range maxEquipId).flatMap (equipBytes items enabled)))
    (hId : id < maxEquipId) (hj : j < 512) :
    mem (addr + (id * logMaskItemSize + (j + 1 + 4))) = byteOf (ofEquip enabled id) j := by
  have hEquip := h.record (length_equipBytes items enabled) (k := id) (by simpa using hId)
  rw [List.getElem_range, equipBytes, holds_cons, holds_append, length_wordBytes] at hEquip
  obtain ⟨_, _, hMask⟩ := hEquip
  have hAddr : addr + (id * logMaskItemSize + (j + 1 + 4)) =
      addr + logMaskItemSize * id + 1 + 4 + j := by
    rw [Nat.mul_comm id]
    omega
  rw [hAddr]
  exact bytes_of_mask hMask hj

theorem bytes_of_dciEquip {dirty : Nat → Byte} {enabled : Nat → Bool} {addr id j : Nat}
    (h : Holds mem addr ((List.range 16).flatMap (dciEquipBytes dirty enabled)))
    (hId : id < 16) (hj : j < 512) :
    mem (addr + (id * 514 + (j + 2))) = byteOf (ofEquip enabled id) j := by
  have hEquip := h.record (length_dciEquipBytes dirty enabled) (k := id) (by simpa using hId)
  rw [List.getElem_range, dciEquipBytes, holds_cons, holds_cons] at hEquip
  obtain ⟨_, _, hMask⟩ := hEquip
  have hAddr : addr + (id * 514 + (j + 2)) = addr + 514 * id + 1 + 1 + j := by omega
  rw [hAddr]
  exact bytes_of_mask hMask hj

/-- The first rows are new, the others stay. -/
theorem ofFn_getD (old : Fin msgMaskTblCnt → SsidRow) (rows : List SsidRow) :
    List.ofFn (fun i => rows.getD i (old i)) =
      rows.take msgMaskTblCnt ++ (List.ofFn old).drop rows.length := by
  refine List.ext_getElem ?_ fun k hk _ => ?_
  · simp
    omega
  · rw [List.length_ofFn] at hk
    rw [List.getElem_ofFn]
    by_cases hNew : k < rows.length
    · rw [List.getElem_append_left (by simp; omega), List.getElem_take]
      simp [hNew]
    · rw [List.getElem_append_right (by simp; omega), List.getElem_drop, List.getElem_ofFn]
      simp [hNew]
      congr 2
      omega

/-- Rows in a message come into the table, as many as it has room for. -/
theorem holds_msgUpdateMask
    (hOld : Holds m.readMask.bytes 0 (rowsBytes (List.ofFn f.rows))) {ptr : Nat}
    {rows : List SsidRow} (hNew : Holds mem ptr (rowsBytes rows)) :
    Holds (msgUpdateMask m mem ptr (rowsBytes rows).length).readMask.bytes 0
      (rowsBytes (List.ofFn fun i => rows.getD i (f.rows i))) := by
  have hSize : msgMaskSize = rowSize * msgMaskTblCnt := rfl
  rw [ofFn_getD, rowsBytes_append, holds_append]
  constructor
  · rw [← List.take_append_drop msgMaskTblCnt rows, rowsBytes_append, holds_append] at hNew
    refine hNew.1.congr fun k hk => ?_
    rw [length_rowsBytes, List.length_take] at hk
    have hRead : k < rowSize * rows.length :=
      Nat.lt_of_lt_of_le hk (Nat.mul_le_mul_left _ (Nat.min_le_right _ _))
    have hRoom : k < rowSize * msgMaskTblCnt :=
      Nat.lt_of_lt_of_le hk (Nat.mul_le_mul_left _ (Nat.min_le_left _ _))
    simp only [msgUpdateMask, length_rowsBytes, hSize, Nat.zero_add]
    rw [if_pos]
    split
    · exact_mod_cast hRoom
    · exact_mod_cast hRead
  · by_cases hFull : msgMaskTblCnt ≤ rows.length
    · rw [List.drop_eq_nil_of_le (by simpa using hFull)]
      trivial
    · have hShort : rows.length ≤ msgMaskTblCnt := Nat.le_of_not_le hFull
      rw [← List.take_append_drop rows.length (List.ofFn f.rows), rowsBytes_append,
        holds_append] at hOld
      have hTake : ((List.ofFn f.rows).take rows.length).length =
          (rows.take msgMaskTblCnt).length := by
        simp
        omega
      rw [length_rowsBytes, hTake, ← length_rowsBytes] at hOld
      refine hOld.2.congr fun k _ => ?_
      have hAll : (rows.take msgMaskTblCnt).length = rows.length := by
        simpa using hShort
      simp only [msgUpdateMask, length_rowsBytes, hAll, hSize]
      rw [if_neg]
      have hFits : rowSize * rows.length ≤ rowSize * msgMaskTblCnt :=
        Nat.mul_le_mul_left _ hShort
      split
      · omega
      · omega

theorem readInt_type {type : Int} {bs : List Byte}
    (h : Holds mem readBuffer (intBytes type ++ bs)) (hLow : -2 ^ 31 ≤ type)
    (hHigh : type < 2 ^ 31) :
    readInt mem readBuffer = type ∧ Holds mem (readBuffer + 4) bs := by
  rw [holds_append, length_intBytes] at h
  exact ⟨readInt_intBytes h.1 hLow hHigh, h.2⟩

/-- Step lemma: after a mask message the tables show what it has changed. -/
theorem Masks.Shows.receive (h : m.Shows f) {msg : MaskMessage} (hWell : msg.WellFormed)
    (hHolds : Holds mem readBuffer msg.encode) :
    (processMasks m mem readBuffer msg.encode.length).Shows (f.receive msg) := by
  cases msg with
  | msg rows =>
      obtain ⟨hType, hRows⟩ := readInt_type hHolds (by decide) (by decide)
      have hTable := holds_msgUpdateMask h.rows hRows
      have hLength : (((MaskMessage.msg rows).encode.length : Nat) : Int) - 4 =
          (rowsBytes rows).length := by
        simp [MaskMessage.encode]
      rw [processMasks, hLength]
      simp only [hType, if_true]
      exact { h with rows := hTable }
  | log items enabled =>
      obtain ⟨hType, hEquips⟩ := readInt_type hHolds (by decide) (by decide)
      have hNot : ¬ logMasksType = msgMasksType := by decide
      simp only [processMasks, hType, hNot, if_false, if_true]
      exact { h with logs := fun id hId j hj => bytes_of_equip hEquips hId hj }
  | event enabled =>
      obtain ⟨hType, hMask⟩ := readInt_type hHolds (by decide) (by decide)
      have hNotMsg : ¬ eventMasksType = msgMasksType := by decide
      have hNotLog : ¬ eventMasksType = logMasksType := by decide
      simp only [processMasks, hType, hNotMsg, hNotLog, if_false, if_true]
      exact { h with events := fun j hj => bytes_of_mask hMask hj }
  | dciLog clients dirty enabled =>
      obtain ⟨hType, hRest⟩ := readInt_type hHolds (by decide) (by decide)
      obtain ⟨hClients, hEquips⟩ := readInt_type hRest hWell.1 hWell.2
      have hNotMsg : ¬ dciLogMasksType = msgMasksType := by decide
      have hNotLog : ¬ dciLogMasksType = logMasksType := by decide
      have hNotEvent : ¬ dciLogMasksType = eventMasksType := by decide
      simp only [processMasks, hType, hNotMsg, hNotLog, hNotEvent, if_false, if_true]
      have hCount : (logUpdateDciMask m mem (readBuffer + 4)).numDciClientsLog = clients := by
        simp only [logUpdateDciMask, hClients]
      exact { h with
        dciLogClients := hCount
        dciLogs := fun id hId j hj => bytes_of_dciEquip hEquips hId hj }
  | dciEvent clients enabled =>
      obtain ⟨hType, hRest⟩ := readInt_type hHolds (by decide) (by decide)
      obtain ⟨hClients, hMask⟩ := readInt_type hRest hWell.1 hWell.2
      have hNotMsg : ¬ dciEventMasksType = msgMasksType := by decide
      have hNotLog : ¬ dciEventMasksType = logMasksType := by decide
      have hNotEvent : ¬ dciEventMasksType = eventMasksType := by decide
      have hNotDci : ¬ dciEventMasksType = dciLogMasksType := by decide
      simp only [processMasks, hType, hNotMsg, hNotLog, hNotEvent, hNotDci, if_false, if_true]
      have hCount :
          (eventUpdateDciMask m mem (readBuffer + 4)).numDciClientsEvent = clients := by
        simp only [eventUpdateDciMask, hClients]
      exact { h with
        dciEventClients := hCount
        dciEvents := fun j hj => bytes_of_mask hMask hj }

end Receive

/-! ## Lookups answer from the filters -/

section Lookups

variable {m : Masks} {f : Filters}

/-- A bit that is looked up in a byte of a mask. -/
theorem map_read_mask {size : Nat} {t : ByteTable size} {members : Nat → Bool} {i item : Nat}
    (hInside : i < size) (hByte : t.bytes i = byteOf members (item / 8)) :
    ((t.read i).map fun b => b &&& bit (item % 8) == bit (item % 8)) =
      some (members item) := by
  rw [t.read_of_lt hInside, Option.map_some, hByte, and_bit_beq _ (Nat.mod_lt item (by decide)),
    testBit_byteOf]

theorem logMaskEnabled_eq (h : m.Shows f) {id item : Nat} (hId : id < maxEquipId)
    (hItem : item < 4096) :
    logMaskEnabled m.logMask id item = some (f.logs (4096 * id + item)) := by
  have hIndex : item / 8 < 512 := by omega
  have hInside : id * logMaskItemSize + (item / 8 + 1 + 4) < logMaskSize := by
    simp only [logMaskSize, logMaskItemSize, maxEquipId] at hId ⊢
    omega
  rw [logMaskEnabled, if_neg (Nat.not_le_of_lt hId)]
  simp only [if_neg (Nat.not_lt_of_lt hInside)]
  exact map_read_mask hInside (h.logs id hId _ hIndex)

theorem logDciMaskEnabled_eq (h : m.Shows f) {id item : Nat} (hId : id < 16)
    (hItem : item < 4096) :
    logDciMaskEnabled m.dciCumulativeLogMask id item =
      some (f.dciLogs (4096 * id + item)) := by
  have hIndex : item / 8 < 512 := by omega
  have hInside : id * 514 + (item / 8 + 2) < dciLogMaskSize := by
    simp only [dciLogMaskSize]
    omega
  exact map_read_mask hInside (h.dciLogs id hId _ hIndex)

/-- Equipment and item of a code. -/
theorem equip_item (code : UInt16) :
    code.toNat >>> 12 &&& 0x000F = code.toNat / 4096 ∧
      code.toNat &&& 0x0FFF = code.toNat % 4096 ∧ code.toNat / 4096 < 16 := by
  have hCode := code.toNat_lt
  have hId : code.toNat >>> 12 &&& 0x000F = code.toNat >>> 12 % 16 :=
    Nat.and_two_pow_sub_one_eq_mod _ 4
  have hItem : code.toNat &&& 0x0FFF = code.toNat % 4096 :=
    Nat.and_two_pow_sub_one_eq_mod _ 12
  have hShift : code.toNat >>> 12 = code.toNat / 4096 := Nat.shiftRight_eq_div_pow _ 12
  rw [hId, hItem, hShift]
  omega

/-- A log is looked up under the code it has, for every code. -/
theorem logStatusMask_eq (h : m.Shows f) (code : UInt16) :
    logStatusMask m code = some (f.logStatus code) := by
  obtain ⟨hId, hItem, hSmall⟩ := equip_item code
  have hBelow : code.toNat % 4096 < 4096 := Nat.mod_lt _ (by decide)
  have hCode : 4096 * (code.toNat / 4096) + code.toNat % 4096 = code.toNat :=
    Nat.div_add_mod _ _
  have hLog := logMaskEnabled_eq h hSmall hBelow
  have hDci := logDciMaskEnabled_eq h hSmall hBelow
  rw [hCode] at hLog hDci
  have hOther : ¬ diagDataTypeDciLog = diagDataTypeLog := by decide
  simp only [logStatusMask, hId, hItem, logSearchMask, if_true, hLog, hOther, if_false,
    h.dciLogClients, and_true, Option.bind_eq_bind, Option.bind_some]
  by_cases hClients : 0 < f.dciLogClients
  · simp only [hClients, if_true, hDci, Option.bind_some, Filters.logStatus, true_and]
  · simp only [hClients, if_false, Option.bind_some, Filters.logStatus, false_and]
    simp

/-- An event is looked up under its id; there are none above the last one. -/
theorem eventMaskBits_eq (h : m.Shows f) (id : Nat) :
    eventMaskBits m id = some (f.eventStatus id) := by
  have hBit : id &&& 0x07 = id % 8 := Nat.and_two_pow_sub_one_eq_mod id 3
  have hSmall : id % 8 < 8 := Nat.mod_lt id (by decide)
  by_cases hId : id ≤ eventLastId
  · have hIndex : id / 8 < eventMaskSize := by
      simp only [eventMaskSize]
      omega
    have hDciIndex : id / 8 < dciEventMaskSize := by
      simp only [eventLastId, dciEventMaskSize] at hId ⊢
      omega
    simp only [eventMaskBits, if_pos hId, hBit, ByteTable.read_of_lt _ hIndex,
      ByteTable.read_of_lt _ hDciIndex, h.events _ hIndex, h.dciEvents _ hDciIndex,
      and_bit_ne _ hSmall, testBit_byteOf, h.dciEventClients, Option.bind_eq_bind,
      Option.bind_some]
    by_cases hClients : 0 < f.dciEventClients
    · simp [Filters.eventStatus, hId, hClients]
    · simp [Filters.eventStatus, hId, hClients]
  · simp [eventMaskBits, Filters.eventStatus, hId]

/-- The words of a table, with nothing beyond its end. -/
theorem readWord_words {size ptr : Nat} {t : ByteTable size} {words : List UInt32}
    (h : Holds t.bytes ptr (wordsBytes words)) (hEnd : ptr + 4 * words.length = size)
    (k : Nat) : t.readWord (ptr + 4 * k) = words[k]?.map UInt32.toNat := by
  by_cases hk : k < words.length
  · have hWord := h.record (fun w : UInt32 => length_wordBytes 4 w.toNat) hk
    have hSmall : words[k].toNat < 256 ^ 4 := words[k].toNat_lt
    rw [t.readWord_of_le (by omega), hWord.readWord_eq, Nat.mod_eq_of_lt hSmall,
      List.getElem?_eq_getElem hk, Option.map_some]
  · rw [ByteTable.readWord, if_neg (by omega), List.getElem?_eq_none (Nat.le_of_not_lt hk)]
    rfl

/-- A turn of the search. -/
theorem ssidLoop_turn {t : ByteTable msgMaskSize} {ssid : Int} {ptr used : Nat}
    (hUsed : t.readWord (ptr + 4) = some used) :
    ssidLoop t ssid ptr =
      if used = 0 then some none
      else
        match t.readWord ptr, t.readWord (ptr + 8) with
        | some first, some last =>
            if intT first ≤ ssid ∧ ssid ≤ intT last then some (some (intT first, ptr + 12))
            else ssidLoop t ssid (ptr + 12 + maxSsidPerRange * 4)
        | _, _ => none := by
  rw [ssidLoop]
  split
  · rename_i hNone
    exact absurd (hNone.symm.trans hUsed) (by simp)
  · rename_i word hSome
    obtain rfl : word = used := Option.some_inj.mp (hSome.symm.trans hUsed)
    rfl

theorem ssidLoop_beyond {t : ByteTable msgMaskSize} {ssid : Int} {ptr : Nat}
    (hBeyond : t.readWord (ptr + 4) = none) : ssidLoop t ssid ptr = none := by
  rw [ssidLoop]
  split
  · rfl
  · rename_i word hSome
    exact absurd (hSome.symm.trans hBeyond) (by simp)

theorem readWord_rows {t : ByteTable msgMaskSize} {ptr : Nat} {rows : List SsidRow}
    (h : Holds t.bytes ptr (rowsBytes rows)) (hEnd : ptr + rowSize * rows.length = msgMaskSize)
    (k : Nat) :
    t.readWord (ptr + 4 * k) = (rows.flatMap SsidRow.words)[k]?.map UInt32.toNat := by
  have hLength : 4 * (rows.flatMap SsidRow.words).length = rowSize * rows.length := by
    rw [← length_wordsBytes]
    exact length_rowsBytes rows
  exact readWord_words h (by rw [hLength, hEnd]) k

/-- The search through the bytes is the search through the rows; induction over
the rows that are left. -/
theorem ssidLoop_eq {t : ByteTable msgMaskSize} (ssid : Int) (rows : List SsidRow)
    {ptr : Nat} (h : Holds t.bytes ptr (rowsBytes rows))
    (hEnd : ptr + rowSize * rows.length = msgMaskSize) :
    (ssidLoop t ssid ptr).bind (rowMask t ssid) = lookupRows ssid rows := by
  induction rows generalizing ptr with
  | nil =>
      rw [ssidLoop_beyond (readWord_rows h hEnd 1), Option.bind_none, lookupRows]
  | cons r rows ih =>
      have hWords := readWord_rows h hEnd
      have hFirst : t.readWord ptr = some r.first.toNat := hWords 0
      have hUsed : t.readWord (ptr + 4) = some r.last.toNat := hWords 1
      have hLast : t.readWord (ptr + 8) = some r.actualLast.toNat := hWords 2
      have hZero : r.last.toNat = 0 ↔ r.last = 0 := by
        rw [← UInt32.toNat_inj, UInt32.toNat_zero]
      rw [ssidLoop_turn hUsed, hFirst, hLast, lookupRows]
      dsimp only
      by_cases hEnds : r.last = 0
      · rw [if_pos (hZero.mpr hEnds), if_pos hEnds]
        rfl
      · rw [if_neg (mt hZero.mp hEnds), if_neg hEnds]
        by_cases hCovers : r.Covers ssid
        · have hBoth : intT r.first.toNat ≤ ssid ∧ ssid ≤ intT r.actualLast.toNat := hCovers
          have hIndex : ptr + 12 + ((ssid - intT r.first.toNat) * 4).toNat =
              ptr + 4 * (3 + (ssid - intT r.first.toNat).toNat) := by
            omega
          rw [if_pos hBoth, if_pos hCovers, Option.bind_some, rowMask, hIndex, hWords,
            Option.map_map]
          rfl
        · have hNotBoth : ¬ (intT r.first.toNat ≤ ssid ∧ ssid ≤ intT r.actualLast.toNat) :=
            hCovers
          have hNext : Holds t.bytes (ptr + rowSize) (rowsBytes rows) := by
            rw [← List.singleton_append, rowsBytes_append, holds_append, length_rowsBytes] at h
            exact h.2
          have hAfter : ptr + 12 + maxSsidPerRange * 4 = ptr + rowSize := by
            simp only [rowSize, maxSsidPerRange]
          rw [if_neg hNotBoth, if_neg hCovers, hAfter]
          refine ih hNext ?_
          rw [List.length_cons, Nat.mul_succ] at hEnd
          omega

/-- The mask of a subsystem is the one of the rows that were received. -/
theorem msgGetSsidRtMask_eq (h : m.Shows f) (ssid : Int) :
    msgGetSsidRtMask m ssid = f.ssidMask ssid :=
  ssidLoop_eq ssid _ h.rows (by rw [List.length_ofFn, Nat.zero_add]; rfl)

end Lookups

/-! ## The read thread -/

/-- The bit a message sets in `diag_sync_mask`. -/
def MaskMessage.syncBit : MaskMessage → Nat
  | .msg _ => 1
  | .log _ _ => 2
  | .event _ => 4
  | _ => 0

/-- What the driver sends to the process: masks, and blocks of data. -/
inductive Incoming (n : Nat) where
  | mask (msg : MaskMessage)
  | data (block : Block n)

/-- The bytes of it. -/
def Incoming.encode {n : Nat} : Incoming n → List Byte
  | .mask msg => msg.encode
  | .data block => block.encode

/-- It is well formed and fits the buffer. -/
def Incoming.WellFormed {n : Nat} : Incoming n → Prop
  | .mask msg => msg.WellFormed ∧ msg.encode.length ≤ readBufSize
  | .data block => block.WellFormed

/-- What it changes in the filters. -/
def Filters.incoming {n : Nat} (f : Filters) : Incoming n → Filters
  | .mask msg => f.receive msg
  | .data _ => f

/-- The bit it sets in `diag_sync_mask`. -/
def Incoming.syncBit {n : Nat} : Incoming n → Nat
  | .mask msg => msg.syncBit
  | .data _ => 0

section Thread

variable {n turns : Nat} {thread : ReadThread} {m : Masks} {f : Filters}

/-- Every message starts with its type. -/
theorem MaskMessage.exists_type (msg : MaskMessage) : ∃ (type : Int) (rest : List Byte),
    msg.encode = intBytes type ++ rest ∧ type ≠ deinitType ∧ type ≠ dciDataType ∧
      -2 ^ 31 ≤ type ∧ type < 2 ^ 31 := by
  cases msg with
  | msg rows => exact ⟨_, _, rfl, by decide, by decide, by decide, by decide⟩
  | log items enabled => exact ⟨_, _, rfl, by decide, by decide, by decide, by decide⟩
  | event enabled => exact ⟨_, _, rfl, by decide, by decide, by decide, by decide⟩
  | dciLog clients dirty enabled =>
      exact ⟨_, _, rfl, by decide, by decide, by decide, by decide⟩
  | dciEvent clients enabled => exact ⟨_, _, rfl, by decide, by decide, by decide, by decide⟩

theorem ne_nil_of_type {type : Int} {bs rest : List Byte} (h : bs = intBytes type ++ rest) :
    bs ≠ [] := by
  rintro rfl
  have hLength := congrArg List.length h
  rw [List.length_append, length_intBytes, List.length_nil] at hLength
  omega

/-- What a read leaves in memory, whatever becomes of it. -/
theorem readTurn_memory (hReading : thread.state = .reading) {bs : List Byte}
    (hBytes : bs ≠ []) :
    (readTurn n turns thread (.bytes bs)).1.mem =
        writeBytes thread.mem thread.readBuffer bs ∧
      (readTurn n turns thread (.bytes bs)).1.readBuffer = thread.readBuffer := by
  simp only [readTurn, hReading, if_true, if_neg hBytes, processDiagPayload]
  split
  · exact ⟨rfl, rfl⟩
  · split
    · split
      · exact ⟨rfl, rfl⟩
      · exact ⟨rfl, rfl⟩
    · exact ⟨rfl, rfl⟩

/-- The thread goes on after a message that neither ends it nor carries data. -/
theorem readTurn_type (hReading : thread.state = .reading) {type : Int}
    {bs rest : List Byte} (hBytes : bs = intBytes type ++ rest) (hNotDeinit : type ≠ deinitType)
    (hNotData : type ≠ dciDataType) (hLow : -2 ^ 31 ≤ type) (hHigh : type < 2 ^ 31) :
    (readTurn n turns thread (.bytes bs)).1.state = .reading := by
  have hHolds := holds_writeBytes thread.mem thread.readBuffer bs
  rw [hBytes] at hHolds
  have hType := (readInt_type hHolds hLow hHigh).1
  rw [← hBytes] at hType
  simp only [readTurn, hReading, if_true, if_neg (ne_nil_of_type hBytes), hType,
    if_neg hNotDeinit, processDiagPayload, if_neg hNotData]

/-- The thread goes on after a mask message. -/
theorem readTurn_mask (hReading : thread.state = .reading) (msg : MaskMessage) :
    (readTurn n turns thread (.bytes msg.encode)).1.state = .reading := by
  obtain ⟨type, rest, hBytes, hNotDeinit, hNotData, hLow, hHigh⟩ := msg.exists_type
  exact readTurn_type hReading hBytes hNotDeinit hNotData hLow hHigh

theorem processMasks_syncMask {mem : Nat → Byte} {readBuffer : Nat} {msg : MaskMessage}
    (hHolds : Holds mem readBuffer msg.encode) :
    (processMasks m mem readBuffer msg.encode.length).diagSyncMask =
      m.diagSyncMask ||| msg.syncBit := by
  cases msg with
  | msg rows =>
      have hType := (readInt_type hHolds (by decide) (by decide)).1
      simp [processMasks, hType, updateSyncMask, msgUpdateMask, MaskMessage.syncBit,
        msgMasksType]
  | log items enabled =>
      have hType := (readInt_type hHolds (by decide) (by decide)).1
      simp [processMasks, hType, updateSyncMask, logUpdateMask, MaskMessage.syncBit,
        msgMasksType, logMasksType]
  | event enabled =>
      have hType := (readInt_type hHolds (by decide) (by decide)).1
      simp [processMasks, hType, updateSyncMask, eventUpdateMask, MaskMessage.syncBit,
        msgMasksType, logMasksType, eventMasksType]
  | dciLog clients dirty enabled =>
      have hType := (readInt_type hHolds (by decide) (by decide)).1
      simp [processMasks, hType, logUpdateDciMask, MaskMessage.syncBit, msgMasksType,
        logMasksType, eventMasksType, dciLogMasksType]
  | dciEvent clients enabled =>
      have hType := (readInt_type hHolds (by decide) (by decide)).1
      simp [processMasks, hType, eventUpdateDciMask, MaskMessage.syncBit, msgMasksType,
        logMasksType, eventMasksType, dciLogMasksType, dciEventMasksType]

/-- A turn in which the thread has read something and goes on. -/
theorem maskTurn_reading (hReading : thread.state = .reading) {bs : List Byte}
    (hBytes : bs ≠ []) (hNext : (readTurn n turns thread (.bytes bs)).1.state = .reading) :
    maskTurn n turns thread m (.bytes bs) =
      ((readTurn n turns thread (.bytes bs)).1,
        processMasks m (writeBytes thread.mem thread.readBuffer bs) thread.readBuffer
          bs.length) := by
  have hStays : (readTurn n turns thread (.bytes bs)).1.state ≠ .exited := by
    rw [hNext]
    decide
  obtain ⟨hMem, hBuffer⟩ := @readTurn_memory n turns thread hReading bs hBytes
  simp only [maskTurn]
  rw [if_pos ⟨hReading, hBytes, hStays⟩, hMem, hBuffer]

/-- A step of the thread: it goes on reading, and the masks show what has come. -/
theorem maskTurn_incoming (hProcs : n < 2 ^ 31) (hTurns : readBufSize < turns)
    (hReading : thread.state = .reading) (hShows : m.Shows f) {x : Incoming n}
    (hWell : x.WellFormed) :
    (maskTurn n turns thread m (.bytes x.encode)).1.state = .reading ∧
      (maskTurn n turns thread m (.bytes x.encode)).2.Shows (f.incoming x) ∧
      (maskTurn n turns thread m (.bytes x.encode)).2.diagSyncMask =
        m.diagSyncMask ||| x.syncBit := by
  have hHolds := holds_writeBytes thread.mem thread.readBuffer x.encode
  cases x with
  | mask msg =>
      obtain ⟨type, rest, hBytes, -⟩ := msg.exists_type
      have hState := @readTurn_mask n turns thread hReading msg
      simp only [Incoming.encode, Incoming.WellFormed, Filters.incoming,
        Incoming.syncBit] at hHolds hWell ⊢
      obtain ⟨hMessage, -⟩ := hWell
      have hNext := hShows.receive hMessage hHolds
      have hSync := processMasks_syncMask (m := m) hHolds
      rw [maskTurn_reading hReading (ne_nil_of_type hBytes) hState]
      dsimp only
      exact ⟨hState, hNext, hSync⟩
  | data block =>
      have hState := (readTurn_block hProcs hTurns hReading hWell).1
      have hNonempty : block.encode ≠ [] := ne_nil_of_type rfl
      simp only [Incoming.encode, Filters.incoming, Incoming.syncBit] at hHolds ⊢
      rw [maskTurn_reading hReading hNonempty hState]
      have hType := (readInt_type hHolds (by decide) (by decide)).1
      have hSame : processMasks m (writeBytes thread.mem thread.readBuffer block.encode)
          thread.readBuffer block.encode.length = m := by
        simp [processMasks, hType, msgMasksType, logMasksType, eventMasksType,
          dciLogMasksType, dciEventMasksType, dciDataType]
      rw [hSame]
      exact ⟨hState, hShows, (Nat.or_zero _).symm⟩

end Thread

end Dci
end MgComm
