import MgComm.Dci.Masks

/-!
# Logs, events and messages of the process

The diag library also carries reports from the process to the driver: log
records (`log_submit`), events (`event_report_payload`) and messages
(`msg_send_var`).  Each looks into the masks first, takes a block of memory, fills
it and writes it to the driver.

`Services` runs the read thread, which receives masks, and the threads that
report, in any order.  Its frames are those of `reportStep`, which knows nothing
of tables, blocks and bytes: a driver that decodes the frames finds the reports
which the masks received last enable, with what the client gave, and with each
message the number of messages lost before it (`frames_follow_masks`), as long as
no search for a subsystem leaves its table.  One does exactly where no row stops it
(`searches_inside_iff`).  The start of the library waits for one mask of each of
the three kinds (`maskSync_iff`).

The driver is open.  Calls are made one at a time.  The platform is that of
`MgComm.Bytes`.
-/

namespace MgComm
namespace Dci

universe u

open WireWords BitMask StreamMachine

/-! ## The functions -/

/-- What a report finds: the block `DiagSvc_Malloc` gives, with what is left in
it, and the time of day. -/
structure ReportCall where
  block : Option (Nat → Byte)
  tvSec : Int
  tvUsec : Int

/-- `ts_get`, as a 64-bit word. -/
def tsGet (call : ReportCall) : Nat :=
  let seconds := call.tvSec - (10 * 365 + 5 + 2) * 24 * 60 * 60
  let seconds := seconds * 1000
  let microseconds := call.tvUsec.tdiv 1000
  let seconds := seconds + microseconds
  let seconds := (seconds * 4).tdiv 5
  (seconds * 2 ^ 16 % 2 ^ 64).toNat

/-- `sizeof(log_header_type)` -/
def logHeaderSize : Nat := 12

/-- `DIAG_LOG_F` -/
def diagLogF : Byte := 16

/-- `log_alloc`: the block with its headers; the client's pointer leads to its
ninth byte. -/
def logAlloc (m : Masks) (call : ReportCall) (code : UInt16) (length : Nat) :
    Option (Option (Nat → Byte)) :=
  if length ≤ logHeaderSize then some none
  else
    (logStatusMask m code).map fun enabledMask =>
      if enabledMask = 0 then none
      else
        call.block.map fun block =>
          writeBytes block 0
            (wordBytes 4 enabledMask ++ ([diagLogF, 0] ++ (wordBytes 2 length ++
              (wordBytes 2 length ++ (wordBytes 2 code.toNat ++ wordBytes 8 (tsGet call))))))

/-- `log_commit`: the frame, as long as the record's own length says. -/
def logCommit (block : Nat → Byte) : List Byte :=
  slice block 0 (4 + 4 + readWord block 8 2)

/-- `log_submit`: the frames written. -/
def logSubmit (m : Masks) (call : ReportCall) (mem : Nat → Byte) (ptr : Nat) :
    Option (List (List Byte)) :=
  let code := readUint16 mem (ptr + 2)
  let length := readWord mem ptr 2
  if logHeaderSize < length then
    (logStatusMask m code).map fun enabledMask =>
      if enabledMask = 0 then []
      else if call.block.isSome then
        [wordBytes 4 enabledMask ++ ([diagLogF, 0] ++ (wordBytes 2 length ++
          slice mem ptr length))]
      else []
  else some []

/-- `DIAG_DATA_TYPE_DCI_EVENT` -/
def diagDataTypeDciEvent : Nat := 0x200

/-- The field `payload_len` of an event. -/
def payloadLenBits : Nat → Nat
  | 0 => 0
  | 1 => 1
  | 2 => 2
  | _ => 3

/-- The fields of an event up to its payload. -/
def eventHeader (type len eventId time : Nat) : List Byte :=
  wordBytes 4 type ++ ([96] ++ (wordBytes 2 len ++ (wordBytes 2 eventId ++ wordBytes 8 time)))

/-- `event_alloc` once it has a block: the block with its headers, and how much of
it is written.  `DIAG_DATA_TYPE_EVENT` is 0; bit 12 of the id stays as it is in
the block. -/
def eventFill (call : ReportCall) (dciMaskSet : Bool) (id payloadLength : Nat)
    (block : Nat → Byte) : (Nat → Byte) × Nat :=
  let type := if dciMaskSet then diagDataTypeDciEvent else 0
  let reserved := readWord block 7 2 / 4096 % 2
  let eventId := id % 4096 + 4096 * reserved + 8192 * payloadLenBits payloadLength
  let headerLength := 2 + 4 + 4
  let allocLen := 4 + 14 + payloadLength
  if payloadLength ≤ 2 then
    (writeBytes block 0
      (eventHeader type (headerLength + payloadLength) eventId (tsGet call)), allocLen - 1)
  else
    (writeBytes block 0
      (eventHeader type (headerLength + 1 + payloadLength) eventId (tsGet call) ++
        [UInt8.ofNat payloadLength]), allocLen)

/-- `event_alloc` -/
def eventAlloc (m : Masks) (call : ReportCall) (id payloadLength : Nat) :
    Option (Option ((Nat → Byte) × Nat)) :=
  (eventMaskBits m id).map fun (maskSet, dciMaskSet) =>
    if !maskSet && !dciMaskSet then none
    else call.block.map (eventFill call dciMaskSet id payloadLength)

/-- `event_report_payload`; without a payload it is `event_report`. -/
def eventReportPayload (m : Masks) (call : ReportCall) (id : Nat) (payload : List Byte) :
    Option (List (List Byte)) :=
  (eventAlloc m call id payload.length).map fun
    | none => []
    | some (block, allocLen) =>
        let payloadPos := if payload.length ≤ 2 then 17 else 18
        [slice (writeBytes block payloadPos payload) 0 allocLen]

/-- `msg_const_type`: its strings are C strings. -/
structure MsgConst where
  line : UInt16
  ssId : UInt16
  ssMask : UInt32
  fmt : List Byte
  fname : List Byte
  fmtString : ∀ c ∈ fmt, c ≠ 0
  fnameString : ∀ c ∈ fname, c ≠ 0

/-- A backslash, a colon or a slash. -/
def isSeparator (c : Byte) : Bool := c == 92 || c == 58 || c == 47

/-- The loop of `msg_format_filename2`, down from the given index; it does not look
at the first character. -/
def filenameLoop (filename : List Byte) : Nat → Nat
  | 0 => 0
  | k + 1 =>
      if isSeparator (filename.getD (k + 1) 0) then k + 2 else filenameLoop filename k

/-- `msg_format_filename2` -/
def msgFormatFilename2 (filename : List Byte) : List Byte :=
  filename.drop (filenameLoop filename filename.length)

/-- `DIAG_EXT_MSG_F` -/
def diagExtMsgF : Byte := 121

/-- The time in a message: the client's own, or that of the day. -/
def msgTime (call : ReportCall) : Option UInt64 → Nat
  | some timestamp => (timestamp.toNat * 4 % 2 ^ 64 / 5 * 2 ^ 16) % 2 ^ 64
  | none => tsGet call

/-- `DIAG_DATA_TYPE_F3` and the fields of a message up to its arguments. -/
def msgHeader (numArgs drops time : Nat) (line ssId : UInt16) (ssMask : UInt32) : List Byte :=
  wordBytes 4 1 ++ ([diagExtMsgF, 0, UInt8.ofNat numArgs, UInt8.ofNat drops] ++
    wordBytes 8 time) ++ (wordBytes 2 line.toNat ++ (wordBytes 2 ssId.toNat ++
      wordBytes 4 ssMask.toNat))

/-- `msg_send_prep` where the masks let the message through: everything but the
arguments, and the length. -/
def msgFill (call : ReportCall) (dropDelta : Nat) (constBlk : MsgConst) (numArgs : Nat)
    (timestamp : Option UInt64) (block : Nat → Byte) : (Nat → Byte) × Nat :=
  let abbFilename := msgFormatFilename2 constBlk.fname
  let allocLen := 4 + 20 + numArgs * 4 + (abbFilename.length + 1) + (constBlk.fmt.length + 1)
  let fmtPos := 4 + 20 + numArgs * 4
  let dropCnt := if 255 < dropDelta then 255 else dropDelta
  let block := writeBytes block 0 (msgHeader numArgs dropCnt (msgTime call timestamp)
    constBlk.line constBlk.ssId constBlk.ssMask)
  let block := writeBytes block fmtPos (constBlk.fmt ++ [0])
  let block := writeBytes block (fmtPos + constBlk.fmt.length + 1) (abbFilename ++ [0])
  (block, allocLen)

/-- `msg_send_var`, and with fewer arguments `msg_send`, `msg_send_ts`,
`msg_send_1` to `msg_send_3`: the frames, and `msg_drop_delta` after it. -/
def msgSend (m : Masks) (call : ReportCall) (dropDelta : Nat) (constBlk : MsgConst)
    (args : List UInt32) (timestamp : Option UInt64) : Option (List (List Byte) × Nat) :=
  (msgGetSsidRtMask m constBlk.ssId.toNat).map fun
    | none => ([], dropDelta)
    | some rtMask =>
        if constBlk.ssMask.toNat &&& rtMask = 0 then ([], dropDelta)
        else
          match call.block with
          | none => ([], (dropDelta + 1) % 2 ^ 32)
          | some block =>
              let (block, allocLen) := msgFill call dropDelta constBlk args.length timestamp block
              ([slice (writeBytes block 24 (wordsBytes args)) 0 allocLen], 0)

/-- The naps of `do_mask_sync`, from the number of those that are over.  What it
finds after the 51st nap is not looked at. -/
def maskSyncLoop (syncMask : Nat → Nat) (count : Nat) : Bool :=
  if syncMask count = 1 ||| 2 ||| 4 then true
  else if 50 < count + 1 then false
  else maskSyncLoop syncMask (count + 1)
termination_by 51 - count

/-- `do_mask_sync`, by what `diag_sync_mask` is after each number of naps. -/
def doMaskSync (syncMask : Nat → Nat) : Bool := maskSyncLoop syncMask 0

/-! ## The services -/

/-- The read thread, the masks, and what the message service counts. -/
structure Services where
  thread : ReadThread
  masks : Masks
  msgDropDelta : Nat
  /-- A table was read beyond its end. -/
  undefined : Bool

/-- What happens: the read thread receives something, or a client reports. -/
inductive ServiceEvent (n : Nat) where
  | incoming (x : Incoming n) (hWell : x.WellFormed)
  | log (mem : Nat → Byte) (ptr : Nat) (call : ReportCall)
  | event (id : Nat) (payload : List Byte) (hByte : payload.length < 256) (call : ReportCall)
  | msg (constBlk : MsgConst) (args : List UInt32) (hByte : args.length < 256)
      (timestamp : Option UInt64) (call : ReportCall)

/-- The result of a report, none if it read beyond a table. -/
def Services.answer (s : Services) : Option (List (List Byte)) →
    Services × List (List Byte)
  | none => ({ s with undefined := true }, [])
  | some frames => (s, frames)

/-- A step of the process: the frames it writes. -/
def serviceStep {n : Nat} (turns : Nat) (s : Services) :
    ServiceEvent n → Services × List (List Byte)
  | .incoming x _ =>
      let (thread, masks) := maskTurn n turns s.thread s.masks (.bytes x.encode)
      ({ s with thread := thread, masks := masks }, [])
  | .log mem ptr call => s.answer (logSubmit s.masks call mem ptr)
  | .event id payload _ call => s.answer (eventReportPayload s.masks call id payload)
  | .msg constBlk args _ timestamp call =>
      match msgSend s.masks call s.msgDropDelta constBlk args timestamp with
      | none => ({ s with undefined := true }, [])
      | some (frames, dropDelta) => ({ s with msgDropDelta := dropDelta }, frames)

/-! ## What they are for -/

/-- A report, as the driver is to get it. -/
inductive Report where
  | log (types : Nat) (record : List Byte)
  | event (type id time : Nat) (payload : List Byte)
  | msg (time drops line ssId ssMask : Nat) (args : List Nat) (fmt fname : List Byte)
  deriving DecidableEq

/-- The state of the reports: what is enabled, and how many messages were lost
since the last one. -/
structure Reporting where
  filters : Filters
  drops : Nat
  undefined : Bool

/-- The report of a log record. -/
def reportLog (f : Filters) (mem : Nat → Byte) (ptr : Nat) (call : ReportCall) :
    List Report :=
  let length := readWord mem ptr 2
  let types := f.logStatus (readUint16 mem (ptr + 2))
  if logHeaderSize < length ∧ types ≠ 0 ∧ call.block.isSome then
    [.log types (slice mem ptr length)]
  else []

/-- The report of an event.  One that both the tool and a DCI client want is
marked for the client alone. -/
def reportEvent (f : Filters) (id : Nat) (payload : List Byte) (call : ReportCall) :
    List Report :=
  let status := f.eventStatus id
  if (status.1 || status.2) ∧ call.block.isSome then
    [.event (if status.2 then diagDataTypeDciEvent else 0) id (tsGet call) payload]
  else []

/-- The report of a message whose subsystem has the given mask. -/
def reportMsg (r : Reporting) (rtMask : Nat) (constBlk : MsgConst) (args : List UInt32)
    (timestamp : Option UInt64) (call : ReportCall) : Reporting × List Report :=
  if constBlk.ssMask.toNat &&& rtMask = 0 then (r, [])
  else if call.block.isSome then
    ({ r with drops := 0 },
      [.msg (msgTime call timestamp) (min r.drops 255) constBlk.line.toNat
        constBlk.ssId.toNat constBlk.ssMask.toNat (args.map UInt32.toNat) constBlk.fmt
        (msgFormatFilename2 constBlk.fname)])
  else ({ r with drops := (r.drops + 1) % 2 ^ 32 }, [])

/-- A step of the reports. -/
def reportStep {n : Nat} (r : Reporting) : ServiceEvent n → Reporting × List Report
  | .incoming x _ => ({ r with filters := r.filters.incoming x }, [])
  | .log mem ptr call => (r, reportLog r.filters mem ptr call)
  | .event id payload _ call => (r, reportEvent r.filters id payload call)
  | .msg constBlk args _ timestamp call =>
      match r.filters.ssidMask constBlk.ssId.toNat with
      | none => ({ r with undefined := true }, [])
      | some none => (r, [])
      | some (some rtMask) => reportMsg r rtMask constBlk args timestamp call

/-! ## The driver's side -/

/-- A log frame without its type. -/
def decodeLog (types : Nat) (mem : Nat → Byte) : Report :=
  .log types (slice mem 8 (readWord mem 6 2))

/-- An event frame without its type. -/
def decodeEvent (type : Nat) (mem : Nat → Byte) : Report :=
  let word := readWord mem 7 2
  let payloadLen := word / 8192 % 4
  .event type (word % 4096) (readWord mem 9 8)
    (if payloadLen = 3 then slice mem 18 (mem 17).toNat else slice mem 17 payloadLen)

/-- A C string at the start of some bytes. -/
def cString (bytes : List Byte) : List Byte := bytes.takeWhile (· ≠ 0)

/-- A message frame without its type. -/
def decodeMsg (mem : Nat → Byte) (bytes : List Byte) : Report :=
  let numArgs := (mem 6).toNat
  let fmt := cString (bytes.drop (24 + 4 * numArgs))
  .msg (readWord mem 8 8) (mem 7).toNat (readWord mem 16 2) (readWord mem 18 2)
    (readWord mem 20 4) ((List.range numArgs).map fun k => readWord mem (24 + 4 * k) 4) fmt
    (cString (bytes.drop (24 + 4 * numArgs + (fmt.length + 1))))

/-- A frame, by its type. -/
def decodeFrame (bytes : List Byte) : Report :=
  let mem := writeBytes (fun _ => 0) 0 bytes
  let type := readWord mem 0 4
  if type = 1 then decodeMsg mem bytes
  else if type = 0 ∨ type = diagDataTypeDciEvent then decodeEvent type mem
  else decodeLog type mem

/-! ## Frames are decoded as what they report -/

section Memory

variable {mem : Nat → Byte} {a addr : Nat} {bs xs : List Byte}

/-- A write beyond a string leaves it. -/
theorem holds_writeBytes_beyond (h : Holds mem a bs) (hBeyond : a + bs.length ≤ addr) :
    Holds (writeBytes mem addr xs) a bs := by
  refine h.congr fun k hk => ?_
  rw [writeBytes, if_neg (by omega)]

/-- A write before a string leaves it. -/
theorem holds_writeBytes_before (h : Holds mem a bs) (hBefore : addr + xs.length ≤ a) :
    Holds (writeBytes mem addr xs) a bs := by
  refine h.congr fun k _ => ?_
  rw [writeBytes, if_pos (by omega), List.getD_eq_default _ _ (by omega)]

theorem readWord_wordBytes {k n : Nat} (h : Holds mem addr (wordBytes k n))
    (hSmall : n < 256 ^ k) : readWord mem addr k = n := by
  rw [h.readWord_eq, Nat.mod_eq_of_lt hSmall]

end Memory

theorem logStatus_cases (f : Filters) (code : UInt16) :
    f.logStatus code = 0 ∨ f.logStatus code = 2 ∨ f.logStatus code = 0x100 ∨
      f.logStatus code = 0x102 := by
  unfold Filters.logStatus diagDataTypeLog diagDataTypeDciLog
  split
  · split
    · exact Or.inr (Or.inr (Or.inr rfl))
    · exact Or.inr (Or.inl rfl)
  · split
    · exact Or.inr (Or.inr (Or.inl rfl))
    · exact Or.inl rfl

/-- A log frame. -/
theorem decodeFrame_log {types : Nat} {record : List Byte}
    (hTypes : types = 2 ∨ types = 0x100 ∨ types = 0x102) (hLength : record.length < 2 ^ 16) :
    decodeFrame (wordBytes 4 types ++ ([diagLogF, 0] ++
      (wordBytes 2 record.length ++ record))) = .log types record := by
  have hHolds := holds_writeBytes (fun _ => 0) 0
    (wordBytes 4 types ++ ([diagLogF, 0] ++ (wordBytes 2 record.length ++ record)))
  simp only [decodeFrame]
  set mem := writeBytes (fun _ => 0) 0
    (wordBytes 4 types ++ ([diagLogF, 0] ++ (wordBytes 2 record.length ++ record)))
  simp only [holds_append, length_wordBytes, List.length_cons, List.length_nil] at hHolds
  obtain ⟨hType, _, hCount, hRecord⟩ := hHolds
  have hNumber : readWord mem 0 4 = types :=
    readWord_wordBytes hType (by omega)
  have hCountRead : readWord mem 6 2 = record.length := readWord_wordBytes hCount hLength
  have hNotMsg : ¬ types = 1 := by omega
  have hNotEvent : ¬ (types = 0 ∨ types = diagDataTypeDciEvent) := by
    simp only [diagDataTypeDciEvent]
    omega
  rw [hNumber, if_neg hNotMsg, if_neg hNotEvent, decodeLog, hCountRead]
  exact congrArg _ hRecord.slice_eq

/-- The bytes after the headers of an event: its length only if it has more than
two. -/
def eventTail (payload : List Byte) : List Byte :=
  if payload.length ≤ 2 then payload else UInt8.ofNat payload.length :: payload

theorem payloadLenBits_lt (length : Nat) : payloadLenBits length < 4 := by
  unfold payloadLenBits
  split
  · decide
  · decide
  · decide
  · decide

theorem payloadLenBits_of_le {length : Nat} (h : length ≤ 2) :
    payloadLenBits length = length := by
  obtain rfl | rfl | rfl : length = 0 ∨ length = 1 ∨ length = 2 := by omega
  · rfl
  · rfl
  · rfl

theorem payloadLenBits_of_lt {length : Nat} (h : 2 < length) : payloadLenBits length = 3 := by
  obtain ⟨k, rfl⟩ : ∃ k, length = k + 3 := ⟨length - 3, by omega⟩
  rfl

@[simp] theorem length_eventHeader (type len eventId time : Nat) :
    (eventHeader type len eventId time).length = 17 := by
  simp [eventHeader]

/-- An event frame. -/
theorem decodeFrame_event {type len id reserved time : Nat} {payload : List Byte}
    (hType : type = 0 ∨ type = diagDataTypeDciEvent) (hId : id < 4096) (hReserved : reserved < 2)
    (hTime : time < 2 ^ 64) (hPayload : payload.length < 256) :
    decodeFrame (eventHeader type len
      (id + 4096 * reserved + 8192 * payloadLenBits payload.length) time ++
        eventTail payload) = .event type id time payload := by
  set frame := eventHeader type len
    (id + 4096 * reserved + 8192 * payloadLenBits payload.length) time ++ eventTail payload
      with hFrame
  have hHolds := holds_writeBytes (fun _ => 0) 0 frame
  simp only [decodeFrame]
  set mem := writeBytes (fun _ => 0) 0 frame
  rw [hFrame, holds_append, length_eventHeader] at hHolds
  obtain ⟨hHeader, hTail⟩ := hHolds
  simp only [eventHeader, holds_append, length_wordBytes, List.length_cons,
    List.length_nil] at hHeader
  obtain ⟨hTypeWord, _, _, hWord, hTimeWord⟩ := hHeader
  have hBits := payloadLenBits_lt payload.length
  have hSmall : diagDataTypeDciEvent = 0x200 := rfl
  have hTypeRead : readWord mem 0 4 = type := readWord_wordBytes hTypeWord (by omega)
  have hWordRead : readWord mem 7 2 =
      id + 4096 * reserved + 8192 * payloadLenBits payload.length :=
    readWord_wordBytes hWord (by omega)
  have hTimeRead : readWord mem 9 8 = time := readWord_wordBytes hTimeWord hTime
  have hNotMsg : ¬ type = 1 := by omega
  rw [hTypeRead, if_neg hNotMsg, if_pos hType, decodeEvent, hWordRead, hTimeRead]
  have hIdRead : (id + 4096 * reserved + 8192 * payloadLenBits payload.length) % 4096 = id := by
    omega
  have hLenRead : (id + 4096 * reserved + 8192 * payloadLenBits payload.length) / 8192 % 4 =
      payloadLenBits payload.length := by
    omega
  simp only [hIdRead, hLenRead]
  by_cases hShort : payload.length ≤ 2
  · rw [eventTail, if_pos hShort] at hTail
    rw [payloadLenBits_of_le hShort, if_neg (by omega)]
    exact congrArg _ hTail.slice_eq
  · rw [eventTail, if_neg hShort] at hTail
    obtain ⟨hLength, hBytes⟩ := hTail
    have hCount : (mem 17).toNat = payload.length := by
      rw [show mem 17 = UInt8.ofNat payload.length from hLength]
      exact UInt8.toNat_ofNat_of_lt' hPayload
    rw [payloadLenBits_of_lt (by omega), if_pos rfl, hCount]
    exact congrArg _ hBytes.slice_eq

/-- A C string is read up to its end. -/
theorem cString_append {str : List Byte} (h : ∀ c ∈ str, c ≠ 0) (rest : List Byte) :
    cString (str ++ ([0] ++ rest)) = str := by
  rw [cString, List.takeWhile_append_of_pos (by simpa using h)]
  simp

theorem readWords {mem : Nat → Byte} {addr : Nat} {words : List UInt32}
    (h : Holds mem addr (wordsBytes words)) :
    ((List.range words.length).map fun k => readWord mem (addr + 4 * k) 4) =
      words.map UInt32.toNat := by
  refine List.ext_getElem (by simp) fun k hk _ => ?_
  have hLength : k < words.length := by simpa using hk
  have hWord := h.record (fun w : UInt32 => length_wordBytes 4 w.toNat) hLength
  rw [List.getElem_map, List.getElem_map, List.getElem_range]
  exact readWord_wordBytes hWord words[k].toNat_lt

@[simp] theorem length_msgHeader (numArgs drops time : Nat) (line ssId : UInt16)
    (ssMask : UInt32) : (msgHeader numArgs drops time line ssId ssMask).length = 24 := by
  simp [msgHeader]

/-- A message frame. -/
theorem decodeFrame_msg {drops time : Nat} {line ssId : UInt16} {ssMask : UInt32}
    {args : List UInt32} {fmt fname : List Byte} (hDrops : drops < 256) (hTime : time < 2 ^ 64)
    (hArgs : args.length < 256) (hFmt : ∀ c ∈ fmt, c ≠ 0) (hName : ∀ c ∈ fname, c ≠ 0) :
    decodeFrame (msgHeader args.length drops time line ssId ssMask ++
      (wordsBytes args ++ ((fmt ++ [0]) ++ (fname ++ [0])))) =
      .msg time drops line.toNat ssId.toNat ssMask.toNat (args.map UInt32.toNat) fmt fname := by
  set frame := msgHeader args.length drops time line ssId ssMask ++
    (wordsBytes args ++ ((fmt ++ [0]) ++ (fname ++ [0]))) with hFrame
  have hHolds := holds_writeBytes (fun _ => 0) 0 frame
  simp only [decodeFrame]
  set mem := writeBytes (fun _ => 0) 0 frame
  rw [hFrame, holds_append, length_msgHeader] at hHolds
  obtain ⟨hHeader, hRest⟩ := hHolds
  rw [holds_append] at hRest
  simp only [msgHeader, holds_append, length_wordBytes, List.length_cons, List.length_nil,
    List.length_append, holds_cons] at hHeader
  obtain ⟨⟨hType, ⟨_, _, hCount, hDropByte, _⟩, hTimeWord⟩, hLine, hSsId, hMask⟩ := hHeader
  have hTypeRead : readWord mem 0 4 = 1 := readWord_wordBytes hType (by decide)
  have hCountRead : (mem 6).toNat = args.length := by
    rw [show mem 6 = UInt8.ofNat args.length from hCount]
    exact UInt8.toNat_ofNat_of_lt' hArgs
  have hDropRead : (mem 7).toNat = drops := by
    rw [show mem 7 = UInt8.ofNat drops from hDropByte]
    exact UInt8.toNat_ofNat_of_lt' hDrops
  have hTimeRead : readWord mem 8 8 = time := readWord_wordBytes hTimeWord hTime
  have hLineRead : readWord mem 16 2 = line.toNat := readWord_wordBytes hLine line.toNat_lt
  have hSsIdRead : readWord mem 18 2 = ssId.toNat := readWord_wordBytes hSsId ssId.toNat_lt
  have hMaskRead : readWord mem 20 4 = ssMask.toNat :=
    readWord_wordBytes hMask ssMask.toNat_lt
  have hArgsRead := readWords hRest.1
  have hStrings : frame.drop (24 + 4 * args.length) = fmt ++ ([0] ++ (fname ++ ([0] ++ []))) := by
    rw [hFrame, ← length_wordsBytes args,
      ← length_msgHeader args.length drops time line ssId ssMask, ← List.length_append,
      ← List.append_assoc, List.drop_left]
    simp
  have hFmtRead : cString (frame.drop (24 + 4 * args.length)) = fmt := by
    rw [hStrings, cString_append hFmt]
  have hNameRead : cString (frame.drop (24 + 4 * args.length + (fmt.length + 1))) = fname := by
    rw [← List.drop_drop, hStrings, ← List.append_assoc,
      List.drop_left' (by simp), cString_append hName]
  rw [hTypeRead, if_pos rfl, decodeMsg]
  simp only [hCountRead, hDropRead, hTimeRead, hLineRead, hSsIdRead, hMaskRead, hFmtRead,
    hNameRead]
  exact congrArg (fun words => Report.msg time drops line.toNat ssId.toNat ssMask.toNat words
    fmt fname) hArgsRead

/-! ## The functions write such frames -/

section Writers

variable {m : Masks} {f : Filters} (call : ReportCall)

theorem tsGet_lt : tsGet call < 2 ^ 64 := by
  have hWord (time : Int) : (time % 2 ^ 64).toNat < 2 ^ 64 := by omega
  exact hWord _

theorem msgTime_lt (timestamp : Option UInt64) : msgTime call timestamp < 2 ^ 64 := by
  cases timestamp with
  | none => exact tsGet_lt call
  | some timestamp => exact Nat.mod_lt _ (by decide)

/-- A record that is copied into a block is as long there. -/
theorem readWord_copied {mem block : Nat → Byte} {ptr pos length : Nat} (h : 2 ≤ length) :
    readWord (writeBytes block pos (slice mem ptr length)) pos 2 = readWord mem ptr 2 := by
  refine readWord_congr fun i hi => ?_
  have hInside : i < (slice mem ptr length).length := by
    rw [length_slice]
    omega
  exact ((holds_writeBytes block pos _).getElem hInside).trans
    ((holds_slice length).getElem hInside).symm

/-- A record copied over the rest of the headers is committed behind the first of
them. -/
theorem logCommit_copied {mem : Nat → Byte} {ptr : Nat} (h : 2 ≤ readWord mem ptr 2)
    (block : Nat → Byte) {first : List Byte} (hFirst : first.length = 8) (rest : List Byte) :
    logCommit (writeBytes (writeBytes block 0 (first ++ rest)) 8
        (slice mem ptr (readWord mem ptr 2))) =
      first ++ slice mem ptr (readWord mem ptr 2) := by
  have hHeaders := holds_writeBytes block 0 (first ++ rest)
  rw [holds_append] at hHeaders
  have hBoth : Holds (writeBytes (writeBytes block 0 (first ++ rest)) 8
      (slice mem ptr (readWord mem ptr 2))) 0
      (first ++ slice mem ptr (readWord mem ptr 2)) := by
    rw [holds_append, hFirst]
    exact ⟨holds_writeBytes_beyond hHeaders.1 (by omega), holds_writeBytes _ _ _⟩
  have hFrame := hBoth.slice_eq
  rw [List.length_append, hFirst, length_slice] at hFrame
  rw [logCommit, readWord_copied h]
  exact hFrame

/-- What `log_submit` writes is what `log_commit` would, after `log_alloc` and a copy
of the record into the block. -/
theorem logSubmit_eq_logAlloc (mem : Nat → Byte) (ptr : Nat) :
    logSubmit m call mem ptr =
      (logAlloc m call (readUint16 mem (ptr + 2)) (readWord mem ptr 2)).map fun
        | none => []
        | some block => [logCommit (writeBytes block 8 (slice mem ptr (readWord mem ptr 2)))] := by
  unfold logSubmit logAlloc
  by_cases hLength : logHeaderSize < readWord mem ptr 2
  · simp only [if_pos hLength, if_neg (Nat.not_le_of_lt hLength), Option.map_map]
    refine congrArg (fun g => (logStatusMask m (readUint16 mem (ptr + 2))).map g) ?_
    funext enabledMask
    by_cases hNone : enabledMask = 0
    · simp [hNone]
    · cases hBlock : call.block with
      | none => simp [hNone]
      | some block =>
          have hTwo : 2 ≤ readWord mem ptr 2 := by
            simp only [logHeaderSize] at hLength
            omega
          have hFirst : (wordBytes 4 enabledMask ++ ([diagLogF, 0] ++
              wordBytes 2 (readWord mem ptr 2))).length = 8 := by
            simp
          have hFrame := logCommit_copied hTwo block hFirst
            (wordBytes 2 (readWord mem ptr 2) ++
              (wordBytes 2 (readUint16 mem (ptr + 2)).toNat ++ wordBytes 8 (tsGet call)))
          simp only [List.append_assoc] at hFrame
          simp only [if_neg hNone, Option.isSome_some, if_true, Function.comp_apply,
            Option.map_some, hFrame]
  · simp only [if_neg hLength, if_pos (Nat.le_of_not_lt hLength), Option.map_some]

/-- `log_submit` reports what the filters let through. -/
theorem logSubmit_reports (h : m.Shows f) (mem : Nat → Byte) (ptr : Nat) :
    ∃ frames, logSubmit m call mem ptr = some frames ∧
      frames.map decodeFrame = reportLog f mem ptr call := by
  unfold logSubmit reportLog
  simp only [logStatusMask_eq h, Option.map_some]
  by_cases hLength : logHeaderSize < readWord mem ptr 2
  · simp only [hLength, if_true, true_and]
    refine ⟨_, rfl, ?_⟩
    by_cases hNone : f.logStatus (readUint16 mem (ptr + 2)) = 0
    · simp [hNone]
    · by_cases hBlock : call.block.isSome
      · have hTypes := (logStatus_cases f (readUint16 mem (ptr + 2))).resolve_left hNone
        have hRecord : (slice mem ptr (readWord mem ptr 2)).length = readWord mem ptr 2 :=
          length_slice _
        have hFrame := decodeFrame_log hTypes
          (by rw [hRecord]; exact readWord_lt 2 : (slice mem ptr (readWord mem ptr 2)).length < _)
        rw [hRecord] at hFrame
        rw [if_neg hNone, if_pos hBlock, if_pos ⟨hNone, hBlock⟩, List.map_cons,
          List.map_nil, hFrame]
      · simp [hNone, hBlock]
  · simp only [hLength, if_false, false_and]
    exact ⟨[], rfl, rfl⟩

/-- The bytes `event_report_payload` writes are an event frame. -/
theorem decodeFrame_eventFill (dciMaskSet : Bool) {id : Nat} (hId : id ≤ eventLastId)
    {payload : List Byte} (hPayload : payload.length < 256) (block : Nat → Byte) :
    decodeFrame (slice (writeBytes (eventFill call dciMaskSet id payload.length block).1
        (if payload.length ≤ 2 then 17 else 18) payload) 0
      (eventFill call dciMaskSet id payload.length block).2) =
      .event (if dciMaskSet then diagDataTypeDciEvent else 0) id (tsGet call) payload := by
  have hType : (if dciMaskSet then diagDataTypeDciEvent else 0) = 0 ∨
      (if dciMaskSet then diagDataTypeDciEvent else 0) = diagDataTypeDciEvent := by
    cases dciMaskSet with
    | false => exact Or.inl rfl
    | true => exact Or.inr rfl
  have hSmall : id < 4096 := by
    simp only [eventLastId] at hId
    omega
  have hReserved : readWord block 7 2 / 4096 % 2 < 2 := Nat.mod_lt _ (by decide)
  have hDecode (len : Nat) := @decodeFrame_event _ len _ _ _ _ hType hSmall hReserved
    (tsGet_lt call) hPayload
  by_cases hShort : payload.length ≤ 2
  · simp only [eventFill, if_pos hShort, Nat.mod_eq_of_lt hSmall]
    set header := eventHeader _ _ _ _ with hHeader
    have hBoth : Holds (writeBytes (writeBytes block 0 header) 17 payload) 0
        (header ++ payload) := by
      rw [holds_append, length_eventHeader]
      exact ⟨holds_writeBytes_beyond (holds_writeBytes _ _ _) (by simp [hHeader]),
        holds_writeBytes _ _ _⟩
    have hFrame := hBoth.slice_eq
    rw [List.length_append, length_eventHeader] at hFrame
    have hTail : eventTail payload = payload := if_pos hShort
    rw [show 4 + 14 + payload.length - 1 = 17 + payload.length by omega, hFrame]
    have hEnd := hDecode (2 + 4 + 4 + payload.length)
    rwa [hTail] at hEnd
  · simp only [eventFill, if_neg hShort, Nat.mod_eq_of_lt hSmall]
    set header := eventHeader _ _ _ _ with hHeader
    have hBoth : Holds (writeBytes (writeBytes block 0
        (header ++ [UInt8.ofNat payload.length])) 18 payload) 0
        ((header ++ [UInt8.ofNat payload.length]) ++ payload) := by
      rw [holds_append, List.length_append, length_eventHeader]
      exact ⟨holds_writeBytes_beyond (holds_writeBytes _ _ _) (by simp [hHeader]),
        holds_writeBytes _ _ _⟩
    have hFrame := hBoth.slice_eq
    rw [List.length_append, List.length_append, length_eventHeader, List.append_assoc,
      List.singleton_append] at hFrame
    have hTail : eventTail payload = UInt8.ofNat payload.length :: payload := if_neg hShort
    rw [show 4 + 14 + payload.length = 17 + [UInt8.ofNat payload.length].length +
      payload.length by simp, hFrame]
    have hEnd := hDecode (2 + 4 + 4 + 1 + payload.length)
    rwa [hTail] at hEnd

/-- `event_report_payload` reports what the filters let through. -/
theorem eventReportPayload_reports (h : m.Shows f) (id : Nat) {payload : List Byte}
    (hPayload : payload.length < 256) :
    ∃ frames, eventReportPayload m call id payload = some frames ∧
      frames.map decodeFrame = reportEvent f id payload call := by
  unfold eventReportPayload eventAlloc reportEvent
  simp only [eventMaskBits_eq h, Option.map_some]
  refine ⟨_, rfl, ?_⟩
  by_cases hSome : (f.eventStatus id).1 || (f.eventStatus id).2
  · have hNot : ¬ (!(f.eventStatus id).1 && !(f.eventStatus id).2) = true := by
      rw [← Bool.not_or, hSome]
      decide
    have hId : id ≤ eventLastId := by
      by_contra hAbove
      simp [Filters.eventStatus, hAbove] at hSome
    rw [if_neg hNot]
    cases hBlock : call.block with
    | none => simp
    | some block =>
        have hFrame := decodeFrame_eventFill call (f.eventStatus id).2 hId hPayload block
        simpa [hSome] using hFrame
  · have hBoth : (!(f.eventStatus id).1 && !(f.eventStatus id).2) = true := by
      rw [← Bool.not_or, Bool.eq_false_of_not_eq_true hSome]
      rfl
    have hNoReport : ¬ (((f.eventStatus id).1 || (f.eventStatus id).2) = true ∧
        call.block.isSome) := fun hReport => hSome hReport.1
    rw [if_pos hBoth, if_neg hNoReport]
    rfl

/-- The parts of a message lie one after the other. -/
theorem holds_msgFill (block : Nat → Byte) {header : List Byte} (hHeader : header.length = 24)
    (args : List UInt32) (fmt name : List Byte) :
    Holds (writeBytes (writeBytes (writeBytes (writeBytes block 0 header)
        (4 + 20 + args.length * 4) (fmt ++ [0])) (4 + 20 + args.length * 4 + fmt.length + 1)
          (name ++ [0])) 24 (wordsBytes args)) 0
      (header ++ (wordsBytes args ++ ((fmt ++ [0]) ++ (name ++ [0])))) := by
  have hArgs : 0 + header.length + (wordsBytes args).length = 4 + 20 + args.length * 4 := by
    rw [hHeader, length_wordsBytes]
    omega
  have hFmt : (fmt ++ [0]).length = fmt.length + 1 := by simp
  have hAfter : 24 + (wordsBytes args).length ≤ 4 + 20 + args.length * 4 := by omega
  rw [holds_append, holds_append, holds_append, hArgs, hFmt, ← Nat.add_assoc]
  refine ⟨?_, ?_, ?_, ?_⟩
  · refine holds_writeBytes_beyond ?_ (by omega)
    refine holds_writeBytes_beyond ?_ (by omega)
    exact holds_writeBytes_beyond (holds_writeBytes _ _ _) (by omega)
  · rw [hHeader]
    exact holds_writeBytes _ _ _
  · refine holds_writeBytes_before ?_ hAfter
    exact holds_writeBytes_beyond (holds_writeBytes _ _ _) (by omega)
  · exact holds_writeBytes_before (holds_writeBytes _ _ _) (by omega)

/-- The bytes `msg_send_var` writes are a message frame. -/
theorem decodeFrame_msgFill (dropDelta : Nat) (constBlk : MsgConst) {args : List UInt32}
    (hArgs : args.length < 256) (timestamp : Option UInt64) (block : Nat → Byte) :
    decodeFrame (slice (writeBytes
        (msgFill call dropDelta constBlk args.length timestamp block).1 24 (wordsBytes args)) 0
      (msgFill call dropDelta constBlk args.length timestamp block).2) =
      .msg (msgTime call timestamp) (min dropDelta 255) constBlk.line.toNat
        constBlk.ssId.toNat constBlk.ssMask.toNat (args.map UInt32.toNat) constBlk.fmt
        (msgFormatFilename2 constBlk.fname) := by
  have hName : ∀ c ∈ msgFormatFilename2 constBlk.fname, c ≠ 0 := fun c hMem =>
    constBlk.fnameString c (List.mem_of_mem_drop hMem)
  have hDropCnt : (if 255 < dropDelta then 255 else dropDelta) = min dropDelta 255 := by
    split
    · omega
    · omega
  have hDrops : min dropDelta 255 < 256 := by omega
  rw [← decodeFrame_msg hDrops (msgTime_lt call timestamp) hArgs constBlk.fmtString hName]
  refine congrArg decodeFrame ?_
  simp only [msgFill, hDropCnt]
  have hFrame := (holds_msgFill block
    (length_msgHeader args.length (min dropDelta 255) (msgTime call timestamp) constBlk.line
      constBlk.ssId constBlk.ssMask)
    args constBlk.fmt (msgFormatFilename2 constBlk.fname)).slice_eq
  rw [← hFrame]
  congr 1
  simp only [List.length_append, length_msgHeader, length_wordsBytes, List.length_singleton]
  omega

/-- `msg_send_var` reports what the filters let through, and counts what is lost;
the search for the subsystem may leave the table. -/
theorem msgSend_reports (h : m.Shows f) (r : Reporting) (constBlk : MsgConst)
    {args : List UInt32} (hArgs : args.length < 256) (timestamp : Option UInt64) :
    match f.ssidMask constBlk.ssId.toNat with
    | none => msgSend m call r.drops constBlk args timestamp = none
    | some none => msgSend m call r.drops constBlk args timestamp = some ([], r.drops)
    | some (some rtMask) => ∃ frames dropDelta,
        msgSend m call r.drops constBlk args timestamp = some (frames, dropDelta) ∧
          reportMsg r rtMask constBlk args timestamp call =
            ({ r with drops := dropDelta }, frames.map decodeFrame) := by
  unfold msgSend
  rw [msgGetSsidRtMask_eq h]
  cases f.ssidMask constBlk.ssId.toNat with
  | none => rfl
  | some found =>
      cases found with
      | none => rfl
      | some rtMask =>
          simp only [Option.map_some]
          unfold reportMsg
          by_cases hMask : constBlk.ssMask.toNat &&& rtMask = 0
          · refine ⟨[], r.drops, by rw [if_pos hMask], ?_⟩
            rw [if_pos hMask]
            rfl
          · simp only [if_neg hMask]
            cases hBlock : call.block with
            | none => exact ⟨[], (r.drops + 1) % 2 ^ 32, rfl, rfl⟩
            | some block =>
                refine ⟨_, 0, rfl, ?_⟩
                rw [List.map_singleton, decodeFrame_msgFill call r.drops constBlk hArgs]
                rfl

end Writers

/-! ## Whole runs -/

section Runs

variable {n turns : Nat}

/-- The services are where the reports are. -/
structure Follows (s : Services) (r : Reporting) : Prop where
  reading : s.thread.state = .reading
  shows : s.masks.Shows r.filters
  drops : s.msgDropDelta = r.drops
  undefined : s.undefined = r.undefined

/-- Step lemma: the frames of a step are decoded as its reports. -/
theorem serviceStep_follows (hProcs : n < 2 ^ 31) (hTurns : readBufSize < turns)
    {s : Services} {r : Reporting} (h : Follows s r) (e : ServiceEvent n) :
    Follows (serviceStep turns s e).1 (reportStep r e).1 ∧
      (serviceStep turns s e).2.map decodeFrame = (reportStep r e).2 := by
  cases e with
  | incoming x hWell =>
      obtain ⟨hReading, hShows, -⟩ :=
        maskTurn_incoming hProcs hTurns h.reading h.shows hWell
      exact ⟨⟨hReading, hShows, h.drops, h.undefined⟩, rfl⟩
  | log mem ptr call =>
      obtain ⟨frames, hFrames, hReports⟩ := logSubmit_reports call h.shows mem ptr
      simp only [serviceStep, hFrames, Services.answer, reportStep]
      exact ⟨h, hReports⟩
  | event id payload hByte call =>
      obtain ⟨frames, hFrames, hReports⟩ := eventReportPayload_reports call h.shows id hByte
      simp only [serviceStep, hFrames, Services.answer, reportStep]
      exact ⟨h, hReports⟩
  | msg constBlk args hByte timestamp call =>
      have hSend := msgSend_reports call h.shows r constBlk hByte timestamp
      rw [← h.drops] at hSend
      simp only [serviceStep, reportStep]
      cases hMask : r.filters.ssidMask constBlk.ssId.toNat with
      | none =>
          rw [hMask] at hSend
          simp only [hSend]
          exact ⟨⟨h.reading, h.shows, h.drops, rfl⟩, rfl⟩
      | some found =>
          cases found with
          | none =>
              rw [hMask] at hSend
              simp only [hSend]
              exact ⟨⟨h.reading, h.shows, h.drops, h.undefined⟩, rfl⟩
          | some rtMask =>
              rw [hMask] at hSend
              obtain ⟨frames, dropDelta, hFrames, hReports⟩ := hSend
              simp only [hFrames, hReports]
              exact ⟨⟨h.reading, h.shows, rfl, h.undefined⟩, trivial⟩

/-- The services when the process starts. -/
def Services.start (thread : ReadThread) : Services := ⟨thread, Masks.init, 0, false⟩

/-- Nothing is enabled, and nothing was lost. -/
def Reporting.start : Reporting := ⟨Filters.init, 0, false⟩

theorem follows_start {thread : ReadThread} (hReading : thread.state = .reading) :
    Follows (Services.start thread) Reporting.start :=
  ⟨hReading, shows_init, rfl, rfl⟩

/-- Run lemma: the services stay where the reports are. -/
theorem follows_run (hProcs : n < 2 ^ 31) (hTurns : readBufSize < turns)
    {thread : ReadThread} (hReading : thread.state = .reading)
    (events : List (ServiceEvent n)) :
    Follows (run (serviceStep turns) (Services.start thread) events).1
        (run reportStep Reporting.start events).1 ∧
      (run (serviceStep turns) (Services.start thread) events).2.map decodeFrame =
        (run reportStep Reporting.start events).2 := by
  have hRun := run_refines (fun s e => ((serviceStep turns s e).1,
    (serviceStep turns s e).2.map decodeFrame)) reportStep Follows
    (fun s r e h => serviceStep_follows hProcs hTurns h e) (follows_start hReading) events
  rwa [run_map] at hRun

theorem length_log_message (items : Nat → Nat) (enabled : Nat → Bool) :
    (MaskMessage.log items enabled).encode.length ≤ readBufSize := by
  simp [MaskMessage.encode, List.length_flatMap, maxEquipId, logMaskItemSize, readBufSize]

theorem length_event_message (enabled : Nat → Bool) :
    (MaskMessage.event enabled).encode.length ≤ readBufSize := by
  simp [MaskMessage.encode, eventMaskSize, eventLastId, readBufSize]

theorem length_msg_message {rows : List SsidRow} (h : rows.length ≤ 100) :
    (MaskMessage.msg rows).encode.length ≤ readBufSize := by
  simp only [MaskMessage.encode, List.length_append, length_intBytes, length_rowsBytes,
    rowSize, maxSsidPerRange, readBufSize]
  omega

/-- A message `%d` of subsystem 3, from `/src/a`. -/
def sampleMsg : MsgConst :=
  ⟨7, 3, 4, [37, 100], [47, 115, 114, 99, 47, 97], by simp, by simp⟩

/-- A call with an empty block, and one without. -/
def sampleCall : ReportCall := ⟨some fun _ => 0, 1500000000, 250000⟩

end Runs

/-! ### The search for a subsystem -/

section Search

variable {n turns : Nat}

/-- A row ends the search: the first one that is not used or has the subsystem,
and then its mask lies in the table. -/
def SearchEnds (ssid : Int) (rows : List SsidRow) : Prop :=
  ∃ before r after, rows = before ++ r :: after ∧
    (∀ q ∈ before, q.last ≠ 0 ∧ ¬ q.Covers ssid) ∧
    (r.last = 0 ∨ r.Covers ssid ∧ (ssid - intT r.first.toNat).toNat <
      maxSsidPerRange + (maxSsidPerRange + 3) * after.length)

theorem searchEnds_cons {ssid : Int} {r : SsidRow} {rows : List SsidRow}
    (hUsed : r.last ≠ 0) (hOther : ¬ r.Covers ssid) :
    SearchEnds ssid (r :: rows) ↔ SearchEnds ssid rows := by
  constructor
  · rintro ⟨before, q, after, hSplit, hBefore, hEnd⟩
    cases before with
    | nil =>
        obtain ⟨rfl, rfl⟩ := List.cons.inj hSplit
        exact absurd hEnd (by simp [hUsed, hOther])
    | cons p before =>
        obtain ⟨rfl, rfl⟩ := List.cons.inj hSplit
        exact ⟨before, q, after, rfl,
          fun q' hMem => hBefore q' (List.mem_cons_of_mem _ hMem), hEnd⟩
  · rintro ⟨before, q, after, rfl, hBefore, hEnd⟩
    refine ⟨r :: before, q, after, rfl, fun q' hMem => ?_, hEnd⟩
    rcases List.mem_cons.mp hMem with rfl | hMem
    · exact ⟨hUsed, hOther⟩
    · exact hBefore q' hMem

/-- A row that stops the search decides it alone. -/
theorem searchEnds_stop {ssid : Int} {r : SsidRow} {rows : List SsidRow}
    (hStops : r.last = 0 ∨ r.Covers ssid) :
    SearchEnds ssid (r :: rows) ↔ r.last = 0 ∨ r.Covers ssid ∧
      (ssid - intT r.first.toNat).toNat <
        maxSsidPerRange + (maxSsidPerRange + 3) * rows.length := by
  constructor
  · rintro ⟨before, q, after, hSplit, hBefore, hEnd⟩
    cases before with
    | nil =>
        obtain ⟨rfl, rfl⟩ := List.cons.inj hSplit
        exact hEnd
    | cons p before =>
        obtain ⟨rfl, rfl⟩ := List.cons.inj hSplit
        obtain ⟨hUsed, hOther⟩ := hBefore r List.mem_cons_self
        exact absurd hStops (by simp [hUsed, hOther])
  · exact fun hEnd => ⟨[], r, rows, rfl, by simp, hEnd⟩

theorem lookupRows_isSome_iff (ssid : Int) (rows : List SsidRow) :
    (lookupRows ssid rows).isSome ↔ SearchEnds ssid rows := by
  induction rows with
  | nil =>
      refine ⟨fun h => absurd h (by simp [lookupRows]), ?_⟩
      rintro ⟨before, q, after, hSplit, -⟩
      exact absurd hSplit (by simp)
  | cons r rows ih =>
      by_cases hEnds : r.last = 0
      · rw [searchEnds_stop (Or.inl hEnds), lookupRows, if_pos hEnds]
        simp [hEnds]
      · by_cases hCovers : r.Covers ssid
        · have hLength : ((r :: rows).flatMap SsidRow.words).length =
              (maxSsidPerRange + 3) * (rows.length + 1) := by
            simp [List.length_flatMap, Nat.mul_comm, Nat.mul_add]
            omega
          rw [searchEnds_stop (Or.inr hCovers), lookupRows, if_neg hEnds, if_pos hCovers,
            Option.isSome_map, isSome_getElem?, hLength]
          simp only [hEnds, hCovers, false_or, true_and, maxSsidPerRange]
          omega
        · rw [searchEnds_cons hEnds hCovers, ← ih, lookupRows, if_neg hEnds, if_neg hCovers]

/-- The search for the subsystem of a message ends within the table. -/
def ServiceEvent.Inside (r : Reporting) : ServiceEvent n → Prop
  | .msg constBlk _ _ _ _ => SearchEnds constBlk.ssId.toNat (List.ofFn r.filters.rows)
  | _ => True

theorem reportMsg_undefined (r : Reporting) (rtMask : Nat) (constBlk : MsgConst)
    (args : List UInt32) (timestamp : Option UInt64) (call : ReportCall) :
    (reportMsg r rtMask constBlk args timestamp call).1.undefined = r.undefined := by
  unfold reportMsg
  split
  · rfl
  · split
    · rfl
    · rfl

theorem reportStep_undefined (r : Reporting) (e : ServiceEvent n)
    (hDefined : r.undefined = false) :
    (reportStep r e).1.undefined = false ↔ e.Inside r := by
  cases e with
  | incoming x hWell => simp [reportStep, ServiceEvent.Inside, hDefined]
  | log mem ptr call => simp [reportStep, ServiceEvent.Inside, hDefined]
  | event id payload hByte call => simp [reportStep, ServiceEvent.Inside, hDefined]
  | msg constBlk args hByte timestamp call =>
      rw [ServiceEvent.Inside, ← lookupRows_isSome_iff, reportStep]
      show _ ↔ (r.filters.ssidMask constBlk.ssId.toNat).isSome
      cases r.filters.ssidMask constBlk.ssId.toNat with
      | none => simp
      | some found =>
          cases found with
          | none => simp [hDefined]
          | some rtMask => simp [reportMsg_undefined, hDefined]

/-- Every search for the subsystem of a message meets a row that ends it. -/
def SearchesInside (events : List (ServiceEvent n)) : Prop :=
  ∀ past e later, events = past ++ e :: later →
    e.Inside (run reportStep Reporting.start past).1

theorem searchesInside_iff (events : List (ServiceEvent n)) :
    (∀ past later, events = past ++ later →
        (run reportStep Reporting.start past).1.undefined = false) ↔
      SearchesInside events :=
  run_safe_iff (reportStep (n := n)) (fun r => r.undefined = false)
    (fun r => r.undefined = false) (fun r e => e.Inside r) (fun _ h => h)
    (fun r e h hInside => (reportStep_undefined r e h).mpr hInside)
    (fun r e h hNot hEnd => hNot ((reportStep_undefined r e h).mp hEnd))
    (rfl : Reporting.start.undefined = false) events

/-- No table is read beyond its end, in any run, exactly if every search for the
subsystem of a message meets a row that ends it. -/
theorem searches_inside_iff (hProcs : n < 2 ^ 31) (hTurns : readBufSize < turns)
    {thread : ReadThread} (hReading : thread.state = .reading)
    (events : List (ServiceEvent n)) :
    (∀ past later, events = past ++ later →
        (run (serviceStep turns) (Services.start thread) past).1.undefined = false) ↔
      ∀ past e later, events = past ++ e :: later →
        e.Inside (run reportStep Reporting.start past).1 := by
  refine Iff.trans ?_ (searchesInside_iff events)
  refine forall_congr' fun past => forall_congr' fun later => ?_
  rw [(follows_run hProcs hTurns hReading past).1.undefined]

/-- A table all of whose rows are used, none of them for subsystem 3. -/
def fullTable : List SsidRow := List.replicate msgMaskTblCnt ⟨100, 110, 110, fun _ => 6⟩

/-- The search for subsystem 3 then runs off the end. -/
theorem searches_inside_iff_fullTable :
    ¬ ∀ past later,
      [.incoming (.mask (.msg fullTable)) ⟨trivial, length_msg_message (by decide)⟩,
        .msg sampleMsg [] (by decide) none sampleCall] = past ++ later →
      (run (serviceStep (n := 1) (readBufSize + 1)) (Services.start sampleThread)
        past).1.undefined = false := by
  rw [searches_inside_iff (by decide) (Nat.lt_succ_self _) rfl]
  intro hAll
  have hEnds := hAll [_] _ [] rfl
  rw [ServiceEvent.Inside, ← lookupRows_isSome_iff] at hEnds
  exact absurd hEnds (by decide)

end Search

/-! ### The start of the library -/

section Sync

variable {n turns : Nat}

/-- The bit an event sets in `diag_sync_mask`. -/
def ServiceEvent.syncBit : ServiceEvent n → Nat
  | .incoming x _ => x.syncBit
  | _ => 0

theorem serviceStep_syncMask (hProcs : n < 2 ^ 31) (hTurns : readBufSize < turns)
    {s : Services} {r : Reporting} (h : Follows s r) (e : ServiceEvent n) :
    (serviceStep turns s e).1.masks.diagSyncMask = s.masks.diagSyncMask ||| e.syncBit := by
  cases e with
  | incoming x hWell =>
      exact (maskTurn_incoming hProcs hTurns h.reading h.shows hWell).2.2
  | log mem ptr call =>
      simp only [serviceStep, ServiceEvent.syncBit, Nat.or_zero]
      cases logSubmit s.masks call mem ptr with
      | none => rfl
      | some frames => rfl
  | event id payload hByte call =>
      simp only [serviceStep, ServiceEvent.syncBit, Nat.or_zero]
      cases eventReportPayload s.masks call id payload with
      | none => rfl
      | some frames => rfl
  | msg constBlk args hByte timestamp call =>
      simp only [serviceStep, ServiceEvent.syncBit, Nat.or_zero]
      cases msgSend s.masks call s.msgDropDelta constBlk args timestamp with
      | none => rfl
      | some sent => rfl

/-- Run lemma: a bit is set exactly if an event has set it. -/
theorem testBit_syncMask (hProcs : n < 2 ^ 31) (hTurns : readBufSize < turns)
    {thread : ReadThread} (hReading : thread.state = .reading) (i : Nat)
    (events : List (ServiceEvent n)) :
    (run (serviceStep turns) (Services.start thread) events).1.masks.diagSyncMask.testBit i ↔
      ∃ e ∈ events, e.syncBit.testBit i := by
  induction events using List.reverseRecOn with
  | nil => simp [Services.start, Masks.init]
  | append_singleton events e ih =>
      have hFollows := (follows_run hProcs hTurns hReading events).1
      rw [run_append, run_singleton, serviceStep_syncMask hProcs hTurns hFollows,
        Nat.testBit_or, Bool.or_eq_true, ih]
      simp only [List.mem_append, List.mem_singleton]
      constructor
      · rintro (⟨e', hMem, hBit⟩ | hBit)
        · exact ⟨e', Or.inl hMem, hBit⟩
        · exact ⟨e, Or.inr rfl, hBit⟩
      · rintro ⟨e', hMem | rfl, hBit⟩
        · exact Or.inl ⟨e', hMem, hBit⟩
        · exact Or.inr hBit

/-- The wait ends well if one of the looks finds the masks complete. -/
theorem maskSyncLoop_iff (syncMask : Nat → Nat) {count : Nat} (hCount : count ≤ 50) :
    maskSyncLoop syncMask count ↔ ∃ k, count ≤ k ∧ k ≤ 50 ∧ syncMask k = 1 ||| 2 ||| 4 := by
  obtain ⟨left, hLeft⟩ : ∃ left, count + left = 50 := ⟨50 - count, by omega⟩
  induction left generalizing count with
  | zero =>
      rw [maskSyncLoop]
      have hLast (k : Nat) (hLow : count ≤ k) (hHigh : k ≤ 50) : k = count := by omega
      by_cases hComplete : syncMask count = 1 ||| 2 ||| 4
      · rw [if_pos hComplete]
        exact iff_of_true rfl ⟨count, Nat.le_refl count, hCount, hComplete⟩
      · rw [if_neg hComplete, if_pos (by omega)]
        refine iff_of_false (by simp) ?_
        rintro ⟨k, hLow, hHigh, hFound⟩
        rw [hLast k hLow hHigh] at hFound
        exact hComplete hFound
  | succ left ih =>
      rw [maskSyncLoop]
      by_cases hComplete : syncMask count = 1 ||| 2 ||| 4
      · rw [if_pos hComplete]
        exact iff_of_true rfl ⟨count, Nat.le_refl count, hCount, hComplete⟩
      · rw [if_neg hComplete, if_neg (by omega), ih (by omega) (by omega)]
        constructor
        · rintro ⟨k, hLow, hHigh, hFound⟩
          exact ⟨k, by omega, hHigh, hFound⟩
        · rintro ⟨k, hLow, hHigh, hFound⟩
          have hNot : k ≠ count := fun hEq => hComplete (hEq ▸ hFound)
          exact ⟨k, by omega, hHigh, hFound⟩

/-- A mask of each of the three kinds is among the events. -/
def AllKinds (events : List (ServiceEvent n)) : Prop :=
  (∃ rows hWell, .incoming (.mask (.msg rows)) hWell ∈ events) ∧
    (∃ items enabled hWell, .incoming (.mask (.log items enabled)) hWell ∈ events) ∧
    ∃ enabled hWell, .incoming (.mask (.event enabled)) hWell ∈ events

theorem ServiceEvent.syncBit_cases (e : ServiceEvent n) :
    e.syncBit = 0 ∨
      (e.syncBit = 1 ∧ ∃ rows hWell, e = .incoming (.mask (.msg rows)) hWell) ∨
      (e.syncBit = 2 ∧ ∃ items enabled hWell, e = .incoming (.mask (.log items enabled)) hWell) ∨
      (e.syncBit = 4 ∧ ∃ enabled hWell, e = .incoming (.mask (.event enabled)) hWell) := by
  cases e with
  | incoming x hWell =>
      cases x with
      | mask msg =>
          cases msg with
          | msg rows => exact Or.inr (Or.inl ⟨rfl, rows, hWell, rfl⟩)
          | log items enabled => exact Or.inr (Or.inr (Or.inl ⟨rfl, items, enabled, hWell, rfl⟩))
          | event enabled => exact Or.inr (Or.inr (Or.inr ⟨rfl, enabled, hWell, rfl⟩))
          | dciLog clients dirty enabled => exact Or.inl rfl
          | dciEvent clients enabled => exact Or.inl rfl
      | data block => exact Or.inl rfl
  | log mem ptr call => exact Or.inl rfl
  | event id payload hByte call => exact Or.inl rfl
  | msg constBlk args hByte timestamp call => exact Or.inl rfl

theorem allKinds_iff (events : List (ServiceEvent n)) :
    AllKinds events ↔ ∀ i < 3, ∃ e ∈ events, e.syncBit.testBit i := by
  constructor
  · rintro ⟨⟨rows, hWell, hMsg⟩, ⟨items, enabled, hWell', hLog⟩, enabled', hWell'', hEvent⟩ i hi
    obtain rfl | rfl | rfl : i = 0 ∨ i = 1 ∨ i = 2 := by omega
    · exact ⟨_, hMsg, (by decide : (1 : Nat).testBit 0)⟩
    · exact ⟨_, hLog, (by decide : (2 : Nat).testBit 1)⟩
    · exact ⟨_, hEvent, (by decide : (4 : Nat).testBit 2)⟩
  · intro hBits
    -- The bit tells which of the kinds has set it.
    have hOnly {e : ServiceEvent n} {i bit : Nat} (hBit : e.syncBit.testBit i)
        (hEq : e.syncBit = bit) : bit.testBit i := hEq ▸ hBit
    refine ⟨?_, ?_, ?_⟩
    · obtain ⟨e, hMem, hBit⟩ := hBits 0 (by decide)
      obtain h | ⟨-, rows, hWell, rfl⟩ | ⟨h, -⟩ | ⟨h, -⟩ := e.syncBit_cases
      · exact absurd (hOnly hBit h) (by decide)
      · exact ⟨rows, hWell, hMem⟩
      · exact absurd (hOnly hBit h) (by decide)
      · exact absurd (hOnly hBit h) (by decide)
    · obtain ⟨e, hMem, hBit⟩ := hBits 1 (by decide)
      obtain h | ⟨h, -⟩ | ⟨-, items, enabled, hWell, rfl⟩ | ⟨h, -⟩ := e.syncBit_cases
      · exact absurd (hOnly hBit h) (by decide)
      · exact absurd (hOnly hBit h) (by decide)
      · exact ⟨items, enabled, hWell, hMem⟩
      · exact absurd (hOnly hBit h) (by decide)
    · obtain ⟨e, hMem, hBit⟩ := hBits 2 (by decide)
      obtain h | ⟨h, -⟩ | ⟨h, -⟩ | ⟨-, enabled, hWell, rfl⟩ := e.syncBit_cases
      · exact absurd (hOnly hBit h) (by decide)
      · exact absurd (hOnly hBit h) (by decide)
      · exact absurd (hOnly hBit h) (by decide)
      · exact ⟨enabled, hWell, hMem⟩

theorem eq_complete_iff {x : Nat} (hSmall : x < 8) :
    x = 1 ||| 2 ||| 4 ↔ ∀ i < 3, x.testBit i := by
  revert x
  decide

/-- The masks are complete once one of each kind has come. -/
theorem syncMask_complete_iff (hProcs : n < 2 ^ 31) (hTurns : readBufSize < turns)
    {thread : ReadThread} (hReading : thread.state = .reading)
    (events : List (ServiceEvent n)) :
    (run (serviceStep turns) (Services.start thread) events).1.masks.diagSyncMask =
      1 ||| 2 ||| 4 ↔ AllKinds events := by
  have hBits := fun i => testBit_syncMask hProcs hTurns hReading i events
  have hSmall : (run (serviceStep turns) (Services.start thread)
      events).1.masks.diagSyncMask < 2 ^ 3 := by
    refine Nat.lt_pow_two_of_testBit _ fun i hi => Bool.eq_false_iff.mpr fun hBit => ?_
    obtain ⟨e, -, hOwn⟩ := (hBits i).mp hBit
    have hBelow : e.syncBit < 2 ^ 3 := by
      obtain h | ⟨h, -⟩ | ⟨h, -⟩ | ⟨h, -⟩ := e.syncBit_cases
      · omega
      · omega
      · omega
      · omega
    have hNone := Nat.testBit_lt_two_pow (Nat.lt_of_lt_of_le hBelow
      (Nat.pow_le_pow_right (by decide) hi))
    exact absurd hOwn (by simp [hNone])
  rw [eq_complete_iff hSmall, allKinds_iff]
  simp only [hBits]

/-- `do_mask_sync` looks at the masks at once and after each nap, while the process
goes on.  It gives up after 51 naps, whatever the look after the last of them finds:
it succeeds exactly if a mask of each kind has come by the look after 50 naps. -/
theorem maskSync_iff (hProcs : n < 2 ^ 31) (hTurns : readBufSize < turns)
    {thread : ReadThread} (hReading : thread.state = .reading)
    (events : List (ServiceEvent n)) {look : Nat → Nat} (hLook : Monotone look) :
    doMaskSync (fun k => (run (serviceStep turns) (Services.start thread)
        (events.take (look k))).1.masks.diagSyncMask) ↔
      AllKinds (events.take (look 50)) := by
  rw [doMaskSync, maskSyncLoop_iff _ (Nat.zero_le 50)]
  simp only [syncMask_complete_iff hProcs hTurns hReading]
  constructor
  · rintro ⟨k, -, hLast, hMsg, hLog, hEvent⟩
    have hPast {e : ServiceEvent n} (hMem : e ∈ events.take (look k)) :
        e ∈ events.take (look 50) :=
      (List.take_subset_take_left events (hLook hLast)) hMem
    obtain ⟨rows, hWell, hMem⟩ := hMsg
    obtain ⟨items, enabled, hWell', hMem'⟩ := hLog
    obtain ⟨enabled', hWell'', hMem''⟩ := hEvent
    exact ⟨⟨rows, hWell, hPast hMem⟩, ⟨items, enabled, hWell', hPast hMem'⟩,
      ⟨enabled', hWell'', hPast hMem''⟩⟩
  · exact fun hAll => ⟨50, Nat.zero_le 50, Nat.le_refl 50, hAll⟩

/-- Masks of the three kinds that come one after the other. -/
def threeMasks : List (ServiceEvent 1) :=
  [.incoming (.mask (.log (fun _ => 0) fun _ => true)) ⟨trivial, length_log_message _ _⟩,
    .incoming (.mask (.msg [])) ⟨trivial, length_msg_message (by decide)⟩,
    .incoming (.mask (.event fun _ => true)) ⟨trivial, length_event_message _⟩]

theorem maskSync_iff_three :
    doMaskSync fun k => (run (serviceStep (readBufSize + 1)) (Services.start sampleThread)
      (threeMasks.take k)).1.masks.diagSyncMask :=
  (maskSync_iff (by decide) (Nat.lt_succ_self _) rfl threeMasks
    (monotone_id : Monotone fun k : Nat => k)).mpr (by
      refine ⟨⟨[], ?_⟩, ⟨fun _ => 0, fun _ => true, ?_⟩, fun _ => true, ?_⟩
      · exact ⟨_, List.mem_cons_of_mem _ List.mem_cons_self⟩
      · exact ⟨_, List.mem_cons_self⟩
      · exact ⟨_, List.mem_cons_of_mem _ (List.mem_cons_of_mem _ List.mem_cons_self)⟩)

end Sync

end Dci
end MgComm
