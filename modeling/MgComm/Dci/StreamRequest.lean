import MgComm.Dci.LogCodes
import MgComm.Dci.ReadThread

/-!
# Log requests on the wire

`diag_log_stream_config` copies a header and the log codes into `dci_req_buf` and
writes so many bytes of it to the driver.  This module follows the bytes: what
lies in the buffer is decoded as the request it was made from
(`decodeRequest_encode`), whatever was there before.

A `StreamDriver` sees nothing but these bytes.  It enables or disables the codes
of the requests it accepts, for the client they name.  With it the assumption on
the device under which `_log_codes` mirrors the enabled codes is a consequence of
the format: after any configuration calls, whichever of them the driver refuses,
`_log_codes` is what the driver has enabled for this client, other clients are
left alone, and nothing outside of `dci_req_buf` was written (`wire_mirrors`).
-/

namespace MgComm
namespace Dci

universe u v

open WireWords

/-- The bytes of a request as `memcpy` lays them out. -/
def DciRequest.headerBytes (r : DciRequest) : List Byte :=
  intBytes r.header.start ++ (intBytes r.header.type ++ (intBytes r.header.clientId ++
    (intBytes r.header.setFlag ++ intBytes r.header.count)))

/-- The bytes of `log_codes_array`. -/
def codesBytes (codes : List UInt16) : List Byte :=
  codes.flatMap fun code => wordBytes 2 code.toNat

/-- The bytes of the whole request. -/
def DciRequest.encode (r : DciRequest) : List Byte :=
  r.headerBytes ++ codesBytes r.codes

/-- A request read by its header; none if it is cut off. -/
def decodeRequest (bytes : List Byte) : Option DciRequest :=
  let mem := writeBytes (fun _ => 0) 0 bytes
  let count := readInt mem 16
  if 0 ≤ count ∧ headerLen + 2 * count.toNat ≤ bytes.length then
    some {
      header := ⟨readInt mem 0, readInt mem 4, readInt mem 8, readInt mem 12, count⟩
      codes := (List.range count.toNat).map fun k => readUint16 mem (headerLen + 2 * k) }
  else none

/-- The fields are `int`s, and the count is that of the codes. -/
structure DciRequest.WellFormed (r : DciRequest) : Prop where
  start : -2 ^ 31 ≤ r.header.start ∧ r.header.start < 2 ^ 31
  type : -2 ^ 31 ≤ r.header.type ∧ r.header.type < 2 ^ 31
  clientId : -2 ^ 31 ≤ r.header.clientId ∧ r.header.clientId < 2 ^ 31
  setFlag : -2 ^ 31 ≤ r.header.setFlag ∧ r.header.setFlag < 2 ^ 31
  count : r.header.count = r.codes.length ∧ r.codes.length < 2 ^ 31

@[simp] theorem length_headerBytes (r : DciRequest) :
    r.headerBytes.length = headerLen := by
  simp [DciRequest.headerBytes, headerLen]

@[simp] theorem length_codesBytes (codes : List UInt16) :
    (codesBytes codes).length = 2 * codes.length := by
  simp [codesBytes, List.length_flatMap, Nat.mul_comm]

theorem length_encode (r : DciRequest) :
    r.encode.length = headerLen + 2 * r.codes.length := by
  simp [DciRequest.encode]

/-- Codes are read where they were written. -/
theorem readCodes {mem : Nat → Byte} {addr : Nat} {codes : List UInt16}
    (h : Holds mem addr (codesBytes codes)) :
    ((List.range codes.length).map fun k => readUint16 mem (addr + 2 * k)) = codes := by
  induction codes generalizing addr with
  | nil => rfl
  | cons code codes ih =>
      rw [codesBytes, List.flatMap_cons, holds_append, length_wordBytes] at h
      obtain ⟨hHead, hTail⟩ := h
      have hCode : readUint16 mem addr = code :=
        UInt16.toNat_inj.mp (readUint16_wordBytes hHead code.toNat_lt)
      rw [List.length_cons, List.range_succ_eq_map, List.map_cons, List.map_map,
        Nat.mul_zero, Nat.add_zero, hCode]
      refine congrArg _ (Eq.trans (List.map_congr_left fun k _ => ?_) (ih hTail))
      show readUint16 mem (addr + 2 * (k + 1)) = readUint16 mem (addr + 2 + 2 * k)
      rw [show addr + 2 * (k + 1) = addr + 2 + 2 * k by omega]

/-- Round trip of a request. -/
theorem decodeRequest_encode {r : DciRequest} (h : r.WellFormed) :
    decodeRequest r.encode = some r := by
  have hHolds := holds_writeBytes (fun _ => 0) 0 r.encode
  set mem := writeBytes (fun _ => 0) 0 r.encode with hMem
  rw [DciRequest.encode, holds_append, length_headerBytes, DciRequest.headerBytes] at hHolds
  simp only [holds_append, length_intBytes] at hHolds
  obtain ⟨⟨hStart, hType, hClient, hFlag, hCount⟩, hCodes⟩ := hHolds
  have hCountLow : -2 ^ 31 ≤ r.header.count := by
    rw [h.count.1]
    omega
  have hCountHigh : r.header.count < 2 ^ 31 := by
    rw [h.count.1]
    exact_mod_cast h.count.2
  have hReadCount : readInt mem 16 = r.codes.length :=
    (readInt_intBytes hCount hCountLow hCountHigh).trans h.count.1
  have hReadCodes := readCodes hCodes
  rw [decodeRequest, ← hMem]
  simp only [hReadCount, Int.toNat_natCast, length_encode, Nat.le_refl, and_true,
    Int.natCast_nonneg, if_true]
  rw [readInt_intBytes hStart h.start.1 h.start.2, readInt_intBytes hType h.type.1 h.type.2,
    readInt_intBytes hClient h.clientId.1 h.clientId.2,
    readInt_intBytes hFlag h.setFlag.1 h.setFlag.2, ← h.count.1]
  rw [Nat.zero_add] at hReadCodes
  rw [hReadCodes]

/-! ## The driver -/

/-- What an accepted request does to the codes that are enabled for a client. -/
def DciRequest.apply (r : DciRequest) (clientId : Int) (codes : Finset UInt16) :
    Finset UInt16 :=
  if r.header.start = dciDataType ∧ r.header.type = dciLogType ∧
      r.header.clientId = clientId then
    if r.header.setFlag = 0 then codes \ r.codes.toFinset else codes ∪ r.codes.toFinset
  else codes

/-- A driver that goes by the bytes it is given. -/
structure StreamDriver (δ : Type v) where
  /-- `write(fd, buf, bytes)` -/
  write : List Byte → δ → Int × δ
  enabled : δ → Int → Finset UInt16
  accepted : ∀ bytes d, (write bytes d).1 = DiagDciError.noError.value →
    ∀ clientId, enabled (write bytes d).2 clientId =
      (decodeRequest bytes).elim (enabled d clientId)
        fun r => r.apply clientId (enabled d clientId)
  refused : ∀ bytes d, (write bytes d).1 ≠ DiagDciError.noError.value →
    enabled (write bytes d).2 = enabled d

section Wire

variable {H : Type u} {δ : Type v} (driver : StreamDriver δ)

/-- The two `memcpy` of `diag_log_stream_config`. -/
def fillReqBuf (mem : Nat → Byte) (dciReqBuf : Nat) (r : DciRequest) : Nat → Byte :=
  writeBytes (writeBytes mem dciReqBuf r.headerBytes) (dciReqBuf + headerLen)
    (codesBytes r.codes)

/-- The request buffer is filled and written to the driver. -/
def StreamDriver.send (dciReqBuf : Nat) (r : DciRequest) (bytes : Nat)
    (st : (Nat → Byte) × δ) : Int × (Nat → Byte) × δ :=
  let mem := fillReqBuf st.1 dciReqBuf r
  let (bytesWritten, d) := driver.write (slice mem dciReqBuf bytes) st.2
  (bytesWritten, mem, d)

theorem writeBytes_other {mem : Nat → Byte} {addr a : Nat} {bytes : List Byte}
    (h : a < addr ∨ addr + bytes.length ≤ a) : writeBytes mem addr bytes a = mem a := by
  unfold writeBytes
  rcases h with hBelow | hAbove
  · rw [if_neg (by omega)]
  · rw [if_pos (by omega), List.getD_eq_getElem?_getD, List.getElem?_eq_none (by omega)]
    rfl

/-- Bytes stay where another string is written. -/
theorem Holds.writeBytes_other {mem : Nat → Byte} {addr addr' : Nat}
    {bytes bytes' : List Byte} (h : Holds mem addr bytes)
    (hApart : addr + bytes.length ≤ addr') :
    Holds (writeBytes mem addr' bytes') addr bytes := by
  induction bytes generalizing addr with
  | nil => trivial
  | cons b bytes ih =>
      rw [List.length_cons] at hApart
      refine ⟨?_, ih h.2 (by omega)⟩
      rw [Dci.writeBytes_other (Or.inl (by omega))]
      exact h.1

/-- The buffer holds the request, and nothing else is written. -/
theorem fillReqBuf_holds (mem : Nat → Byte) (dciReqBuf : Nat) (r : DciRequest) :
    Holds (fillReqBuf mem dciReqBuf r) dciReqBuf r.encode := by
  rw [DciRequest.encode, holds_append, length_headerBytes]
  refine ⟨Holds.writeBytes_other (holds_writeBytes _ _ _) ?_, holds_writeBytes _ _ _⟩
  rw [length_headerBytes]

theorem fillReqBuf_other (mem : Nat → Byte) {dciReqBuf a : Nat} {r : DciRequest}
    (h : a < dciReqBuf ∨ dciReqBuf + (headerLen + 2 * r.codes.length) ≤ a) :
    fillReqBuf mem dciReqBuf r a = mem a := by
  unfold fillReqBuf
  rw [writeBytes_other, writeBytes_other]
  · rw [length_headerBytes]
    omega
  · rw [length_codesBytes]
    omega

/-- The request `_dci_configure_logs` makes. -/
def logRequest (clientId : Int) (action : Action) (codes : List UInt16) : DciRequest where
  header := ⟨dciDataType, dciLogType, clientId, action.toInt, codes.length⟩
  codes := codes

/-- What `_dci_configure_logs` does: nothing, or it sends one request, and returns 0
if the driver takes it. -/
theorem dciConfigureLogs_cases {ε : Type v} (order : IterationOrder)
    (write : DciRequest → Nat → ε → Int × ε) (lib : DiagLib) (clientId : Int)
    (action : Action) (codes : Finset UInt16) (d : ε) :
    dciConfigureLogs order write lib clientId action codes d = (1, d) ∨
      headerLen + 2 * (order.elements codes).length ≤ dciMaxReqBufSize ∧
      dciConfigureLogs order write lib clientId action codes d =
        let sent := write (logRequest clientId action (order.elements codes))
          (headerLen + 2 * (order.elements codes).length) d
        (if sent.1 = DiagDciError.noError.value then 0 else 1, sent.2) := by
  have hLength : (order.elements codes).length ≤ 65536 := by
    rw [order.length_elements]
    have hBound := Finset.card_le_card_of_injOn (s := codes)
      (t := Finset.range 65536) UInt16.toNat
      (fun c _ => by simpa using c.toNat_lt) (fun a _ b _ h => UInt16.toNat_inj.mp h)
    simpa using hBound
  have hDataLen : (2 * ((order.elements codes).length : Int) % 2 ^ 32).toNat =
      2 * (order.elements codes).length := by
    omega
  have hTotal : (headerLen + 2 * (order.elements codes).length) % 2 ^ 32 =
      headerLen + 2 * (order.elements codes).length := by
    simp only [headerLen]
    omega
  have hTake : (order.elements codes).take
      ((order.elements codes).length : Int).toNat = order.elements codes := by
    simp
  simp only [dciConfigureLogs, diagLogStreamConfig, hDataLen, hTotal, hTake]
  by_cases hProc : isValidDciProc lib (diagDciGetProc lib clientId) = false
  · exact Or.inl (by simp [hProc, DiagDciError.value])
  by_cases hSome : ((order.elements codes).length : Int) < 1
  · exact Or.inl (by simp [hProc, hSome, DiagDciError.value])
  by_cases hBuf : hasReqBuf lib (diagDciGetProc lib clientId) = false
  · exact Or.inl (by simp [hProc, hSome, hBuf, DiagDciError.value])
  by_cases hFits : headerLen + 2 * (order.elements codes).length > dciMaxReqBufSize
  · exact Or.inl (by simp [hProc, hSome, hBuf, hFits, DiagDciError.value])
  refine Or.inr ⟨Nat.le_of_not_lt hFits, ?_⟩
  simp only [hProc, hSome, hBuf, hFits, if_false, diagSendData, if_true, logRequest]
  by_cases hSent : (write ⟨⟨dciDataType, dciLogType, clientId, action.toInt,
      (order.elements codes).length⟩, order.elements codes⟩
      (headerLen + 2 * (order.elements codes).length) d).1 = 1001
  · simp [hSent, DiagDciError.value]
  · simp [hSent, DiagDciError.value]

/-! ## The enabled codes -/

/-- The request of a proper client says what is meant. -/
theorem logRequest_wellFormed {clientId : Int} (hLow : -2 ^ 31 ≤ clientId)
    (hHigh : clientId < 2 ^ 31) (action : Action) {codes : List UInt16}
    (hFits : headerLen + 2 * codes.length ≤ dciMaxReqBufSize) :
    (logRequest clientId action codes).WellFormed where
  start := by simp [logRequest, dciDataType]
  type := by simp [logRequest, dciLogType]
  clientId := ⟨hLow, hHigh⟩
  setFlag := by cases action <;> simp [logRequest, Action.toInt]
  count := by
    refine ⟨rfl, ?_⟩
    simp only [headerLen, dciMaxReqBufSize] at hFits
    simp only [logRequest]
    omega

/-- The driver is given the bytes of the request. -/
theorem send_encode (dciReqBuf : Nat) (r : DciRequest) (st : (Nat → Byte) × δ) :
    driver.send dciReqBuf r (headerLen + 2 * r.codes.length) st =
      ((driver.write r.encode st.2).1, fillReqBuf st.1 dciReqBuf r,
        (driver.write r.encode st.2).2) := by
  have hBytes := (fillReqBuf_holds st.1 dciReqBuf r).slice_eq
  rw [length_encode] at hBytes
  simp only [StreamDriver.send, hBytes]

theorem send_logRequest (dciReqBuf : Nat) (clientId : Int) (action : Action)
    (codes : List UInt16) (st : (Nat → Byte) × δ) :
    driver.send dciReqBuf (logRequest clientId action codes) (headerLen + 2 * codes.length) st =
      ((driver.write (logRequest clientId action codes).encode st.2).1,
        fillReqBuf st.1 dciReqBuf (logRequest clientId action codes),
        (driver.write (logRequest clientId action codes).encode st.2).2) :=
  send_encode driver dciReqBuf (logRequest clientId action codes) st

variable (order : IterationOrder) (lib : DiagLib) (clientId : Int) (dciReqBuf : Nat)

/-- What `_dci_configure_logs` does to the codes the driver has enabled, for a
client. -/
theorem dciConfigureLogs_enabled (hLow : -2 ^ 31 ≤ clientId) (hHigh : clientId < 2 ^ 31)
    (action : Action) (codes : Finset UInt16) (st : (Nat → Byte) × δ) (client : Int) :
    driver.enabled
        (dciConfigureLogs order (driver.send dciReqBuf) lib clientId action codes st).2.2
        client =
      if (dciConfigureLogs order (driver.send dciReqBuf) lib clientId action codes st).1 = 0
      then
        (logRequest clientId action (order.elements codes)).apply client
          (driver.enabled st.2 client)
      else driver.enabled st.2 client := by
  rcases dciConfigureLogs_cases order (driver.send dciReqBuf) lib clientId action codes st with
    hNothing | ⟨hFits, hSent⟩
  · simp [hNothing]
  · have hDecode := decodeRequest_encode (logRequest_wellFormed hLow hHigh action hFits)
    simp only [hSent, send_logRequest]
    split
    case isTrue hTaken =>
      rw [driver.accepted _ _ hTaken, hDecode]
      simp
    case isFalse hRefused =>
      rw [driver.refused _ _ hRefused]
      simp

/-- Nothing but the request buffer is written. -/
theorem dciConfigureLogs_other (action : Action) (codes : Finset UInt16)
    (st : (Nat → Byte) × δ) {a : Nat}
    (h : a < dciReqBuf ∨ dciReqBuf + dciMaxReqBufSize ≤ a) :
    (dciConfigureLogs order (driver.send dciReqBuf) lib clientId action codes st).2.1 a =
      st.1 a := by
  rcases dciConfigureLogs_cases order (driver.send dciReqBuf) lib clientId action codes st with
    hNothing | ⟨hFits, hSent⟩
  · rw [hNothing]
  · simp only [hSent, send_logRequest]
    refine fillReqBuf_other st.1 ?_
    simp only [logRequest]
    omega

/-- The driver behind the request format, as a device that is told which codes to
emit. -/
def StreamDriver.toLogDevice (hLow : -2 ^ 31 ≤ clientId) (hHigh : clientId < 2 ^ 31) :
    LogDevice ((Nat → Byte) × δ) where
  configure := dciConfigureLogs order (driver.send dciReqBuf) lib clientId
  enabled st := driver.enabled st.2 clientId
  enable_success codes st hDone := by
    have hEnabled := dciConfigureLogs_enabled driver order lib clientId dciReqBuf hLow hHigh
      .enable codes st clientId
    rw [if_pos hDone] at hEnabled
    rw [hEnabled]
    simp [DciRequest.apply, logRequest, Action.toInt, order.toFinset_elements]
  disable_success codes st hDone := by
    have hEnabled := dciConfigureLogs_enabled driver order lib clientId dciReqBuf hLow hHigh
      .disable codes st clientId
    rw [if_pos hDone] at hEnabled
    rw [hEnabled]
    simp [DciRequest.apply, logRequest, Action.toInt, order.toFinset_elements]
  failure action codes st hFailed := by
    have hEnabled := dciConfigureLogs_enabled driver order lib clientId dciReqBuf hLow hHigh
      action codes st clientId
    rwa [if_neg hFailed] at hEnabled

/-- Run rule for the device alone: what a configuration keeps, the calls keep. -/
theorem afterCalls_device {ε : Type v} {configure : ConfigureLogs ε} {P : ε → Prop}
    (hStep : ∀ action codes d, P d → P (configure action codes d).2)
    {st : DCIBase H × ε} (h : P st.2) (calls : List ConfigCall) :
    P (afterCalls configure st calls).2 := by
  induction calls generalizing st with
  | nil => exact h
  | cons call calls ih =>
      refine ih (configCall_invariant configure (fun st => P st.2) ?_ ?_ h call)
      · intro st codes hNow
        rcases addLogCodes_cases configure st codes with
          ⟨-, hCall⟩ | ⟨-, -, hCall⟩ | ⟨-, -, hCall⟩ <;> rw [hCall]
        · exact hNow
        · exact hStep _ _ _ hNow
        · exact hStep _ _ _ hNow
      · intro st hNow
        rcases resetLogCodes_cases configure st with
          ⟨-, hCall⟩ | ⟨-, -, hCall⟩ | ⟨-, -, hCall⟩ <;> rw [hCall]
        · exact hNow
        · exact hStep _ _ _ hNow
        · exact hStep _ _ _ hNow

/-- After any configuration calls, of which the driver may refuse any, `_log_codes` is
what the driver has enabled for the client by the bytes it was given; it has
enabled for other clients what it had before, and no byte outside of `dci_req_buf`
was written. -/
theorem wire_mirrors (hLow : -2 ^ 31 ≤ clientId) (hHigh : clientId < 2 ^ 31)
    (mem : Nat → Byte) (d : δ) (hNone : driver.enabled d clientId = ∅)
    (calls : List ConfigCall) :
    let st := afterCalls (dciConfigureLogs order (driver.send dciReqBuf) lib clientId)
      (DCIBase.fresh H, mem, d) calls
    st.1.undefined = false ∧ st.1.logCodes = driver.enabled st.2.2 clientId ∧
      (∀ other, other ≠ clientId → driver.enabled st.2.2 other = driver.enabled d other) ∧
      ∀ a, a < dciReqBuf ∨ dciReqBuf + dciMaxReqBufSize ≤ a → st.2.1 a = mem a := by
  intro st
  let device := driver.toLogDevice order lib clientId dciReqBuf hLow hHigh
  have hStart : Mirrors device (DCIBase.fresh H, mem, d) := ⟨rfl, hNone.symm⟩
  have hMirrors := afterCalls_mirrors device hStart calls
  refine ⟨hMirrors.1, hMirrors.2, fun other hOther => ?_, fun a hOutside => ?_⟩
  · refine afterCalls_device (H := H)
      (P := fun s : (Nat → Byte) × δ => driver.enabled s.2 other = driver.enabled d other)
      (fun action codes s hNow => ?_) rfl calls
    rw [dciConfigureLogs_enabled driver order lib clientId dciReqBuf hLow hHigh action codes
      s other]
    split
    · simp [DciRequest.apply, logRequest, Ne.symm hOther, hNow]
    · exact hNow
  · refine afterCalls_device (H := H) (P := fun s : (Nat → Byte) × δ => s.1 a = mem a)
      (fun action codes s hNow => ?_) rfl calls
    exact (dciConfigureLogs_other driver order lib clientId dciReqBuf action codes s
      hOutside).trans hNow

end Wire

/-- A driver that accepts every request and keeps the codes of each client. -/
def keepingDriver : StreamDriver (Int → Finset UInt16) where
  write bytes d := (DiagDciError.noError.value, fun clientId =>
    (decodeRequest bytes).elim (d clientId) fun r => r.apply clientId (d clientId))
  enabled d := d
  accepted _ _ _ _ := by simp only
  refused _ _ hRefused := by simp at hRefused

theorem wire_mirrors_two :
    let st := afterCalls (dciConfigureLogs acceptingDci.order (keepingDriver.send 1000)
      acceptingDci.lib 7) (DCIBase.fresh Unit, (fun _ => 0), fun _ => ∅) [.set {1}, .add {2}]
    st.1.undefined = false ∧ st.1.logCodes = keepingDriver.enabled st.2.2 7 ∧
      (∀ other, other ≠ 7 → keepingDriver.enabled st.2.2 other = ∅) ∧
      ∀ a, a < 1000 ∨ 1000 + dciMaxReqBufSize ≤ a → st.2.1 a = 0 :=
  wire_mirrors keepingDriver acceptingDci.order acceptingDci.lib 7 1000 (by decide) (by decide)
    (fun _ => 0) (fun _ => ∅) rfl [.set {1}, .add {2}]

end Dci
end MgComm
