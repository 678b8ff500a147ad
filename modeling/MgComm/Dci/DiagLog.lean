import Mathlib.Data.Finset.Sort
import MgComm.Dci.LogCodes

/-!
# Log configuration requests of the diag library

`DCI::_dci_configure_logs` hands the codes as an array to
`diag_log_stream_config`, which puts them behind a packed header into a request
buffer of 4096 bytes and writes the request to the diag driver.  Both are
modelled here, with the driver's `write()` as a parameter.

Every `add_log_codes` is one request, but `reset_log_codes` sends all active
codes in a single one.  With a registered client and a driver that accepts every
request, the codes that were added can be removed again exactly if there are at
most 2038 of them (`canBeRemoved_iff`).
-/

namespace MgComm
namespace Dci

universe u v

/-- `diag_dci_error_type`. -/
inductive DiagDciError where
  | noError
  | noReg
  | noMem
  | notSupported
  | hugePacket
  | sendDataFail
  | errDereg
  | paramFail
  | dupClient
  deriving DecidableEq

/-- The enumeration starts at 1001. -/
def DiagDciError.value : DiagDciError → Int
  | .noError => 1001
  | .noReg => 1002
  | .noMem => 1003
  | .notSupported => 1004
  | .hugePacket => 1005
  | .sendDataFail => 1006
  | .errDereg => 1007
  | .paramFail => 1008
  | .dupClient => 1009

/-- `DCI_MAX_REQ_BUF_SIZE`. -/
def dciMaxReqBufSize : Nat := 4096

/-- `DCI_DATA_TYPE`. -/
def dciDataType : Int := 0x40

/-- `DCI_LOG_TYPE`. -/
def dciLogType : Int := -1

/-- `struct diag_dci_stream_header_t`. -/
structure DiagDciStreamHeader where
  start : Int
  type : Int
  clientId : Int
  setFlag : Int
  count : Int
  deriving DecidableEq

/-- `sizeof(struct diag_dci_stream_header_t)`: five packed `int`s. -/
def headerLen : Nat := 20

/-- A request as it lies in `dci_req_buf`. -/
structure DciRequest where
  header : DiagDciStreamHeader
  codes : List UInt16
  deriving DecidableEq

/-- The fields of `struct diag_dci_client_tbl` used for requests. -/
structure DiagDciClient where
  clientId : Int
  /-- `dci_req_buf` is not `NULL`. -/
  dciReqBuf : Bool

/-- `num_dci_proc` and `dci_client_tbl`, which may be `NULL`. -/
structure DiagLib where
  numDciProc : Int
  dciClientTbl : Option (List DiagDciClient)

/-- `diag_dci_get_proc(client_id)`. -/
def diagDciGetProc (lib : DiagLib) (clientId : Int) : Int :=
  match lib.dciClientTbl with
  | none => -1
  | some tbl =>
      match (tbl.take lib.numDciProc.toNat).findIdx? (·.clientId == clientId) with
      | some i => i
      | none => -1

/-- `IS_VALID_DCI_PROC(x)`. -/
def isValidDciProc (lib : DiagLib) (x : Int) : Bool :=
  if x < 0 ∨ x ≥ lib.numDciProc then false else true

/-- `dci_client_tbl[proc].dci_req_buf` is not `NULL`. -/
def hasReqBuf (lib : DiagLib) (proc : Int) : Bool :=
  match (lib.dciClientTbl.getD [])[proc.toNat]? with
  | some client => client.dciReqBuf
  | none => false

section Requests

variable {δ : Type v} (write : DciRequest → Nat → δ → Int × δ)

/-- `diag_send_data(buf, bytes)`. -/
def diagSendData (buf : DciRequest) (bytes : Nat) (d : δ) : Int × δ :=
  let (bytesWritten, d') := write buf bytes d
  if buf.header.start = dciDataType then
    if bytesWritten ≠ DiagDciError.noError.value then
      (DiagDciError.sendDataFail.value, d')
    else (bytesWritten, d')
  else (bytesWritten, d')

/-- `diag_log_stream_config(client_id, set_mask, log_codes_array, num_codes)`.
Lengths are `unsigned int`. -/
def diagLogStreamConfig (lib : DiagLib) (clientId setMask : Int)
    (logCodesArray : List UInt16) (numCodes : Int) (d : δ) : Int × δ :=
  let dataLen := (2 * numCodes % 2 ^ 32).toNat
  let proc := diagDciGetProc lib clientId
  if isValidDciProc lib proc = false then (DiagDciError.notSupported.value, d)
  else if numCodes < 1 then (DiagDciError.paramFail.value, d)
  else if hasReqBuf lib proc = false then (DiagDciError.noMem.value, d)
  else if (headerLen + dataLen) % 2 ^ 32 > dciMaxReqBufSize then
    (DiagDciError.hugePacket.value, d)
  else
    let request : DciRequest :=
      { header := ⟨dciDataType, dciLogType, clientId, setMask, numCodes⟩
        codes := logCodesArray.take numCodes.toNat }
    let (err, d') := diagSendData write request ((headerLen + dataLen) % 2 ^ 32) d
    if err ≠ DiagDciError.noError.value then
      (DiagDciError.sendDataFail.value, d')
    else (DiagDciError.noError.value, d')

end Requests

/-- An order in which `std::unordered_set` iterates over its elements. -/
structure IterationOrder where
  elements : Finset UInt16 → List UInt16
  nodup : ∀ codes, (elements codes).Nodup
  toFinset_elements : ∀ codes, (elements codes).toFinset = codes

theorem IterationOrder.length_elements (order : IterationOrder)
    (codes : Finset UInt16) : (order.elements codes).length = codes.card := by
  rw [← List.toFinset_card_of_nodup (order.nodup codes),
    order.toFinset_elements]

/-- `int DCI::_dci_configure_logs(int action, std::unordered_set<uint16_t>
codes)`. -/
def dciConfigureLogs {δ : Type v} (order : IterationOrder)
    (write : DciRequest → Nat → δ → Int × δ) (lib : DiagLib) (clientId : Int) :
    ConfigureLogs δ :=
  fun action codes d =>
    let logCodesVector := order.elements codes
    let (result, d') := diagLogStreamConfig write lib clientId action.toInt
      logCodesVector logCodesVector.length d
    if result ≠ DiagDciError.noError.value then (1, d') else (0, d')

/-! ## Requests of a registered client -/

/-- A DCI object with a registered client, on a driver that accepts every
request. -/
structure RegisteredDci (δ : Type v) where
  order : IterationOrder
  write : DciRequest → Nat → δ → Int × δ
  lib : DiagLib
  clientId : Int
  write_success : ∀ request bytes d,
    (write request bytes d).1 = DiagDciError.noError.value
  valid_proc : isValidDciProc lib (diagDciGetProc lib clientId) = true
  has_buf : hasReqBuf lib (diagDciGetProc lib clientId) = true

section Registered

variable {H : Type u} {δ : Type v} (dci : RegisteredDci δ)

/-- `_dci_configure_logs` of the object. -/
def RegisteredDci.configure : ConfigureLogs δ :=
  dciConfigureLogs dci.order dci.write dci.lib dci.clientId

/-- A request goes through exactly if its codes fit the request buffer. -/
theorem configure_eq_zero_iff (action : Action) {codes : Finset UInt16}
    (hCodes : codes ≠ ∅) (d : δ) :
    (dci.configure action codes d).1 = 0 ↔ codes.card ≤ 2038 := by
  have hLength := dci.order.length_elements codes
  have hPos : 0 < codes.card := Finset.card_pos.mpr (Finset.nonempty_of_ne_empty hCodes)
  -- There are only so many codes that no length wraps.
  have hUint16 : codes.card ≤ 65536 := by
    have hBound := Finset.card_le_card_of_injOn (s := codes)
      (t := Finset.range 65536) UInt16.toNat
      (fun c _ => by simpa using c.toNat_lt) (fun a _ b _ h => UInt16.toNat_inj.mp h)
    simpa using hBound
  have hDataLen : (2 * (codes.card : Int) % 2 ^ 32).toNat = 2 * codes.card := by
    omega
  have hTotal : (headerLen + 2 * codes.card) % 2 ^ 32 = 20 + 2 * codes.card := by
    simp only [headerLen]
    omega
  have hSome : ¬ (codes.card : Int) < 1 := by omega
  have hSend (request : DciRequest) (bytes : Nat) :
      (diagSendData dci.write request bytes d).1 = DiagDciError.noError.value := by
    simp [diagSendData, dci.write_success]
  simp only [RegisteredDci.configure, dciConfigureLogs, diagLogStreamConfig,
    hLength, hDataLen, hTotal, hSome, dci.valid_proc, dci.has_buf,
    dciMaxReqBufSize, hSend]
  by_cases hFits : codes.card ≤ 2038
  · have hSmall : ¬ 20 + 2 * codes.card > 4096 := by omega
    simp [hSmall, hFits]
  · have hHuge : 20 + 2 * codes.card > 4096 := by omega
    simp [hHuge, hFits, DiagDciError.value]

/-- `add_log_codes` returns 0 exactly if its codes fit one request. -/
theorem addLogCodes_eq_zero_iff (st : DCIBase H × δ) (logCodes : Finset UInt16) :
    (addLogCodes dci.configure st logCodes).1 = 0 ↔ logCodes.card ≤ 2038 := by
  rcases addLogCodes_cases dci.configure st logCodes with
    ⟨hEmpty, hCall⟩ | ⟨hCodes, hFailed, hCall⟩ | ⟨hCodes, hDone, hCall⟩
  · rw [hCall, hEmpty]
    simp
  · rw [hCall]
    simpa using (configure_eq_zero_iff dci .enable hCodes st.2).not.mp hFailed
  · rw [hCall]
    simpa using (configure_eq_zero_iff dci .enable hCodes st.2).mp hDone

/-- `reset_log_codes` returns 0 exactly if all active codes fit one request. -/
theorem resetLogCodes_eq_zero_iff (st : DCIBase H × δ) :
    (resetLogCodes dci.configure st).1 = 0 ↔ st.1.logCodes.card ≤ 2038 := by
  rcases resetLogCodes_cases dci.configure st with
    ⟨hEmpty, hCall⟩ | ⟨hCodes, hFailed, hCall⟩ | ⟨hCodes, hDone, hCall⟩
  · rw [hCall, hEmpty]
    simp
  · rw [hCall]
    simpa using (configure_eq_zero_iff dci .disable hCodes st.2).not.mp hFailed
  · rw [hCall]
    simpa using (configure_eq_zero_iff dci .disable hCodes st.2).mp hDone

/-- `set_log_codes` returns 0 exactly if both of its requests fit. -/
theorem setLogCodes_eq_zero_iff (st : DCIBase H × δ) (logCodes : Finset UInt16) :
    (setLogCodes dci.configure st logCodes).1 = 0 ↔
      st.1.logCodes.card ≤ 2038 ∧ logCodes.card ≤ 2038 := by
  rw [← resetLogCodes_eq_zero_iff dci st]
  rcases setLogCodes_cases dci.configure st logCodes with
    ⟨hFailed, hSet⟩ | ⟨hReset, hSet⟩
  · simp [hSet, hFailed]
  · rw [hSet, addLogCodes_eq_zero_iff]
    simp [hReset]

/-- All codes can be removed, and then every set of codes that is accepted when
none is active can be set. -/
def CanBeRemoved (configure : ConfigureLogs δ) (st : DCIBase H × δ) : Prop :=
  (resetLogCodes configure st).1 = 0 ∧
    (resetLogCodes configure st).2.1.logCodes = ∅ ∧
    ∀ (logCodes : Finset UInt16) (d : δ),
      (addLogCodes configure (DCIBase.fresh H, d) logCodes).1 = 0 →
        (setLogCodes configure st logCodes).1 = 0

/-- In the state reached by calls that all returned 0, the codes can be removed
again exactly if at most 2038 codes have been requested. -/
theorem canBeRemoved_iff (d : δ) (calls : List ConfigCall)
    (hZero : ReturnsZero dci.configure (DCIBase.fresh H, d) calls) :
    CanBeRemoved dci.configure
        (afterCalls dci.configure (DCIBase.fresh H, d) calls) ↔
      (requested calls).card ≤ 2038 := by
  have hActive : (afterCalls dci.configure (DCIBase.fresh H, d) calls).1.logCodes =
      requested calls := afterCalls_logCodes dci.configure hZero
  set st := afterCalls dci.configure (DCIBase.fresh H, d) calls
  have hReset := resetLogCodes_eq_zero_iff dci st
  rw [hActive] at hReset
  constructor
  · intro hRemoved
    exact hReset.mp hRemoved.1
  · intro hCard
    refine ⟨hReset.mpr hCard, resetLogCodes_accepted _ (hReset.mpr hCard), ?_⟩
    intro logCodes d' hAccepted
    rw [addLogCodes_eq_zero_iff] at hAccepted
    rw [setLogCodes_eq_zero_iff, hActive]
    exact ⟨hCard, hAccepted⟩

/-- Two sets may be accepted one after the other although their union is too
large for one request. -/
theorem adds_accumulate (d : δ) {logCodes logCodes' : Finset UInt16}
    (hFirst : logCodes.card ≤ 2038) (hSecond : logCodes'.card ≤ 2038)
    (hUnion : 2038 < (logCodes ∪ logCodes').card) :
    ReturnsZero dci.configure (DCIBase.fresh H, d)
        [.add logCodes, .add logCodes'] ∧
      ¬ CanBeRemoved dci.configure
        (afterCalls dci.configure (DCIBase.fresh H, d)
          [.add logCodes, .add logCodes']) := by
  have hZero : ReturnsZero dci.configure (DCIBase.fresh H, d)
      [.add logCodes, .add logCodes'] :=
    ⟨(addLogCodes_eq_zero_iff dci _ _).mpr hFirst,
      (addLogCodes_eq_zero_iff dci _ _).mpr hSecond, trivial⟩
  refine ⟨hZero, fun hRemoved => ?_⟩
  have hFits := (resetLogCodes_eq_zero_iff dci _).mp hRemoved.1
  rw [afterCalls_logCodes dci.configure hZero] at hFits
  have hActive : [ConfigCall.add logCodes, .add logCodes'].foldl requestedNext
      (DCIBase.fresh H).logCodes = logCodes ∪ logCodes' := by
    simp [requestedNext, DCIBase.fresh]
  rw [hActive] at hFits
  omega

end Registered

/-- A registered client on a driver that accepts everything. -/
def acceptingDci : RegisteredDci Unit where
  order :=
    { elements := fun codes => codes.sort (· ≤ ·)
      nodup := fun codes => codes.sort_nodup (· ≤ ·)
      toFinset_elements := fun codes => codes.sort_toFinset (· ≤ ·) }
  write := fun _ _ d => (DiagDciError.noError.value, d)
  lib := ⟨1, some [⟨7, true⟩]⟩
  clientId := 7
  write_success := fun _ _ _ => rfl
  valid_proc := by decide
  has_buf := by decide

theorem canBeRemoved_two :
    CanBeRemoved acceptingDci.configure
      (afterCalls acceptingDci.configure (DCIBase.fresh Unit, ())
        [.set {1}, .add {2}]) := by
  refine (canBeRemoved_iff acceptingDci () [.set {1}, .add {2}] ?_).mpr (by decide)
  refine ⟨?_, ?_, trivial⟩
  · exact (setLogCodes_eq_zero_iff acceptingDci _ _).mpr (by decide)
  · exact (addLogCodes_eq_zero_iff acceptingDci _ _).mpr (by decide)

/-- The codes below `n`. -/
def codesBelow (n : Nat) : Finset UInt16 := (Finset.range n).image UInt16.ofNat

theorem card_codesBelow {n : Nat} (hn : n ≤ 65536) : (codesBelow n).card = n := by
  unfold codesBelow
  rw [Finset.card_image_of_injOn, Finset.card_range]
  intro a ha b hb hEq
  simp only [Finset.coe_range, Set.mem_Iio] at ha hb
  have hToNat := congrArg UInt16.toNat hEq
  simp only [UInt16.toNat_ofNat'] at hToNat
  omega

theorem codesBelow_succ (n : Nat) :
    codesBelow (n + 1) = codesBelow n ∪ {UInt16.ofNat n} := by
  rw [codesBelow, codesBelow, Finset.range_add_one, Finset.image_insert,
    Finset.union_comm, Finset.insert_eq]

/-- 2038 codes and then one more are added; both calls return 0, but the codes
cannot be removed any more. -/
theorem accumulated_codes_stay :
    ReturnsZero acceptingDci.configure (DCIBase.fresh Unit, ())
        [.add (codesBelow 2038), .add {UInt16.ofNat 2038}] ∧
      ¬ CanBeRemoved acceptingDci.configure
        (afterCalls acceptingDci.configure (DCIBase.fresh Unit, ())
          [.add (codesBelow 2038), .add {UInt16.ofNat 2038}]) := by
  have hUnion : codesBelow 2038 ∪ {UInt16.ofNat 2038} = codesBelow 2039 :=
    (codesBelow_succ 2038).symm
  refine adds_accumulate acceptingDci () ?_ ?_ ?_
  · exact (card_codesBelow (by omega)).le
  · simp
  · rw [hUnion, card_codesBelow (by omega)]
    omega

end Dci
end MgComm
