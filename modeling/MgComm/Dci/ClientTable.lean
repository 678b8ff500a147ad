import MgComm.Dci.Payload
import MgComm.Library.Monitor

/-!
# The client table of the diag library

`dci_client_tbl` has an entry for each processor: the registered client, its
callbacks for streamed logs and events, the signal it wants, its request buffer
and its requests.  The functions a client calls and the calls of the read thread
work on this table, in any order.

`diag_lsm_dci_init` leaves the two stream callbacks as `malloc` gave them, and
`diag_release_dci_client` leaves them as they are.  So the callbacks of an entry
are those of the last `diag_register_dci_stream`, and from there on every log
packet and every event for the processor reaches them once and in order, whatever
else the threads do (`run_delivered`).  With a registered client the request
buffer is there (`RegisteredHasBuf`), and a library that is used with registered
clients only and gets streamed data only after the callbacks are there never
does anything undefined with the table (`table_defined`).

A call of the client is one step, up to its `write`.  `dci_transaction_id`,
`dci_req_buf` and the entries are not guarded against other calls: one thread makes
the calls of the client, and the read thread runs beside it.
-/

namespace MgComm
namespace Dci

universe u v

open RingList StreamMachine Monitor

/-- A function pointer in memory that need not have been written. -/
inductive FuncPtr (K : Type u) where
  | indeterminate
  | null
  | func (f : K)
  deriving DecidableEq

/-- A pointer which a client passes. -/
def FuncPtr.ofOption {K : Type u} : Option K → FuncPtr K
  | none => .null
  | some f => .func f

/-- `dci_req_buf`: what it points to. -/
inductive ReqBuf where
  | null
  | allocated
  | freed
  deriving DecidableEq

/-- `struct diag_dci_reg_tbl_t`. -/
structure DiagDciRegTbl where
  clientId : Int
  notificationList : UInt16
  signalType : Int
  token : Int

/-- `struct diag_dci_client_tbl`, without the list of requests. -/
structure DiagDciClientTbl (K : Type u) where
  clientInfo : DiagDciRegTbl
  funcPtrLogs : FuncPtr K
  funcPtrEvents : FuncPtr K
  dataSignalFlag : Bool
  dataSignalType : Int
  dciReqBuf : ReqBuf

/-- The table with its `n` entries, and the requests. -/
structure DciLib (K : Type u) (F : Type v) (n : Nat) where
  clients : Fin n → DiagDciClientTbl K
  requests : RequestTables F
  /-- An indeterminate pointer was called or a freed buffer was written to. -/
  undefined : Bool

/-- `INVALID_DCI_CLIENT`. -/
def invalidDciClient : Int := -1

/-- `DIAG_INVALID_SIGNAL`. -/
def diagInvalidSignal : Int := 0

/-- `sizeof(struct diag_dci_req_header_t)`: three packed `int`s. -/
def reqHeaderLen : Nat := 12

section Library

variable {K : Type u} {F : Type v} {n : Nat}

/-- An entry after `diag_lsm_dci_init`. -/
def DiagDciClientTbl.init (i : Fin n) : DiagDciClientTbl K where
  clientInfo := ⟨invalidDciClient, 0, 0, i.val⟩
  funcPtrLogs := .indeterminate
  funcPtrEvents := .indeterminate
  dataSignalFlag := false
  dataSignalType := diagInvalidSignal
  dciReqBuf := .null

/-- `int diag_lsm_dci_init(void)`, with the table allocated. -/
def diagLsmDciInit (m : Links RequestRef) : DciLib K F n where
  clients := DiagDciClientTbl.init
  requests := RequestTables.init n m
  undefined := false

/-- The part of the table that requests for log codes look at. -/
def DciLib.toDiagLib (lib : DciLib K F n) : DiagLib where
  numDciProc := n
  dciClientTbl := some (List.ofFn fun i =>
    ⟨(lib.clients i).clientInfo.clientId, decide ((lib.clients i).dciReqBuf ≠ .null)⟩)

/-- `diag_dci_get_proc(client_id)`, if `IS_VALID_DCI_PROC`. -/
def DciLib.getProc (lib : DciLib K F n) (clientId : Int) : Option (Fin n) :=
  procIndex n (diagDciGetProc lib.toDiagLib clientId)

/-- An entry of the table is written. -/
def DciLib.set (lib : DciLib K F n) (i : Fin n) (client : DiagDciClientTbl K) :
    DciLib K F n :=
  { lib with clients := Function.update lib.clients i client }

/-- `int diag_register_dci_client(int *client_id, diag_dci_peripherals *list, int
proc, void *os_params)`: the return value, and `*client_id` where it is written.
Whether `malloc` succeeds and what the driver answers are arguments. -/
def diagRegisterDciClient (lib : DciLib K F n) (proc : Int) (list : UInt16)
    (signalType : Int) (allocated : Bool) (ioctl : Int) :
    Int × Option Int × DciLib K F n :=
  match procIndex n proc with
  | none => (0, none, lib)
  | some i =>
      let client := lib.clients i
      if client.clientInfo.clientId ≠ invalidDciClient then
        (DiagDciError.dupClient.value, none, lib)
      else
        let client := { client with
          clientInfo := ⟨client.clientInfo.clientId, list, signalType, proc⟩
          dataSignalFlag := false
          dataSignalType := diagInvalidSignal
          dciReqBuf := if allocated then .allocated else .null }
        if allocated = false then (DiagDciError.noMem.value, none, lib.set i client)
        else if ioctl = DiagDciError.noReg.value ∨ ioctl < 0 then
          (DiagDciError.noReg.value, some invalidDciClient,
            lib.set i { client with
              clientInfo := { client.clientInfo with clientId := invalidDciClient } })
        else
          (DiagDciError.noError.value, some ioctl,
            lib.set i { client with
              clientInfo := { client.clientInfo with clientId := ioctl } })

/-- `int diag_register_dci_stream_proc(int client_id, ...)` -/
def diagRegisterDciStreamProc (lib : DciLib K F n) (clientId : Int)
    (funcPtrLogs funcPtrEvents : Option K) : Int × DciLib K F n :=
  match lib.getProc clientId with
  | none => (DiagDciError.notSupported.value, lib)
  | some i =>
      (DiagDciError.noError.value,
        lib.set i { lib.clients i with
          funcPtrLogs := .ofOption funcPtrLogs
          funcPtrEvents := .ofOption funcPtrEvents })

/-- `int diag_register_dci_stream(...)`: for the client of the local processor,
`DIAG_PROC_MSM`. -/
def diagRegisterDciStream [NeZero n] (lib : DciLib K F n)
    (funcPtrLogs funcPtrEvents : Option K) : Int × DciLib K F n :=
  diagRegisterDciStreamProc lib (lib.clients 0).clientInfo.clientId funcPtrLogs
    funcPtrEvents

/-- `int diag_register_dci_signal_data(int client_id, int signal_type)` -/
def diagRegisterDciSignalData (lib : DciLib K F n) (clientId signalType : Int) :
    Int × DciLib K F n :=
  match lib.getProc clientId with
  | none => (DiagDciError.notSupported.value, lib)
  | some i =>
      if signalType ≤ diagInvalidSignal then (DiagDciError.paramFail.value, lib)
      else
        (DiagDciError.noError.value,
          lib.set i { lib.clients i with
            dataSignalFlag := true
            dataSignalType := signalType })

/-- `int diag_deregister_dci_signal_data(int client_id)` -/
def diagDeregisterDciSignalData (lib : DciLib K F n) (clientId : Int) :
    Int × DciLib K F n :=
  match lib.getProc clientId with
  | none => (DiagDciError.notSupported.value, lib)
  | some i =>
      if (lib.clients i).dataSignalType = diagInvalidSignal then
        (DiagDciError.noReg.value, lib)
      else
        (DiagDciError.noError.value,
          lib.set i { lib.clients i with
            dataSignalFlag := false
            dataSignalType := diagInvalidSignal })

/-- `int diag_release_dci_client(int *client_id)`: the return value, and
`*client_id` where it is written. -/
def diagReleaseDciClient (lib : DciLib K F n) (clientId : Int) (ioctl : Int) :
    Int × Option Int × DciLib K F n :=
  match lib.getProc clientId with
  | none => (DiagDciError.notSupported.value, none, lib)
  | some i =>
      if ioctl ≠ DiagDciError.noError.value then (DiagDciError.errDereg.value, none, lib)
      else
        let client := lib.clients i
        let lib := lib.set i { client with
          clientInfo := { client.clientInfo with clientId := invalidDciClient }
          dciReqBuf := .freed }
        (DiagDciError.noError.value, some 0,
          { lib with requests := (requestStep n lib.requests (.release i)).1 })

/-- `int diag_send_dci_async_req(...)` up to the `write`, with `buf` and `rsp_ptr`
not `NULL`: a return value, or none if the request goes to the driver.  The sum
of the lengths is an `unsigned int`. -/
def diagSendDciAsyncReq (lib : DciLib K F n) (clientId bytes : Int)
    (target : RspTarget F) (infoAllocated : Bool) (newReq : Option Nat) :
    Option Int × DciLib K F n :=
  match lib.getProc clientId with
  | none => (some DiagDciError.notSupported.value, lib)
  | some i =>
      if (reqHeaderLen + bytes) % 2 ^ 32 > dciMaxReqBufSize ∨ bytes < 1 then
        (some DiagDciError.hugePacket.value, lib)
      else if (lib.clients i).dciReqBuf = .null then
        (some DiagDciError.noMem.value, lib)
      else
        let requests :=
          (requestStep n lib.requests (.send i target infoAllocated newReq)).1
        if infoAllocated = false ∨ lib.requests.malloc newReq = none then
          (some DiagDciError.noMem.value, { lib with requests := requests })
        else
          -- The request is copied to the buffer.
          (none, { lib with
            requests := requests
            undefined := lib.undefined || decide ((lib.clients i).dciReqBuf = .freed) })

/-- What the read thread does to the client.  A stream callback is recorded with
the processor it is called for. -/
inductive LibOutput (K : Type u) (F : Type v) (n : Nat) where
  | raised (signalType : Int)
  | streamed (i : Fin n) (f : K) (call : DciCall)
  | responded (o : RspOutput F)

/-- `if (func_ptr) (*func_ptr)(ptr, len);` -/
def callStream (lib : DciLib K F n) (i : Fin n) (call : DciCall) :
    FuncPtr K → DciLib K F n × List (LibOutput K F n)
  | .indeterminate => ({ lib with undefined := true }, [])
  | .null => (lib, [])
  | .func f => (lib, [.streamed i f call])

/-- A call of the read thread, for the processor the block names.  The signal is
that of the first entry, whatever this processor is. -/
def receive [NeZero n] (lib : DciLib K F n) (i : Fin n) :
    DciCall → DciLib K F n × List (LibOutput K F n)
  | .signal =>
      (lib, if (lib.clients 0).dataSignalFlag then
        [.raised (lib.clients 0).dataSignalType] else [])
  | .pktRsp rsp =>
      let (requests, outputs) := requestStep n lib.requests (.response i.val rsp)
      ({ lib with requests := requests }, outputs.map .responded)
  | .log p => callStream lib i (.log p) (lib.clients i).funcPtrLogs
  | .event p => callStream lib i (.event p) (lib.clients i).funcPtrEvents

/-- What the client's threads and the read thread do with the library. -/
inductive LibEvent (K : Type u) (F : Type v) (n : Nat) where
  | registerClient (proc : Int) (list : UInt16) (signalType : Int) (allocated : Bool)
      (ioctl : Int)
  | registerStream (clientId : Int) (funcPtrLogs funcPtrEvents : Option K)
  | registerSignal (clientId signalType : Int)
  | deregisterSignal (clientId : Int)
  | release (clientId ioctl : Int)
  | send (clientId bytes : Int) (target : RspTarget F) (infoAllocated : Bool)
      (newReq : Option Nat)
  | sendFailed (newReq : Nat) (uid : Int)
  | received (i : Fin n) (call : DciCall)

/-- One step. -/
def libStep [NeZero n] (lib : DciLib K F n) :
    LibEvent K F n → DciLib K F n × List (LibOutput K F n)
  | .registerClient proc list signalType allocated ioctl =>
      ((diagRegisterDciClient lib proc list signalType allocated ioctl).2.2, [])
  | .registerStream clientId funcPtrLogs funcPtrEvents =>
      ((diagRegisterDciStreamProc lib clientId funcPtrLogs funcPtrEvents).2, [])
  | .registerSignal clientId signalType =>
      ((diagRegisterDciSignalData lib clientId signalType).2, [])
  | .deregisterSignal clientId => ((diagDeregisterDciSignalData lib clientId).2, [])
  | .release clientId ioctl => ((diagReleaseDciClient lib clientId ioctl).2.2, [])
  | .send clientId bytes target infoAllocated newReq =>
      ((diagSendDciAsyncReq lib clientId bytes target infoAllocated newReq).2, [])
  | .sendFailed newReq uid =>
      ({ lib with requests := (requestStep n lib.requests (.sendFailed newReq uid)).1 }, [])
  | .received i call => receive lib i call

/-! ## What the steps do to an entry -/

theorem procIndex_eq_some {proc : Int} {i : Fin n} (h : procIndex n proc = some i) :
    proc = i.val := by
  unfold procIndex at h
  split at h
  · rename_i hValid
    obtain rfl := Option.some.inj h
    exact (Int.toNat_of_nonneg hValid.1).symm
  · exact absurd h (by simp)

/-- The entry that is found belongs to the client. -/
theorem getProc_clientId {lib : DciLib K F n} {clientId : Int} {i : Fin n}
    (h : lib.getProc clientId = some i) :
    (lib.clients i).clientInfo.clientId = clientId := by
  have hProc := procIndex_eq_some h
  simp only [diagDciGetProc, DciLib.toDiagLib, Int.toNat_natCast] at hProc
  rw [List.take_of_length_le (by simp)] at hProc
  split at hProc
  · rename_i k hFound
    obtain rfl : k = i.val := by exact_mod_cast hProc
    obtain ⟨hBelow, hMatch, -⟩ := List.findIdx?_eq_some_iff_getElem.mp hFound
    simpa using hMatch
  · omega

theorem set_clients (lib : DciLib K F n) (i j : Fin n) (client : DiagDciClientTbl K) :
    (lib.set i client).clients j = if j = i then client else lib.clients j := by
  simp [DciLib.set, Function.update_apply]

/-- A property of single entries is kept by an entry that keeps it. -/
theorem set_forall {lib : DciLib K F n} {P : Fin n → DiagDciClientTbl K → Prop}
    (h : ∀ j, P j (lib.clients j)) {i : Fin n} {client : DiagDciClientTbl K}
    (hNew : P i client) (j : Fin n) : P j ((lib.set i client).clients j) := by
  rw [set_clients]
  split
  · rename_i hEq
    rw [hEq]
    exact hNew
  · exact h j

/-- Step rule: a property of single entries is kept by every step, if
registration, stream registration, the signal functions and release keep it for
the entry they are about. -/
theorem libStep_forall [NeZero n] {P : Fin n → DiagDciClientTbl K → Prop}
    {lib : DciLib K F n} (e : LibEvent K F n) (h : ∀ j, P j (lib.clients j))
    (hRegister : ∀ i client list signalType token clientId dciReqBuf,
      client.clientInfo.clientId = invalidDciClient →
      (clientId ≠ invalidDciClient → dciReqBuf = .allocated) → P i client →
        P i { client with
          clientInfo := ⟨clientId, list, signalType, token⟩
          dataSignalFlag := false
          dataSignalType := diagInvalidSignal
          dciReqBuf := dciReqBuf })
    (hStream : ∀ i clientId funcPtrLogs funcPtrEvents,
      e = .registerStream clientId funcPtrLogs funcPtrEvents →
      lib.getProc clientId = some i →
        P i { lib.clients i with
          funcPtrLogs := .ofOption funcPtrLogs
          funcPtrEvents := .ofOption funcPtrEvents })
    (hSignal : ∀ i client flag signalType, P i client →
      P i { client with dataSignalFlag := flag, dataSignalType := signalType })
    (hRelease : ∀ i client, P i client →
      P i { client with
        clientInfo := { client.clientInfo with clientId := invalidDciClient }
        dciReqBuf := .freed })
    (j : Fin n) : P j ((libStep lib e).1.clients j) := by
  cases e with
  | registerClient proc list signalType allocated ioctl =>
      simp only [libStep, diagRegisterDciClient]
      split
      · exact h j
      · rename_i i hIndex
        by_cases hFree : (lib.clients i).clientInfo.clientId = invalidDciClient
        · rw [if_neg (not_not.mpr hFree)]
          cases allocated with
          | false =>
              exact set_forall h (hRegister i _ _ _ _ _ _ hFree
                (fun hNe => absurd hFree hNe) (h i)) j
          | true =>
              rw [if_neg (by simp)]
              split
              · exact set_forall h (hRegister i _ _ _ _ _ _ hFree
                  (fun hNe => absurd rfl hNe) (h i)) j
              · exact set_forall h (hRegister i _ _ _ _ _ _ hFree (fun _ => rfl) (h i)) j
        · rw [if_pos hFree]
          exact h j
  | registerStream clientId funcPtrLogs funcPtrEvents =>
      simp only [libStep, diagRegisterDciStreamProc]
      split
      · exact h j
      · rename_i i hProc
        exact set_forall h (hStream i clientId _ _ rfl hProc) j
  | registerSignal clientId signalType =>
      simp only [libStep, diagRegisterDciSignalData]
      split
      · exact h j
      · split
        · exact h j
        · exact set_forall h (hSignal _ _ _ _ (h _)) j
  | deregisterSignal clientId =>
      simp only [libStep, diagDeregisterDciSignalData]
      split
      · exact h j
      · split
        · exact h j
        · exact set_forall h (hSignal _ _ _ _ (h _)) j
  | release clientId ioctl =>
      simp only [libStep, diagReleaseDciClient]
      split
      · exact h j
      · split
        · exact h j
        · exact set_forall h (hRelease _ _ (h _)) j
  | send clientId bytes target infoAllocated newReq =>
      simp only [libStep, diagSendDciAsyncReq]
      split
      · exact h j
      · split
        · exact h j
        · split
          · exact h j
          · split <;> exact h j
  | sendFailed newReq uid => exact h j
  | received i call =>
      cases call with
      | signal => exact h j
      | pktRsp rsp => exact h j
      | log p =>
          simp only [libStep, receive]
          cases (lib.clients i).funcPtrLogs <;> exact h j
      | event p =>
          simp only [libStep, receive]
          cases (lib.clients i).funcPtrEvents <;> exact h j

/-! ## Streamed data -/

/-- The table after a step. -/
def libNext [NeZero n] (lib : DciLib K F n) (e : LibEvent K F n) : DciLib K F n :=
  (libStep lib e).1

/-- The step does not register other stream callbacks for the processor. -/
def KeepsStream (i : Fin n) (lib : DciLib K F n) : LibEvent K F n → Prop
  | .registerStream clientId _ _ => lib.getProc clientId ≠ some i
  | _ => True

/-- Only a stream registration for the processor changes its stream callbacks. -/
theorem libStep_keepsStream [NeZero n] {lib : DciLib K F n} {e : LibEvent K F n}
    {i : Fin n} (h : KeepsStream i lib e) :
    ((libStep lib e).1.clients i).funcPtrLogs = (lib.clients i).funcPtrLogs ∧
      ((libStep lib e).1.clients i).funcPtrEvents = (lib.clients i).funcPtrEvents := by
  refine libStep_forall (P := fun j client => j = i →
    client.funcPtrLogs = (lib.clients i).funcPtrLogs ∧
      client.funcPtrEvents = (lib.clients i).funcPtrEvents) e ?_ ?_ ?_ ?_ ?_ i rfl
  · rintro j rfl
    exact ⟨rfl, rfl⟩
  · intro j client list signalType token clientId dciReqBuf _ _ hClient
    exact hClient
  · rintro j clientId funcPtrLogs funcPtrEvents rfl hProc rfl
    exact absurd hProc h
  · intro j client flag signalType hClient
    exact hClient
  · intro j client hClient
    exact hClient

/-- Neither the table nor the requests have met anything undefined. -/
def DciLib.Defined (lib : DciLib K F n) : Prop :=
  lib.undefined = false ∧ lib.requests.undefined = false

/-- The stream callbacks that are called. -/
def streamed (outputs : List (LibOutput K F n)) : List (K × DciCall) :=
  outputs.filterMap fun
    | .streamed _ f call => some (f, call)
    | _ => none

/-- The stream callbacks made for a processor. -/
def delivered (i : Fin n) (outputs : List (LibOutput K F n)) : List (K × DciCall) :=
  outputs.filterMap fun
    | .streamed j f call => if j = i then some (f, call) else none
    | _ => none

/-- The streamed data an event brings for a processor, with the callback it is
meant for. -/
def arrived (i : Fin n) (logs events : K) : LibEvent K F n → List (K × DciCall)
  | .received j (.log p) => if j = i then [(logs, .log p)] else []
  | .received j (.event p) => if j = i then [(events, .event p)] else []
  | _ => []

/-- Step lemma: one step delivers what it brings. -/
theorem libStep_delivered [NeZero n] {lib : DciLib K F n} {i : Fin n} {logs events : K}
    (hLogs : (lib.clients i).funcPtrLogs = .func logs)
    (hEvents : (lib.clients i).funcPtrEvents = .func events) (e : LibEvent K F n) :
    delivered i (libStep lib e).2 = arrived i logs events e := by
  cases e with
  | received j call =>
      cases call with
      | signal =>
          simp only [libStep, receive, delivered, arrived]
          split <;> rfl
      | pktRsp rsp =>
          simp [libStep, receive, delivered, arrived, List.filterMap_map]
      | log p =>
          simp only [libStep, receive, delivered, arrived]
          by_cases hj : j = i
          · subst hj
            simp [hLogs, callStream]
          · cases (lib.clients j).funcPtrLogs <;> simp [callStream, hj]
      | event p =>
          simp only [libStep, receive, delivered, arrived]
          by_cases hj : j = i
          · subst hj
            simp [hEvents, callStream]
          · cases (lib.clients j).funcPtrEvents <;> simp [callStream, hj]
  | registerClient proc list signalType allocated ioctl => rfl
  | registerStream clientId funcPtrLogs funcPtrEvents => rfl
  | registerSignal clientId signalType => rfl
  | deregisterSignal clientId => rfl
  | release clientId ioctl => rfl
  | send clientId bytes target infoAllocated newReq => rfl
  | sendFailed newReq uid => rfl

/-- Run lemma: from a stream registration for a processor to the next one, each
log packet and each event for it reaches its callback once and in order,
whatever else happens. -/
theorem run_delivered [NeZero n] {lib : DciLib K F n} {i : Fin n} {logs events : K}
    (hLogs : (lib.clients i).funcPtrLogs = .func logs)
    (hEvents : (lib.clients i).funcPtrEvents = .func events) (es : List (LibEvent K F n))
    (hKeeps : Accepts libNext (KeepsStream i) lib es) :
    delivered i (run libStep lib es).2 = es.flatMap (arrived i logs events) := by
  induction es generalizing lib with
  | nil => rfl
  | cons e es ih =>
      obtain ⟨hKeep, hRest⟩ := hKeeps
      obtain ⟨hSameLogs, hSameEvents⟩ := libStep_keepsStream hKeep
      rw [run_cons, delivered, List.filterMap_append]
      show delivered i _ ++ delivered i _ = _
      rw [libStep_delivered hLogs hEvents, List.flatMap_cons,
        ih (hSameLogs.trans hLogs) (hSameEvents.trans hEvents) hRest]

/-! ## Nothing undefined -/

/-- A registered client has its request buffer. -/
def RegisteredHasBuf (lib : DciLib K F n) : Prop :=
  ∀ i, (lib.clients i).clientInfo.clientId ≠ invalidDciClient →
    (lib.clients i).dciReqBuf = .allocated

theorem libStep_registeredHasBuf [NeZero n] {lib : DciLib K F n}
    (h : RegisteredHasBuf lib) (e : LibEvent K F n) :
    RegisteredHasBuf (libStep lib e).1 := by
  refine libStep_forall (P := fun _ client =>
    client.clientInfo.clientId ≠ invalidDciClient → client.dciReqBuf = .allocated)
    e h ?_ ?_ ?_ ?_
  · intro i client list signalType token clientId dciReqBuf _ hBuf _
    exact hBuf
  · intro i clientId funcPtrLogs funcPtrEvents _ _
    exact h i
  · intro i client flag signalType hClient
    exact hClient
  · intro i client _ hNe
    exact absurd rfl hNe

/-- The call does not pass `INVALID_DCI_CLIENT` for a client. -/
def LibEvent.NamesClient : LibEvent K F n → Prop
  | .registerStream clientId _ _ => clientId ≠ invalidDciClient
  | .registerSignal clientId _ => clientId ≠ invalidDciClient
  | .deregisterSignal clientId => clientId ≠ invalidDciClient
  | .release clientId _ => clientId ≠ invalidDciClient
  | .send clientId _ _ _ _ => clientId ≠ invalidDciClient
  | _ => True

/-- The event is streamed data for a processor. -/
def LibEvent.Streams (i : Fin n) : LibEvent K F n → Prop
  | .received j (.log _) => j = i
  | .received j (.event _) => j = i
  | _ => False

/-- Stream callbacks have been registered for the processor. -/
def Streaming [NeZero n] (m : Links RequestRef) (past : List (LibEvent K F n))
    (i : Fin n) : Prop :=
  ∃ before clientId logs events after,
    past = before ++ .registerStream clientId logs events :: after ∧
      (run libStep (diagLsmDciInit m) before).1.getProc clientId = some i

theorem streaming_concat [NeZero n] (m : Links RequestRef) (past : List (LibEvent K F n))
    (e : LibEvent K F n) (i : Fin n) :
    Streaming m (past ++ [e]) i ↔ Streaming m past i ∨
      ∃ clientId logs events, e = .registerStream clientId logs events ∧
        (run libStep (diagLsmDciInit m) past).1.getProc clientId = some i := by
  constructor
  · rintro ⟨before, clientId, logs, events, after, hSplit, hProc⟩
    rcases List.eq_nil_or_concat' after with rfl | ⟨after, z, rfl⟩
    · obtain ⟨rfl, hLast⟩ := List.append_inj' hSplit rfl
      exact Or.inr ⟨clientId, logs, events, List.singleton_inj.mp hLast, hProc⟩
    · rw [← List.cons_append, ← List.append_assoc] at hSplit
      exact Or.inl ⟨before, clientId, logs, events, after,
        (List.append_inj' hSplit rfl).1, hProc⟩
  · rintro (⟨before, clientId, logs, events, after, rfl, hProc⟩ |
      ⟨clientId, logs, events, rfl, hProc⟩)
    · exact ⟨before, clientId, logs, events, after ++ [e], by simp, hProc⟩
    · exact ⟨past, clientId, logs, events, [], rfl, hProc⟩

theorem FuncPtr.ofOption_ne (f : Option K) : FuncPtr.ofOption f ≠ .indeterminate := by
  cases f <;> simp [FuncPtr.ofOption]

/-- The stream callbacks are as `malloc` gave them exactly as long as none have
been registered. -/
theorem streaming_iff [NeZero n] (m : Links RequestRef) (past : List (LibEvent K F n))
    (i : Fin n) :
    (Streaming m past i →
        ((run libStep (diagLsmDciInit m) past).1.clients i).funcPtrLogs ≠ .indeterminate ∧
        ((run libStep (diagLsmDciInit m) past).1.clients i).funcPtrEvents ≠
          .indeterminate) ∧
      (¬ Streaming m past i →
        ((run libStep (diagLsmDciInit m) past).1.clients i).funcPtrLogs = .indeterminate ∧
        ((run libStep (diagLsmDciInit m) past).1.clients i).funcPtrEvents =
          .indeterminate) := by
  induction past using List.reverseRecOn with
  | nil =>
      refine ⟨?_, fun _ => ⟨rfl, rfl⟩⟩
      rintro ⟨before, clientId, logs, events, after, hSplit, -⟩
      exact absurd hSplit (by simp)
  | append_singleton past e ih =>
      rw [streaming_concat, run_append, run_singleton]
      set lib := (run libStep (diagLsmDciInit m) past).1 with hLib
      by_cases hNow : ∃ clientId logs events, e = .registerStream clientId logs events ∧
          lib.getProc clientId = some i
      · obtain ⟨clientId, logs, events, rfl, hProc⟩ := hNow
        refine ⟨fun _ => ?_, fun hNot => absurd (Or.inr ⟨_, _, _, rfl, hProc⟩) hNot⟩
        simp only [libStep, diagRegisterDciStreamProc, hProc, set_clients, if_true]
        exact ⟨FuncPtr.ofOption_ne logs, FuncPtr.ofOption_ne events⟩
      · have hKeep : KeepsStream i lib e := by
          cases e with
          | registerStream clientId logs events =>
              exact fun hProc => hNow ⟨clientId, logs, events, rfl, hProc⟩
          | _ => trivial
        obtain ⟨hLogs, hEvents⟩ := libStep_keepsStream hKeep
        rw [hLogs, hEvents, or_iff_left hNow]
        exact ih

/-- A step with a named client does something undefined only by calling a stream
callback that has not been registered. -/
theorem libStep_undefined [NeZero n] {lib : DciLib K F n} (hBuf : RegisteredHasBuf lib)
    {e : LibEvent K F n} (hNames : e.NamesClient) :
    (libStep lib e).1.undefined = false ↔ lib.undefined = false ∧
      ∀ i p, (e = .received i (.log p) → (lib.clients i).funcPtrLogs ≠ .indeterminate) ∧
        (e = .received i (.event p) →
          (lib.clients i).funcPtrEvents ≠ .indeterminate) := by
  cases e with
  | send clientId bytes target infoAllocated newReq =>
      simp only [libStep, diagSendDciAsyncReq, reduceCtorEq, false_implies, and_self,
        implies_true, and_true]
      split
      · rfl
      · rename_i i hProc
        -- The client is registered, so the buffer is there.
        have hHas : (lib.clients i).dciReqBuf = .allocated :=
          hBuf i (by rw [getProc_clientId hProc]; exact hNames)
        rw [hHas]
        split
        · rfl
        · split
          · rfl
          · split
            · rfl
            · simp
  | received j call =>
      cases call with
      | signal => simp [libStep, receive]
      | pktRsp rsp => simp [libStep, receive]
      | log p =>
          simp only [libStep, receive, LibEvent.received.injEq, DciCall.log.injEq,
            reduceCtorEq, and_false, false_implies, and_true]
          cases hFunc : (lib.clients j).funcPtrLogs <;> simp [callStream, hFunc]
      | event p =>
          simp only [libStep, receive, LibEvent.received.injEq, DciCall.event.injEq,
            reduceCtorEq, and_false, false_implies, true_and]
          cases hFunc : (lib.clients j).funcPtrEvents <;> simp [callStream, hFunc]
  | registerClient proc list signalType allocated ioctl =>
      simp only [libStep, diagRegisterDciClient]
      split
      · simp
      · split
        · simp
        · split
          · simp [DciLib.set]
          · split <;> simp [DciLib.set]
  | registerStream clientId logs events =>
      simp only [libStep, diagRegisterDciStreamProc]
      split <;> simp [DciLib.set]
  | registerSignal clientId signalType =>
      simp only [libStep, diagRegisterDciSignalData]
      split
      · simp
      · split <;> simp [DciLib.set]
  | deregisterSignal clientId =>
      simp only [libStep, diagDeregisterDciSignalData]
      split
      · simp
      · split <;> simp [DciLib.set]
  | release clientId ioctl =>
      simp only [libStep, diagReleaseDciClient]
      split
      · simp
      · split <;> simp [DciLib.set]
  | sendFailed newReq uid => simp [libStep]

/-- Streamed data for a processor comes after a stream registration for it. -/
def StreamsInTime [NeZero n] (m : Links RequestRef) (past : List (LibEvent K F n))
    (e : LibEvent K F n) : Prop :=
  ∀ i, e.Streams i → Streaming m past i

/-- With all calls made for registered clients, nothing undefined is done with
the table exactly if all streamed data comes after a stream registration for its
processor: the request buffer is always there, also after a release and after a
failed registration. -/
theorem table_defined [NeZero n] (m : Links RequestRef) (events : List (LibEvent K F n))
    (hNames : ∀ e ∈ events, e.NamesClient) :
    (run libStep (diagLsmDciInit m) events).1.undefined = false ↔
      ∀ past e later, events = past ++ e :: later → StreamsInTime m past e := by
  induction events using List.reverseRecOn with
  | nil => simp [diagLsmDciInit]
  | append_singleton events e ih =>
      have hBuf : RegisteredHasBuf (run libStep (diagLsmDciInit m) events).1 :=
        run_invariant libStep (RegisteredHasBuf (K := K) (F := F) (n := n))
          (fun _ e h => libStep_registeredHasBuf h e)
          (fun i hNe => absurd rfl hNe) events
      have hOld := ih fun e hMem => hNames e (List.mem_append_left _ hMem)
      rw [run_append, run_singleton, forall_split_concat, ← hOld,
        libStep_undefined hBuf (hNames e (by simp))]
      refine and_congr_right fun _ => ?_
      constructor
      · intro hReady i hStreams
        by_contra hNot
        obtain ⟨hLogs, hEvents⟩ := (streaming_iff m events i).2 hNot
        cases e with
        | received j call =>
            cases call with
            | log p =>
                obtain rfl : j = i := hStreams
                exact (hReady j p).1 rfl hLogs
            | event p =>
                obtain rfl : j = i := hStreams
                exact (hReady j p).2 rfl hEvents
            | signal => exact hStreams
            | pktRsp rsp => exact hStreams
        | _ => exact hStreams
      · intro hInTime i p
        constructor
        · rintro rfl
          exact ((streaming_iff m events i).1 (hInTime i rfl)).1
        · rintro rfl
          exact ((streaming_iff m events i).1 (hInTime i rfl)).2

end Library

/-- Registration of a client and of its stream callbacks for the local
processor. -/
def registration {K : Type u} {F : Type v} (clientId : Int) (logs events : K) :
    List (LibEvent K F 1) :=
  [.registerClient 0 0 18 true clientId,
    .registerStream clientId (some logs) (some events)]

/-- A registration, and the first log packet after it. -/
def firstPacket : List (LibEvent Unit Unit 1) :=
  registration 7 () () ++ [.received ⟨0, Nat.zero_lt_one⟩ (.log ⟨fun _ => 0, 0, 0⟩)]

theorem table_defined_firstPacket :
    (run libStep (diagLsmDciInit ⟨id, id⟩ : DciLib Unit Unit 1) firstPacket).1.undefined =
      false := by
  refine (table_defined ⟨id, id⟩ firstPacket ?_).mpr ?_
  · intro e hMem
    simp only [firstPacket, registration, List.cons_append, List.nil_append,
      List.mem_cons, List.not_mem_nil, or_false] at hMem
    rcases hMem with rfl | rfl | rfl
    · trivial
    · show (7 : Int) ≠ -1
      decide
    · trivial
  · intro past e later hSplit i hStreams
    obtain rfl : i = 0 := Subsingleton.elim i 0
    -- Only the last event is streamed data, and the registration is before it.
    match past, hSplit with
    | [], hSplit =>
        obtain ⟨rfl, -⟩ := List.cons.inj hSplit
        exact hStreams.elim
    | [a], hSplit =>
        obtain ⟨rfl, -⟩ := List.cons.inj (List.cons.inj hSplit).2
        exact hStreams.elim
    | a :: b :: past, hSplit =>
        obtain ⟨hFirst, hRest⟩ := List.cons.inj hSplit
        obtain ⟨hSecond, -⟩ := List.cons.inj hRest
        subst hFirst hSecond
        exact ⟨[_], 7, some (), some (), past, rfl, by decide⟩

/-- A client is released, and then a request is sent for `INVALID_DCI_CLIENT`,
which is what the entry says: it goes to the buffer that was freed. -/
example : (run libStep (diagLsmDciInit ⟨id, id⟩ : DciLib Unit Unit 1)
    (registration 7 () () ++ [.release 7 DiagDciError.noError.value,
      .send invalidDciClient 1 ⟨none, 0, 0, 0⟩ true (some 1)])).1.undefined = true := by
  decide

end Dci
end MgComm
