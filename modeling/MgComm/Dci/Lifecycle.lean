import MgComm.Dci.MemoryPool
import MgComm.Dci.ReadThread

/-!
# The life of `DCI` objects

A `DCI` object opens the diag library in `setup_interface` and gives it back in
its destructor; in between, and also while it does either, the library's read
thread works on the client table and calls the object through `dci_object`.  The
library's own pointers survive the object: `diag_lsm_dci_deinit` frees
`dci_client_tbl` and does not clear it, nothing clears `dci_object`, and a
set-up that fails half-way leaves the driver open or gives it back, depending on
where it fails.

`lifeStep` lets the main thread build, set up and destroy one object after the
other, one call of the library at a time and with any answers of the driver and
of `malloc`, while the read thread hands over records at any point.  Nothing
freed is used exactly if no record comes before the table and its callbacks are
there, and the pools can be allocated while `dci_client_tbl` is left from an
earlier object; and the read thread never calls a destroyed object
(`lifetimes_defined`).  If the masks arrive, the client gets its request buffer and
the driver accepts registrations and releases, then between two objects nothing is
left of the first (`nothing_left`), wherever else its set-up has failed.

Two failures of `Diag_LSM_Init` are left out: `pthread_create`, and the `malloc` of
`Diag_LSM_Msg_Init`, after which it gives up as it does without pools.
-/

namespace MgComm
namespace Dci

universe v

open RingList StreamMachine

/-- Where a pointer leads. -/
inductive Pointee where
  | null
  | live
  | freed
  deriving DecidableEq

/-- What the main thread does next. -/
inductive Stage where
  /-- There is no `DCI` object. -/
  | idle
  | constructed
  -- `Diag_LSM_Init`
  | opening
  | pooling
  | tabling
  | syncing
  -- the rest of `setup_interface`
  | registering
  | signalling
  | listing
  | streaming
  /-- `setup_interface` has returned. -/
  | finished
  -- `~DCI`
  | releasing
  -- `Diag_LSM_DeInit`, called by `Diag_LSM_Init` or by `~DCI`
  | exiting (destroying : Bool)
  | joining (destroying : Bool)
  deriving DecidableEq

/-- What the driver, `malloc` and the wait for the masks answer to a call. -/
structure Answers where
  /-- `open("/dev/diag", O_RDWR)` -/
  opened : Bool
  pools : Slot → Option Nat
  /-- `malloc` of `dci_client_tbl`, and the links in this memory. -/
  allocated : Bool
  links : Links RequestRef
  /-- `do_mask_sync` -/
  synced : Bool
  reqBuf : Bool
  /-- `DIAG_IOCTL_DCI_REG`, `DIAG_IOCTL_DCI_SUPPORT` and `DIAG_IOCTL_DCI_DEINIT` -/
  registered : Int
  supported : Int
  released : Int

/-- A process with at most one `DCI` object at a time. -/
structure DciProcess (F : Type v) (n : Nat) where
  stage : Stage
  /-- `fd != DIAG_INVALID_HANDLE` -/
  fd : Bool
  /-- The read thread runs. -/
  reader : Bool
  memory : Memory
  dciClientTbl : Pointee
  lib : DciLib Proxy F n
  dciObject : Pointee
  /-- `_client_id` -/
  clientId : Int
  /-- The clients which the driver has registered. -/
  clients : List Int
  /-- Freed memory or an indeterminate pointer was used. -/
  undefined : Bool

/-- `DIAG_CON_MPSS | DIAG_CON_APSS | DIAG_CON_LPASS` -/
def periphList : UInt16 := 0x0002 ||| 0x0001 ||| 0x0004

/-- `SIGCONT` -/
def sigCont : Int := 18

/-- `DIAG_SAMPLE_SIGNAL`, `SIGRTMIN + 15`. -/
def diagSampleSignal : Int := 34 + 15

section Life

variable {F : Type v} {n : Nat}

/-- Before the first object. -/
def DciProcess.start (links : Links RequestRef) : DciProcess F n where
  stage := .idle
  fd := false
  reader := false
  memory := Memory.start
  dciClientTbl := .null
  lib := diagLsmDciInit links
  dciObject := .null
  clientId := invalidDciClient
  clients := []
  undefined := false

/-- `DiagSvc_Malloc_Init` in `Diag_LSM_Init`. -/
def initPools (s : DciProcess F n) (a : Answers) : DciProcess F n :=
  { s with
    memory := (s.memory.diagSvcMallocInit a.pools).2
    stage := if (s.memory.diagSvcMallocInit a.pools).1 then .tabling
      else .exiting false }

/-- `diag_lsm_dci_init` in `Diag_LSM_Init`.  A table that is there is lost. -/
def initTable (s : DciProcess F n) (a : Answers) : DciProcess F n :=
  if a.allocated then
    { s with dciClientTbl := .live, lib := diagLsmDciInit a.links, stage := .syncing }
  else { s with dciClientTbl := .null, stage := .exiting false }

/-- `diag_register_dci_client(&_client_id, &_periph_list, 0, &signal_type)` -/
def registerClient (s : DciProcess F n) (a : Answers) : DciProcess F n :=
  let (ret, clientId, lib) :=
    diagRegisterDciClient s.lib 0 periphList sigCont a.reqBuf a.registered
  { s with
    lib := lib
    clientId := clientId.getD s.clientId
    clients := if ret = DiagDciError.noError.value then s.clients ++ [a.registered]
      else s.clients
    stage := if ret = DiagDciError.noError.value then .signalling else .finished }

/-- `diag_register_dci_signal_data(_client_id, DIAG_SAMPLE_SIGNAL)` -/
def registerSignal (s : DciProcess F n) : DciProcess F n :=
  let (ret, lib) := diagRegisterDciSignalData s.lib s.clientId diagSampleSignal
  { s with
    lib := lib
    stage := if ret = DiagDciError.noError.value then .listing else .finished }

/-- `diag_register_dci_stream(proxy_log_handler, proxy_event_handler)`: a failure is
only reported. -/
def registerStream [NeZero n] (s : DciProcess F n) : DciProcess F n :=
  { s with
    lib := (diagRegisterDciStream s.lib (some .logHandler) (some .eventHandler)).2
    stage := .finished }

/-- `diag_release_dci_client(&_client_id)` -/
def releaseClient (s : DciProcess F n) (a : Answers) : DciProcess F n :=
  let (ret, clientId, lib) := diagReleaseDciClient s.lib s.clientId a.released
  { s with
    lib := lib
    clientId := clientId.getD s.clientId
    clients := if ret = DiagDciError.noError.value then s.clients.erase s.clientId
      else s.clients
    stage := .exiting true }

/-- The end of `Diag_LSM_DeInit`: the read thread is joined, the driver closed, and
the table freed. -/
def joinReader (s : DciProcess F n) (destroying : Bool) : DciProcess F n :=
  let s := if s.fd then
      { s with
        fd := false
        reader := false
        dciClientTbl := if s.dciClientTbl = .null then .null else .freed
        undefined := s.undefined || decide (s.dciClientTbl = .freed) }
    else s
  if destroying then { s with stage := .idle, dciObject := .freed }
  else { s with stage := .finished }

/-- The next call of the main thread, in `setup_interface` or in `~DCI`. -/
def mainStep [NeZero n] (s : DciProcess F n) (a : Answers) : DciProcess F n :=
  match s.stage with
  | .opening =>
      if s.fd then { s with stage := .pooling }
      else if a.opened then { s with fd := true, reader := true, stage := .pooling }
      else { s with stage := .finished }
  | .pooling => initPools s a
  | .tabling => initTable s a
  -- The driver stays open if the masks do not arrive.
  | .syncing => { s with stage := if a.synced then .registering else .finished }
  | .registering => registerClient s a
  | .signalling => registerSignal s
  | .listing =>
      { s with
        stage := if a.supported = DiagDciError.noError.value then .streaming
          else .finished }
  | .streaming => registerStream s
  | .releasing => releaseClient s a
  | .exiting destroying =>
      { s with memory := s.memory.diagSvcMallocExit, stage := .joining destroying }
  | .joining destroying => joinReader s destroying
  | .idle | .constructed | .finished => s

/-- The read thread hands over a record.  The proxies call the object that
`dci_object` leads to. -/
def readerStep [NeZero n] (s : DciProcess F n) (i : Fin n) (call : DciCall) :
    DciProcess F n × List (Proxy × DciCall) :=
  if s.reader then
    match s.dciClientTbl with
    | .null => (s, [])
    | .freed => ({ s with undefined := true }, [])
    | .live =>
        let calls := streamed (receive s.lib i call).2
        ({ s with
            lib := (receive s.lib i call).1
            undefined := s.undefined || (receive s.lib i call).1.undefined ||
              (decide (s.dciObject = .freed) && !calls.isEmpty) },
          if s.dciObject = .live then calls else [])
  else (s, [])

inductive LifeEvent (n : Nat) where
  /-- `DCI::DCI()` -/
  | construct
  /-- `setup_interface()` is called, once for an object. -/
  | setup
  /-- `~DCI()` is called. -/
  | destroy
  | main (a : Answers)
  | received (i : Fin n) (call : DciCall)

/-- One step; what the main thread cannot do it does not.  The outputs are the calls
that reach an object. -/
def lifeStep [NeZero n] (s : DciProcess F n) :
    LifeEvent n → DciProcess F n × List (Proxy × DciCall)
  | .construct =>
      (if s.stage = .idle then
        { s with stage := .constructed, dciObject := .live, clientId := invalidDciClient }
      else s, [])
  | .setup =>
      (if s.stage = .constructed then { s with stage := .opening } else s, [])
  | .destroy =>
      (if s.stage = .constructed ∨ s.stage = .finished then
        if s.clientId ≠ invalidDciClient then { s with stage := .releasing }
        else { s with stage := .idle, dciObject := .freed }
      else s, [])
  | .main a => (mainStep s a, [])
  | .received i call => readerStep s i call

/-- The process after some steps. -/
def lifeAfter [NeZero n] (links : Links RequestRef) (events : List (LifeEvent n)) :
    DciProcess F n :=
  (run lifeStep (DciProcess.start links) events).1

/-! ## What may be used -/

/-- The callback for the record has been written. -/
def Callable (lib : DciLib Proxy F n) (i : Fin n) : DciCall → Prop
  | .log _ => (lib.clients i).funcPtrLogs ≠ .indeterminate
  | .event _ => (lib.clients i).funcPtrEvents ≠ .indeterminate
  | _ => True

/-- A record meets no table, or a live one with the callback it needs; and
`Diag_LSM_Init` does not give up while the table pointer leads to a freed table, which
it does only if the pools cannot be allocated. -/
def MeetsLiveTable (s : DciProcess F n) : LifeEvent n → Prop
  | .received i call => s.reader = true →
      s.dciClientTbl ≠ .freed ∧ (s.dciClientTbl = .live → Callable s.lib i call)
  | .main _ => s.stage = .joining false → s.dciClientTbl ≠ .freed
  | _ => True

namespace Stage

/-- The stages in which the driver is open for sure. -/
def holdsDriver : Stage → Bool
  | .idle | .constructed | .opening | .finished => false
  | _ => true

/-- The stages in which there need not be a table although the driver is open. -/
def settingUp : Stage → Bool
  | .pooling | .tabling | .exiting false | .joining false => true
  | _ => false

/-- The stages of an object that may have a client. -/
def mayHaveClient : Stage → Bool
  | .signalling | .listing | .streaming | .finished | .releasing
  | .exiting true | .joining true => true
  | _ => false

/-- The stages of an object that has a client for sure. -/
def hasClient : Stage → Bool
  | .signalling | .listing | .streaming | .releasing | .exiting true | .joining true => true
  | _ => false

/-- The stages of an object that may have registered its callbacks. -/
def mayStream : Stage → Bool
  | .finished | .releasing | .exiting true | .joining true => true
  | _ => false

end Stage

/-- No callback has been registered. -/
def Silent (lib : DciLib Proxy F n) : Prop :=
  ∀ i f, (lib.clients i).funcPtrLogs ≠ .func f ∧ (lib.clients i).funcPtrEvents ≠ .func f

/-- What holds between all steps of both threads. -/
structure Coherent (s : DciProcess F n) : Prop where
  thread : s.reader = s.fd
  pools : s.memory.initialized = true → s.fd = true ∧ ∀ d, s.stage ≠ .joining d
  driver : s.stage.holdsDriver = true → s.fd = true
  table : s.fd = true → s.stage.settingUp = false → s.dciClientTbl = .live
  live : s.dciClientTbl = .live → s.fd = true
  object : s.dciObject = .live ↔ s.stage ≠ .idle
  client : s.stage ≠ .idle → s.clientId ≠ invalidDciClient →
    s.stage.mayHaveClient = true ∧ s.dciClientTbl = .live
  registered : s.stage.hasClient = true → s.clientId ≠ invalidDciClient
  silent : s.dciClientTbl = .live → Silent s.lib ∨
    s.stage.mayStream = true ∧ s.clientId ≠ invalidDciClient
  known : s.dciClientTbl = .live → s.lib.undefined = true → s.undefined = true

/-! ## The library functions -/

theorem receive_clients [NeZero n] (lib : DciLib Proxy F n) (i : Fin n) (call : DciCall) :
    (receive lib i call).1.clients = lib.clients := by
  cases call with
  | signal => rfl
  | pktRsp rsp => rfl
  | log p =>
      simp only [receive]
      cases (lib.clients i).funcPtrLogs <;> rfl
  | event p =>
      simp only [receive]
      cases (lib.clients i).funcPtrEvents <;> rfl

theorem receive_undefined [NeZero n] (lib : DciLib Proxy F n) (i : Fin n) (call : DciCall) :
    (receive lib i call).1.undefined = false ↔
      lib.undefined = false ∧ Callable lib i call := by
  cases call with
  | signal => simp [receive, Callable]
  | pktRsp rsp => simp [receive, Callable]
  | log p =>
      cases hFunc : (lib.clients i).funcPtrLogs <;> simp [receive, Callable, callStream, hFunc]
  | event p =>
      cases hFunc : (lib.clients i).funcPtrEvents <;>
        simp [receive, Callable, callStream, hFunc]

/-- Without callbacks nobody is called. -/
theorem streamed_of_silent [NeZero n] {lib : DciLib Proxy F n} (h : Silent lib) (i : Fin n)
    (call : DciCall) : streamed (receive lib i call).2 = [] := by
  cases call with
  | signal =>
      simp only [receive, streamed]
      split <;> rfl
  | pktRsp rsp => simp [receive, streamed, List.filterMap_map]
  | log p =>
      simp only [receive, streamed]
      cases hFunc : (lib.clients i).funcPtrLogs with
      | indeterminate => rfl
      | null => rfl
      | func f => exact absurd hFunc (h i f).1
  | event p =>
      simp only [receive, streamed]
      cases hFunc : (lib.clients i).funcPtrEvents with
      | indeterminate => rfl
      | null => rfl
      | func f => exact absurd hFunc (h i f).2

theorem silent_init (links : Links RequestRef) :
    Silent (diagLsmDciInit links : DciLib Proxy F n) := by
  intro i f
  simp [diagLsmDciInit, DiagDciClientTbl.init]

/-- Only a stream registration writes callbacks. -/
theorem Silent.libStep [NeZero n] {lib : DciLib Proxy F n} (h : Silent lib) {e : LibEvent Proxy F n}
    (hKeeps : ∀ i, KeepsStream i lib e) : Silent (libStep lib e).1 := by
  intro i f
  obtain ⟨hLogs, hEvents⟩ := libStep_keepsStream (hKeeps i)
  rw [hLogs, hEvents]
  exact h i f

@[simp] theorem registerClient_lib_undefined (s : DciProcess F n) (a : Answers) :
    (registerClient s a).lib.undefined = s.lib.undefined := by
  simp only [registerClient, diagRegisterDciClient]
  split
  · rfl
  · split
    · rfl
    · split
      · rfl
      · split <;> rfl

@[simp] theorem registerSignal_lib_undefined (s : DciProcess F n) :
    (registerSignal s).lib.undefined = s.lib.undefined := by
  simp only [registerSignal, diagRegisterDciSignalData]
  split
  · rfl
  · split <;> rfl

@[simp] theorem registerStream_lib_undefined [NeZero n] (s : DciProcess F n) :
    (registerStream s).lib.undefined = s.lib.undefined := by
  simp only [registerStream, diagRegisterDciStream, diagRegisterDciStreamProc]
  split <;> rfl

@[simp] theorem releaseClient_lib_undefined (s : DciProcess F n) (a : Answers) :
    (releaseClient s a).lib.undefined = s.lib.undefined := by
  simp only [releaseClient, diagReleaseDciClient]
  split
  · rfl
  · split <;> rfl

theorem registerClient_silent [NeZero n] {s : DciProcess F n} (h : Silent s.lib) (a : Answers) :
    Silent (registerClient s a).lib :=
  h.libStep (e := .registerClient 0 periphList sigCont a.reqBuf a.registered)
    fun _ => trivial

theorem registerSignal_silent [NeZero n] {s : DciProcess F n} (h : Silent s.lib) :
    Silent (registerSignal s).lib :=
  h.libStep (e := .registerSignal s.clientId diagSampleSignal) fun _ => trivial

/-- The client id is written where the driver was asked, and then it is valid exactly
if the registration succeeded. -/
theorem registerClient_cases (s : DciProcess F n) (a : Answers) :
    (registerClient s a).stage = .finished ∧
        (registerClient s a).clients = s.clients ∧
        ((registerClient s a).clientId = s.clientId ∨
          (registerClient s a).clientId = invalidDciClient) ∨
      (registerClient s a).stage = .signalling ∧
        (registerClient s a).clients = s.clients ++ [a.registered] ∧
        (registerClient s a).clientId = a.registered ∧ 0 ≤ a.registered := by
  simp only [registerClient, diagRegisterDciClient]
  split
  · simp [DiagDciError.value]
  · split
    · simp [DiagDciError.value]
    · split
      · simp [DiagDciError.value]
      · split
        · simp [DiagDciError.value]
        · rename_i hAnswer
          rw [not_or, Int.not_lt] at hAnswer
          exact Or.inr ⟨by simp, by simp, rfl, hAnswer.2⟩

/-! ## The steps of the main thread -/

namespace Coherent

variable {s : DciProcess F n}

/-- A step that only goes on to another stage. -/
theorem advance (h : Coherent s) {stage : Stage} (hFrom : s.stage ≠ .idle)
    (hTo : stage ≠ .idle) (hJoin : ∀ d, stage ≠ .joining d)
    (hDriver : stage.holdsDriver = true → s.fd = true)
    (hTable : s.fd = true → stage.settingUp = false → s.dciClientTbl = .live)
    (hClient : s.clientId ≠ invalidDciClient → stage.mayHaveClient = true)
    (hHas : stage.hasClient = true → s.clientId ≠ invalidDciClient)
    (hStream : s.stage.mayStream = true → stage.mayStream = true) :
    Coherent { s with stage := stage } where
  thread := h.thread
  pools hInit := ⟨(h.pools hInit).1, hJoin⟩
  driver := hDriver
  table := hTable
  live := h.live
  object := by
    rw [h.object]
    exact ⟨fun _ => hTo, fun _ => hFrom⟩
  client _ hId := ⟨hClient hId, (h.client hFrom hId).2⟩
  registered := hHas
  silent hLive := (h.silent hLive).imp_right fun hMay => ⟨hStream hMay.1, hMay.2⟩
  known := h.known

/-- The object has no client before it is registered. -/
theorem no_client (h : Coherent s) (hStage : s.stage.mayHaveClient = false)
    (hFrom : s.stage ≠ .idle) : s.clientId = invalidDciClient := by
  by_contra hId
  exact absurd (h.client hFrom hId).1 (by simp [hStage])

theorem opening (h : Coherent s) (hStage : s.stage = .opening) (a : Answers) :
    Coherent (if s.fd then { s with stage := .pooling }
      else if a.opened then { s with fd := true, reader := true, stage := .pooling }
      else { s with stage := .finished }) := by
  have hFrom : s.stage ≠ .idle := by simp [hStage]
  have hId := h.no_client (by simp [hStage, Stage.mayHaveClient]) hFrom
  split
  case isTrue hOpen =>
    exact h.advance hFrom (by simp) (by simp) (fun _ => hOpen) (by simp [Stage.settingUp])
      (fun hNe => absurd hId hNe) (by simp [Stage.hasClient])
      (by simp [hStage, Stage.mayStream])
  case isFalse hClosed =>
    split
    case isTrue =>
      have hNotLive : s.dciClientTbl ≠ .live := fun hLive => hClosed (h.live hLive)
      constructor
      case thread => rfl
      case pools => exact fun hInit => absurd (h.pools hInit).1 hClosed
      case driver => exact fun _ => rfl
      case table => simp [Stage.settingUp]
      case live => exact fun _ => rfl
      case object => simp [h.object, hStage]
      case client => exact fun _ hNe => absurd hId hNe
      case registered => simp [Stage.hasClient]
      case silent => exact fun hLive => absurd hLive hNotLive
      case known => exact h.known
    case isFalse =>
      exact h.advance hFrom (by simp) (by simp) (by simp [Stage.holdsDriver])
        (fun hOpen => absurd hOpen hClosed) (fun hNe => absurd hId hNe)
        (by simp [Stage.hasClient]) (by simp [Stage.mayStream])

/-- The pools are initialised or `Diag_LSM_Init` gives up. -/
theorem pooling (h : Coherent s) (hStage : s.stage = .pooling) (a : Answers) :
    Coherent (initPools s a) := by
  have hOpen := h.driver (by simp [hStage, Stage.holdsDriver])
  have hId := h.no_client (by simp [hStage, Stage.mayHaveClient]) (by simp [hStage])
  unfold initPools
  constructor
  case thread => exact h.thread
  case pools => exact fun _ => ⟨hOpen, by split <;> simp⟩
  case driver => exact fun _ => hOpen
  case table => split <;> simp [Stage.settingUp]
  case live => exact h.live
  case object => split <;> simp [h.object, hStage]
  case client => exact fun _ hNe => absurd hId hNe
  case registered => split <;> simp [Stage.hasClient]
  case silent =>
    intro hLive
    exact (h.silent hLive).imp_right fun hMay => absurd hId hMay.2
  case known => exact h.known

/-- There is a new table, or none. -/
theorem tabling (h : Coherent s) (hStage : s.stage = .tabling) (a : Answers) :
    Coherent (initTable s a) := by
  have hOpen := h.driver (by simp [hStage, Stage.holdsDriver])
  have hId := h.no_client (by simp [hStage, Stage.mayHaveClient]) (by simp [hStage])
  unfold initTable
  split
  case isTrue =>
    constructor
    case thread => exact h.thread
    case pools => exact fun _ => ⟨hOpen, by simp⟩
    case driver => exact fun _ => hOpen
    case table => exact fun _ _ => rfl
    case live => exact fun _ => hOpen
    case object => simp [h.object, hStage]
    case client => exact fun _ hNe => absurd hId hNe
    case registered => simp [Stage.hasClient]
    case silent => exact fun _ => Or.inl (silent_init a.links)
    case known => exact fun _ hUndefined => Bool.noConfusion hUndefined
  case isFalse =>
    constructor
    case thread => exact h.thread
    case pools => exact fun _ => ⟨hOpen, by simp⟩
    case driver => exact fun _ => hOpen
    case table => simp [Stage.settingUp]
    case live => simp
    case object => simp [h.object, hStage]
    case client => exact fun _ hNe => absurd hId hNe
    case registered => simp [Stage.hasClient]
    case silent => simp
    case known => simp

/-- Before the object's last stages no callback has been registered. -/
theorem is_silent (h : Coherent s) (hLive : s.dciClientTbl = .live)
    (hStage : s.stage.mayStream = false) : Silent s.lib :=
  (h.silent hLive).resolve_right fun hMay => by simp [hStage] at hMay

theorem registering [NeZero n] (h : Coherent s) (hStage : s.stage = .registering)
    (a : Answers) : Coherent (registerClient s a) := by
  have hOpen := h.driver (by simp [hStage, Stage.holdsDriver])
  have hLive := h.table hOpen (by simp [hStage, Stage.settingUp])
  have hId := h.no_client (by simp [hStage, Stage.mayHaveClient]) (by simp [hStage])
  have hSilent := registerClient_silent (h.is_silent hLive (by simp [hStage, Stage.mayStream])) a
  have hKnown : (registerClient s a).lib.undefined = true → s.undefined = true := by
    rw [registerClient_lib_undefined]
    exact h.known hLive
  rcases registerClient_cases s a with ⟨hNext, -, hNew⟩ | ⟨hNext, -, hNew, hValid⟩
  · have hNone : (registerClient s a).clientId = invalidDciClient :=
      hNew.elim (fun hSame => hSame.trans hId) id
    constructor
    case thread => exact h.thread
    case pools => exact fun _ => ⟨hOpen, by simp [hNext]⟩
    case driver => exact fun _ => hOpen
    case table => exact fun _ _ => hLive
    case live => exact fun _ => hOpen
    case object =>
      rw [show (registerClient s a).dciObject = s.dciObject from rfl, h.object, hStage]
      simp [hNext]
    case client => exact fun _ hNe => absurd hNone hNe
    case registered => simp [hNext, Stage.hasClient]
    case silent => exact fun _ => Or.inl hSilent
    case known => exact fun _ => hKnown
  · constructor
    case thread => exact h.thread
    case pools => exact fun _ => ⟨hOpen, by simp [hNext]⟩
    case driver => exact fun _ => hOpen
    case table => exact fun _ _ => hLive
    case live => exact fun _ => hOpen
    case object =>
      rw [show (registerClient s a).dciObject = s.dciObject from rfl, h.object, hStage]
      simp [hNext]
    case client => exact fun _ _ => ⟨by simp [hNext, Stage.mayHaveClient], hLive⟩
    case registered =>
      intro _ hNone
      rw [hNew] at hNone
      exact absurd (hNone ▸ hValid) (by decide)
    case silent => exact fun _ => Or.inl hSilent
    case known => exact fun _ => hKnown

theorem signalling [NeZero n] (h : Coherent s) (hStage : s.stage = .signalling) :
    Coherent (registerSignal s) := by
  have hOpen := h.driver (by simp [hStage, Stage.holdsDriver])
  have hLive := h.table hOpen (by simp [hStage, Stage.settingUp])
  have hSilent := registerSignal_silent (h.is_silent hLive (by simp [hStage, Stage.mayStream]))
  have hNext : (registerSignal s).stage = .listing ∨ (registerSignal s).stage = .finished := by
    simp only [registerSignal]
    split <;> simp
  constructor
  case thread => exact h.thread
  case pools => exact fun _ => ⟨hOpen, by rcases hNext with hNext | hNext <;> simp [hNext]⟩
  case driver => exact fun _ => hOpen
  case table => exact fun _ _ => hLive
  case live => exact fun _ => hOpen
  case object =>
    rw [show (registerSignal s).dciObject = s.dciObject from rfl, h.object, hStage]
    rcases hNext with hNext | hNext <;> simp [hNext]
  case client =>
    refine fun _ _ => ⟨?_, hLive⟩
    rcases hNext with hNext | hNext <;> simp [hNext, Stage.mayHaveClient]
  case registered => exact fun _ => h.registered (by simp [hStage, Stage.hasClient])
  case silent => exact fun _ => Or.inl hSilent
  case known =>
    rw [registerSignal_lib_undefined]
    exact h.known

/-- The callbacks are registered, for an object with a client. -/
theorem streaming [NeZero n] (h : Coherent s) (hStage : s.stage = .streaming) :
    Coherent (registerStream s) := by
  have hId := h.registered (by simp [hStage, Stage.hasClient])
  have hOpen := h.driver (by simp [hStage, Stage.holdsDriver])
  have hLive := h.table hOpen (by simp [hStage, Stage.settingUp])
  constructor
  case thread => exact h.thread
  case pools => exact fun _ => ⟨hOpen, by simp [registerStream]⟩
  case driver => exact fun _ => hOpen
  case table => exact fun _ _ => hLive
  case live => exact fun _ => hOpen
  case object => simpa [registerStream, hStage] using h.object
  case client => exact fun _ _ => ⟨rfl, hLive⟩
  case registered => exact fun _ => hId
  case silent => exact fun _ => Or.inr ⟨rfl, hId⟩
  case known =>
    rw [registerStream_lib_undefined]
    exact h.known

/-- Releasing a client writes 0 or nothing to its id. -/
theorem releasing [NeZero n] (h : Coherent s) (hStage : s.stage = .releasing)
    (a : Answers) : Coherent (releaseClient s a) := by
  have hOpen := h.driver (by simp [hStage, Stage.holdsDriver])
  have hLive := h.table hOpen (by simp [hStage, Stage.settingUp])
  have hId := h.registered (by simp [hStage, Stage.hasClient])
  have hStill : (releaseClient s a).clientId ≠ invalidDciClient := by
    simp only [releaseClient, diagReleaseDciClient]
    split
    · exact hId
    · split
      · exact hId
      · simp [invalidDciClient]
  constructor
  case thread => exact h.thread
  case pools => exact fun _ => ⟨hOpen, by simp [releaseClient]⟩
  case driver => exact fun _ => hOpen
  case table => exact fun _ _ => hLive
  case live => exact fun _ => hOpen
  case object =>
    rw [show (releaseClient s a).dciObject = s.dciObject from rfl, h.object, hStage]
    simp [releaseClient]
  case client => exact fun _ _ => ⟨rfl, hLive⟩
  case registered => exact fun _ => hStill
  case silent => exact fun _ => Or.inr ⟨rfl, hStill⟩
  case known =>
    rw [releaseClient_lib_undefined]
    exact h.known

/-- The pools are torn down while the read thread still runs. -/
theorem exiting (h : Coherent s) {destroying : Bool} (hStage : s.stage = .exiting destroying) :
    Coherent { s with memory := s.memory.diagSvcMallocExit, stage := .joining destroying } := by
  have hOpen := h.driver (by simp [hStage, Stage.holdsDriver])
  constructor
  case thread => exact h.thread
  case pools => exact fun hInit => Bool.noConfusion hInit
  case driver => exact fun _ => hOpen
  case table =>
    intro _ hUp
    refine h.table hOpen ?_
    cases destroying <;> simp_all [Stage.settingUp]
  case live => exact h.live
  case object => simp [h.object, hStage]
  case client =>
    intro _ hNe
    obtain ⟨hMay, hLive⟩ := h.client (by simp [hStage]) hNe
    refine ⟨?_, hLive⟩
    cases destroying <;> simp_all [Stage.mayHaveClient]
  case registered =>
    intro hHas
    refine h.registered ?_
    cases destroying <;> simp_all [Stage.hasClient]
  case silent =>
    intro hLive
    refine (h.silent hLive).imp_right fun hMay => ⟨?_, hMay.2⟩
    cases destroying <;> simp_all [Stage.mayStream]
  case known => exact h.known

/-- The read thread is gone, and the table with it. -/
theorem joining (h : Coherent s) {destroying : Bool} (hStage : s.stage = .joining destroying) :
    Coherent (joinReader s destroying) := by
  have hOpen := h.driver (by simp [hStage, Stage.holdsDriver])
  have hGone : (if s.dciClientTbl = .null then Pointee.null else .freed) ≠ .live := by
    split <;> simp
  have hOff : s.memory.initialized ≠ true := fun hInit =>
    (h.pools hInit).2 destroying hStage
  simp only [joinReader, hOpen, if_true]
  cases destroying with
  | false =>
      have hId := h.no_client (by simp [hStage, Stage.mayHaveClient]) (by simp [hStage])
      constructor
      case thread => rfl
      case pools => exact fun hInit => absurd hInit hOff
      case driver => simp [Stage.holdsDriver]
      case table => simp
      case live => exact fun hLive => absurd hLive hGone
      case object => simp [h.object, hStage]
      case client => exact fun _ hNe => absurd hId hNe
      case registered => simp [Stage.hasClient]
      case silent => exact fun hLive => absurd hLive hGone
      case known => exact fun hLive => absurd hLive hGone
  | true =>
      constructor
      case thread => rfl
      case pools => exact fun hInit => absurd hInit hOff
      case driver => simp [Stage.holdsDriver]
      case table => simp
      case live => exact fun hLive => absurd hLive hGone
      case object => simp
      case client => simp
      case registered => simp [Stage.hasClient]
      case silent => exact fun hLive => absurd hLive hGone
      case known => exact fun hLive => absurd hLive hGone

/-- Every step of the main thread. -/
theorem mainStep [NeZero n] (h : Coherent s) (a : Answers) : Coherent (mainStep s a) := by
  unfold Dci.mainStep
  cases hStage : s.stage with
  | opening => exact h.opening hStage a
  | pooling => exact h.pooling hStage a
  | tabling => exact h.tabling hStage a
  | syncing =>
      have hOpen := h.driver (by simp [hStage, Stage.holdsDriver])
      have hLive := h.table hOpen (by simp [hStage, Stage.settingUp])
      have hId := h.no_client (by simp [hStage, Stage.mayHaveClient]) (by simp [hStage])
      refine h.advance (by simp [hStage]) ?_ ?_ (fun _ => hOpen) (fun _ _ => hLive)
        (fun hNe => absurd hId hNe) ?_ (by simp [hStage, Stage.mayStream]) <;>
        split <;> simp [Stage.hasClient]
  | registering => exact h.registering hStage a
  | signalling => exact h.signalling hStage
  | listing =>
      have hOpen := h.driver (by simp [hStage, Stage.holdsDriver])
      have hLive := h.table hOpen (by simp [hStage, Stage.settingUp])
      have hId := h.registered (by simp [hStage, Stage.hasClient])
      refine h.advance (by simp [hStage]) ?_ ?_ (fun _ => hOpen) (fun _ _ => hLive)
        (fun _ => ?_) (fun _ => hId) (by simp [hStage, Stage.mayStream]) <;>
        split <;> simp [Stage.mayHaveClient]
  | streaming => exact h.streaming hStage
  | releasing => exact h.releasing hStage a
  | exiting destroying => exact h.exiting hStage
  | joining destroying => exact h.joining hStage
  | idle => exact h
  | constructed => exact h
  | finished => exact h

/-- Where a callback is registered there is an object. -/
theorem object_live [NeZero n] (h : Coherent s) (hLive : s.dciClientTbl = .live) {i : Fin n}
    {call : DciCall} (hCalls : streamed (receive s.lib i call).2 ≠ []) :
    s.dciObject = .live := by
  rw [h.object]
  rcases h.silent hLive with hSilent | ⟨hMay, -⟩
  · exact absurd (streamed_of_silent hSilent i call) hCalls
  · intro hIdle
    simp [hIdle, Stage.mayStream] at hMay

theorem readerStep [NeZero n] (h : Coherent s) (i : Fin n) (call : DciCall) :
    Coherent (readerStep s i call).1 := by
  unfold Dci.readerStep
  split
  · split
    · exact h
    · next hFreed =>
        constructor
        case thread => exact h.thread
        case pools => exact h.pools
        case driver => exact h.driver
        case table => exact h.table
        case live => exact h.live
        case object => exact h.object
        case client => exact h.client
        case registered => exact h.registered
        case silent => exact h.silent
        case known => exact fun _ _ => rfl
    · next hLive =>
        constructor
        case thread => exact h.thread
        case pools => exact h.pools
        case driver => exact h.driver
        case table => exact h.table
        case live => exact h.live
        case object => exact h.object
        case client => exact h.client
        case registered => exact h.registered
        case silent =>
          intro _
          simp only [Silent, receive_clients]
          exact h.silent hLive
        case known =>
          intro _ hUndefined
          simp only at hUndefined ⊢
          rw [hUndefined, Bool.or_true, Bool.true_or]
  · exact h

theorem construct (h : Coherent s) (hStage : s.stage = .idle) :
    Coherent { s with
      stage := .constructed, dciObject := .live, clientId := invalidDciClient } where
  thread := h.thread
  pools hInit := ⟨(h.pools hInit).1, by simp⟩
  driver := by simp [Stage.holdsDriver]
  table hOpen _ := h.table hOpen (by simp [hStage, Stage.settingUp])
  live := h.live
  object := by simp
  client _ hNe := absurd rfl hNe
  registered := by simp [Stage.hasClient]
  silent hLive := Or.inl (h.is_silent hLive (by simp [hStage, Stage.mayStream]))
  known := h.known

/-- The destructor of an object without a client does nothing. -/
theorem destroyed (h : Coherent s) (hStage : s.stage = .constructed ∨ s.stage = .finished)
    (hId : s.clientId = invalidDciClient) :
    Coherent { s with stage := .idle, dciObject := .freed } where
  thread := h.thread
  pools hInit := ⟨(h.pools hInit).1, by simp⟩
  driver := by simp [Stage.holdsDriver]
  table hOpen _ := h.table hOpen (by
    rcases hStage with hStage | hStage <;> simp [hStage, Stage.settingUp])
  live := h.live
  object := by simp
  client hNe := absurd rfl hNe
  registered := by simp [Stage.hasClient]
  silent hLive := Or.inl ((h.silent hLive).resolve_right fun hMay => hMay.2 hId)
  known := h.known

/-- Only the end of `Diag_LSM_DeInit` frees the table. -/
theorem mainStep_undefined [NeZero n] (hStage : ¬ ∃ d, s.stage = .joining d) (a : Answers) :
    (Dci.mainStep s a).undefined = s.undefined := by
  unfold Dci.mainStep
  cases hNow : s.stage with
  | opening =>
      simp only
      split
      · rfl
      · split <;> rfl
  | pooling => rfl
  | tabling =>
      simp only [initTable]
      split <;> rfl
  | joining d => exact absurd ⟨d, hNow⟩ hStage
  | syncing => rfl
  | registering => rfl
  | signalling => rfl
  | listing => rfl
  | streaming => rfl
  | releasing => rfl
  | exiting d => rfl
  | idle => rfl
  | constructed => rfl
  | finished => rfl

/-- Step lemma: every step of both threads keeps the invariant. -/
theorem lifeStep [NeZero n] (h : Coherent s) (e : LifeEvent n) : Coherent (lifeStep s e).1 := by
  cases e with
  | construct =>
      simp only [Dci.lifeStep]
      split
      case isTrue hStage => exact h.construct hStage
      case isFalse => exact h
  | setup =>
      simp only [Dci.lifeStep]
      split
      case isTrue hStage =>
        have hId := h.no_client (by simp [hStage, Stage.mayHaveClient]) (by simp [hStage])
        exact h.advance (by simp [hStage]) (by simp) (by simp) (by simp [Stage.holdsDriver])
          (fun hOpen _ => h.table hOpen (by simp [hStage, Stage.settingUp]))
          (fun hNe => absurd hId hNe) (by simp [Stage.hasClient])
          (by simp [hStage, Stage.mayStream])
      case isFalse => exact h
  | destroy =>
      simp only [Dci.lifeStep]
      split
      case isTrue hStage =>
        have hFrom : s.stage ≠ .idle := by
          rcases hStage with hStage | hStage <;> simp [hStage]
        split
        case isTrue hId =>
          have hLive := (h.client hFrom hId).2
          exact h.advance hFrom (by simp) (by simp) (fun _ => h.live hLive)
            (fun _ _ => hLive) (fun _ => rfl) (fun _ => hId) (fun _ => rfl)
        case isFalse hId => exact h.destroyed hStage (not_not.mp hId)
      case isFalse => exact h
  | main a => exact h.mainStep a
  | received i call => exact h.readerStep i call

/-- Only a record without its callback, or a table that is freed twice, is
undefined. -/
theorem lifeStep_undefined [NeZero n] (h : Coherent s) (hDefined : s.undefined = false)
    (e : LifeEvent n) : (Dci.lifeStep s e).1.undefined = false ↔ MeetsLiveTable s e := by
  cases e with
  | construct =>
      simp only [Dci.lifeStep, MeetsLiveTable, iff_true]
      split <;> exact hDefined
  | setup =>
      simp only [Dci.lifeStep, MeetsLiveTable, iff_true]
      split <;> exact hDefined
  | destroy =>
      simp only [Dci.lifeStep, MeetsLiveTable, iff_true]
      split
      · split <;> exact hDefined
      · exact hDefined
  | main a =>
      by_cases hStage : ∃ d, s.stage = .joining d
      · obtain ⟨d, hStage⟩ := hStage
        have hOpen := h.driver (by simp [hStage, Stage.holdsDriver])
        have hUndefined : (Dci.mainStep s a).undefined = decide (s.dciClientTbl = .freed) := by
          simp only [Dci.mainStep, hStage, joinReader, hOpen, if_true, hDefined, Bool.false_or]
          cases d <;> rfl
        simp only [Dci.lifeStep, MeetsLiveTable, hUndefined, decide_eq_false_iff_not, hStage,
          Stage.joining.injEq]
        cases d with
        | false => simp
        | true =>
            have hLive := h.table hOpen (by simp [hStage, Stage.settingUp])
            simp [hLive]
      · have hNot : s.stage ≠ .joining false := fun hEq => hStage ⟨false, hEq⟩
        simp only [Dci.lifeStep, MeetsLiveTable, hNot, false_implies, iff_true]
        rw [mainStep_undefined hStage]
        exact hDefined
  | received i call =>
      simp only [Dci.lifeStep, MeetsLiveTable, Dci.readerStep]
      cases hReader : s.reader with
      | false => simp [hDefined]
      | true =>
          cases hTable : s.dciClientTbl with
          | null => simp [hDefined]
          | freed => simp
          | live =>
              have hKnown : s.lib.undefined = false := by
                cases hUndefined : s.lib.undefined with
                | false => rfl
                | true => exact (h.known hTable hUndefined).symm.trans hDefined
              have hAlive : (decide (s.dciObject = .freed) &&
                  !(streamed (receive s.lib i call).2).isEmpty) = false := by
                cases hCalls : streamed (receive s.lib i call).2 with
                | nil => simp
                | cons c calls =>
                    have hSome : streamed (receive s.lib i call).2 ≠ [] := by simp [hCalls]
                    rw [h.object_live hTable hSome]
                    rfl
              simp only [if_true, hAlive, Bool.or_false, hDefined, Bool.false_or,
                receive_undefined, hKnown, true_and]
              simp

end Coherent

theorem coherent_start (links : Links RequestRef) :
    Coherent (DciProcess.start links : DciProcess F n) := by
  constructor
  case silent => exact fun hLive => Pointee.noConfusion hLive
  all_goals simp [DciProcess.start, Memory.start, Stage.holdsDriver, Stage.hasClient,
    Stage.settingUp]

/-- The read thread takes up the record and calls a stream callback with it. -/
def CallsBack [NeZero n] (s : DciProcess F n) (i : Fin n) (call : DciCall) : Prop :=
  s.reader = true ∧ s.dciClientTbl = .live ∧ streamed (receive s.lib i call).2 ≠ []

/-- Nothing freed and no indeterminate pointer is ever used, exactly if each record
meets what it needs and no set-up fails before its table while the pointer to the
last one is left.  Whenever the read thread calls a callback, which goes through
`dci_object`, there is an object. -/
theorem lifetimes_defined [NeZero n] (links : Links RequestRef) (events : List (LifeEvent n)) :
    ((∀ past later, events = past ++ later →
        (lifeAfter links past : DciProcess F n).undefined = false) ↔
      ∀ past e later, events = past ++ e :: later →
        MeetsLiveTable (lifeAfter links past : DciProcess F n) e) ∧
      ∀ past i call later, events = past ++ .received i call :: later →
        CallsBack (lifeAfter links past : DciProcess F n) i call →
          (lifeAfter links past : DciProcess F n).dciObject = .live := by
  constructor
  · refine run_safe_iff lifeStep (fun s => Coherent s ∧ s.undefined = false)
      (fun s => s.undefined = false) MeetsLiveTable ?_ ?_ ?_ ⟨coherent_start links, rfl⟩ events
    · exact fun s h => h.2
    · exact fun s e h hMeets => ⟨h.1.lifeStep e, (h.1.lifeStep_undefined h.2 e).mpr hMeets⟩
    · exact fun s e h hNot hDefined => hNot ((h.1.lifeStep_undefined h.2 e).mp hDefined)
  · rintro past i call later - ⟨-, hLive, hCalls⟩
    have hCoherent : Coherent (lifeAfter links past : DciProcess F n) :=
      run_invariant lifeStep Coherent (fun s e h => h.lifeStep e) (coherent_start links) past
    exact hCoherent.object_live hLive hCalls

/-- Everything succeeds. -/
def allAccepted : Answers where
  opened := true
  pools := fun slot => some (if slot.1 = .gen then slot.2.val else 100 + slot.2.val)
  allocated := true
  links := ⟨id, id⟩
  synced := true
  reqBuf := true
  registered := 7
  supported := DiagDciError.noError.value
  released := DiagDciError.noError.value

/-- A log packet comes when the client is registered and the callbacks are not. -/
def earlyLog : List (LifeEvent 1) :=
  [.construct, .setup] ++ List.replicate 5 (.main allAccepted) ++
    [.received ⟨0, Nat.zero_lt_one⟩ (.log ⟨fun _ => 0, 0, 0⟩)]

theorem lifetimes_defined_earlyLog :
    ¬ ∀ past e later, earlyLog = past ++ e :: later →
      MeetsLiveTable (lifeAfter ⟨id, id⟩ past : DciProcess Unit 1) e := by
  rw [← (lifetimes_defined ⟨id, id⟩ earlyLog).1]
  intro hDefined
  exact absurd (hDefined earlyLog [] (by simp)) (by decide)

/-! ## What is left of an object -/

namespace Stage

/-- The stages from a registration to the release. -/
def keepsClient : Stage → Bool
  | .signalling | .listing | .streaming | .finished | .releasing => true
  | _ => false

/-- The stages with a new table. -/
def newTable : Stage → Bool
  | .syncing | .registering => true
  | _ => false

/-- The stages before `Diag_LSM_Init` and without an object. -/
def outside : Stage → Bool
  | .idle | .constructed | .opening => true
  | _ => false

end Stage

/-- The masks arrive, `malloc` gives the client its `dci_req_buf`, and the driver
accepts registrations and releases. -/
def Accepted (s : DciProcess F n) : LifeEvent n → Prop
  | .main a =>
      (s.stage = .syncing → a.synced = true) ∧
      (s.stage = .registering → a.reqBuf = true ∧ 0 ≤ a.registered ∧
        a.registered ≠ DiagDciError.noReg.value) ∧
      (s.stage = .releasing → a.released = DiagDciError.noError.value)
  | _ => True

/-- An object that was set up owns the driver, and the table and the driver know its
client. -/
structure Owned [NeZero n] (s : DciProcess F n) : Prop where
  driver : s.fd = true → s.stage.outside = false ∧
    (s.stage = .finished → s.clientId ≠ invalidDciClient)
  fresh : s.stage.newTable = true →
    (s.lib.clients 0).clientInfo.clientId = invalidDciClient
  entry : s.stage.keepsClient = true → s.clientId ≠ invalidDciClient →
    (s.lib.clients 0).clientInfo.clientId = s.clientId
  clients : s.clients =
    if s.stage.keepsClient = true ∧ s.clientId ≠ invalidDciClient then [s.clientId] else []

/-- The entry of the local processor is found by its client. -/
theorem getProc_zero [NeZero n] {lib : DciLib Proxy F n} {clientId : Int}
    (h : (lib.clients 0).clientInfo.clientId = clientId) : lib.getProc clientId = some 0 := by
  obtain ⟨k, rfl⟩ := Nat.exists_eq_succ_of_ne_zero (NeZero.ne n)
  have hProc : diagDciGetProc lib.toDiagLib clientId = 0 := by
    simp only [diagDciGetProc, DciLib.toDiagLib, Int.toNat_natCast]
    rw [List.take_of_length_le (by simp), List.ofFn_succ, List.findIdx?_cons]
    simp [h]
  rw [DciLib.getProc, hProc]
  simp [procIndex]

/-- A new table's client is registered if the driver accepts it. -/
theorem registerClient_accepted [NeZero n] {s : DciProcess F n} {a : Answers}
    (hFresh : (s.lib.clients 0).clientInfo.clientId = invalidDciClient)
    (hBuf : a.reqBuf = true) (hValid : 0 ≤ a.registered)
    (hReg : a.registered ≠ DiagDciError.noReg.value) :
    (registerClient s a).stage = .signalling ∧
      (registerClient s a).clients = s.clients ++ [a.registered] ∧
      (registerClient s a).clientId = a.registered ∧
      ((registerClient s a).lib.clients 0).clientInfo.clientId = a.registered := by
  have hIndex : procIndex n 0 = some 0 := by
    have hPos := Nat.pos_of_neZero n
    simp only [procIndex]
    rw [dif_pos ⟨Int.le_refl 0, by omega⟩]
    rfl
  have hRefused : ¬ (a.registered = DiagDciError.noReg.value ∨ a.registered < 0) := by
    rw [not_or, Int.not_lt]
    exact ⟨hReg, hValid⟩
  simp [registerClient, diagRegisterDciClient, hIndex, hFresh, hBuf, hRefused, set_clients]

/-- A registered client is released if the driver accepts it. -/
theorem releaseClient_accepted [NeZero n] {s : DciProcess F n} {a : Answers}
    (hEntry : (s.lib.clients 0).clientInfo.clientId = s.clientId)
    (hReleased : a.released = DiagDciError.noError.value) :
    (releaseClient s a).clients = s.clients.erase s.clientId := by
  simp [releaseClient, diagReleaseDciClient, getProc_zero hEntry, hReleased]

theorem set_clientInfo (lib : DciLib Proxy F n) {i : Fin n} {client : DiagDciClientTbl Proxy}
    (h : client.clientInfo = (lib.clients i).clientInfo) (j : Fin n) :
    ((lib.set i client).clients j).clientInfo = (lib.clients j).clientInfo := by
  rw [set_clients]
  split
  · next hEq => rw [h, hEq]
  · rfl

theorem registerSignal_clientInfo (s : DciProcess F n) (j : Fin n) :
    ((registerSignal s).lib.clients j).clientInfo = (s.lib.clients j).clientInfo := by
  simp only [registerSignal, diagRegisterDciSignalData]
  split
  · rfl
  · split
    · rfl
    · exact set_clientInfo _ (by rfl) j

theorem registerStream_clientInfo [NeZero n] (s : DciProcess F n) (j : Fin n) :
    ((registerStream s).lib.clients j).clientInfo = (s.lib.clients j).clientInfo := by
  simp only [registerStream, diagRegisterDciStream, diagRegisterDciStreamProc]
  split
  · rfl
  · exact set_clientInfo _ (by rfl) j

namespace Owned

variable [NeZero n] {s : DciProcess F n}

/-- Before the registration the driver knows no client. -/
theorem no_clients (h : Owned s) (hStage : s.stage.keepsClient = false) :
    s.clients = [] := by
  rw [h.clients, if_neg (by simp [hStage])]

theorem opening (h : Owned s) (hCoherent : Coherent s) (hStage : s.stage = .opening)
    (a : Answers) :
    Owned (if s.fd then { s with stage := .pooling }
      else if a.opened then { s with fd := true, reader := true, stage := .pooling }
      else { s with stage := .finished }) := by
  have hClosed : ¬ s.fd = true := fun hOpen => by
    have hOutside := (h.driver hOpen).1
    simp [hStage, Stage.outside] at hOutside
  have hId := hCoherent.no_client (by simp [hStage, Stage.mayHaveClient]) (by simp [hStage])
  have hNone := h.no_clients (by simp [hStage, Stage.keepsClient])
  rw [if_neg hClosed]
  split
  · constructor
    case driver => simp [Stage.outside]
    case fresh => simp [Stage.newTable]
    case entry => simp [Stage.keepsClient]
    case clients => simp [Stage.keepsClient, hNone]
  · constructor
    case driver => exact fun hOpen => absurd hOpen hClosed
    case fresh => simp [Stage.newTable]
    case entry => exact fun _ hNe => absurd hId hNe
    case clients => simp [hId, hNone]

theorem pooling (h : Owned s) (hStage : s.stage = .pooling) (a : Answers) :
    Owned (initPools s a) := by
  have hNone := h.no_clients (by simp [hStage, Stage.keepsClient])
  have hNext : (initPools s a).stage = .tabling ∨ (initPools s a).stage = .exiting false := by
    simp only [initPools]
    split <;> simp
  constructor
  case driver => rcases hNext with hNext | hNext <;> simp [hNext, Stage.outside]
  case fresh => rcases hNext with hNext | hNext <;> simp [hNext, Stage.newTable]
  case entry => rcases hNext with hNext | hNext <;> simp [hNext, Stage.keepsClient]
  case clients =>
    rw [show (initPools s a).clients = s.clients from rfl, hNone]
    rcases hNext with hNext | hNext <;> simp [hNext, Stage.keepsClient]

theorem tabling (h : Owned s) (hStage : s.stage = .tabling) (a : Answers) :
    Owned (initTable s a) := by
  have hNone := h.no_clients (by simp [hStage, Stage.keepsClient])
  unfold initTable
  split
  · constructor
    case driver => simp [Stage.outside]
    case fresh => exact fun _ => rfl
    case entry => simp [Stage.keepsClient]
    case clients => simp [Stage.keepsClient, hNone]
  · constructor
    case driver => simp [Stage.outside]
    case fresh => simp [Stage.newTable]
    case entry => simp [Stage.keepsClient]
    case clients => simp [Stage.keepsClient, hNone]

theorem registering (h : Owned s) (hStage : s.stage = .registering) {a : Answers}
    (hBuf : a.reqBuf = true) (hValid : 0 ≤ a.registered)
    (hReg : a.registered ≠ DiagDciError.noReg.value) : Owned (registerClient s a) := by
  have hNone := h.no_clients (by simp [hStage, Stage.keepsClient])
  have hFresh := h.fresh (by simp [hStage, Stage.newTable])
  obtain ⟨hNext, hClients, hId, hEntry⟩ := registerClient_accepted hFresh hBuf hValid hReg
  have hNe : a.registered ≠ invalidDciClient := fun hEq => by
    rw [hEq] at hValid
    exact absurd hValid (by decide)
  constructor
  case driver => simp [hNext, Stage.outside]
  case fresh => simp [hNext, Stage.newTable]
  case entry => exact fun _ _ => hEntry.trans hId.symm
  case clients => simp [hNext, hClients, hNone, hId, hNe, Stage.keepsClient]

/-- The table's clients stay, and the object's. -/
theorem keep (h : Owned s) (hKeeps : s.stage.keepsClient = true)
    (hId : s.clientId ≠ invalidDciClient) {lib : DciLib Proxy F n}
    (hSame : (lib.clients 0).clientInfo = (s.lib.clients 0).clientInfo) {stage : Stage}
    (hOutside : stage.outside = false) (hNew : stage.newTable = false)
    (hStill : stage.keepsClient = true) : Owned { s with lib := lib, stage := stage } where
  driver _ := ⟨hOutside, fun _ => hId⟩
  fresh hTable := by simp [hNew] at hTable
  entry _ hNe := by
    rw [hSame]
    exact h.entry hKeeps hNe
  clients := by
    have hBefore := h.clients
    rw [hKeeps] at hBefore
    simpa [hStill] using hBefore

theorem releasing (h : Owned s) (hStage : s.stage = .releasing)
    (hId : s.clientId ≠ invalidDciClient) {a : Answers}
    (hReleased : a.released = DiagDciError.noError.value) : Owned (releaseClient s a) := by
  have hKeeps : s.stage.keepsClient = true := by simp [hStage, Stage.keepsClient]
  have hEntry := h.entry hKeeps hId
  have hOne : s.clients = [s.clientId] := by rw [h.clients, if_pos ⟨hKeeps, hId⟩]
  constructor
  case driver => simp [releaseClient, Stage.outside]
  case fresh => simp [releaseClient, Stage.newTable]
  case entry => simp [releaseClient, Stage.keepsClient]
  case clients =>
    rw [releaseClient_accepted hEntry hReleased, hOne]
    simp [releaseClient, Stage.keepsClient]

theorem joining (h : Owned s) (hCoherent : Coherent s) {destroying : Bool}
    (hStage : s.stage = .joining destroying) : Owned (joinReader s destroying) := by
  have hOpen := hCoherent.driver (by simp [hStage, Stage.holdsDriver])
  have hNone := h.no_clients (by simp [hStage, Stage.keepsClient])
  simp only [joinReader, hOpen, if_true]
  cases destroying with
  | false =>
      have hId := hCoherent.no_client (by simp [hStage, Stage.mayHaveClient])
        (by simp [hStage])
      constructor
      case driver => simp
      case fresh => simp [Stage.newTable]
      case entry => exact fun _ hNe => absurd hId hNe
      case clients => simp [hId, hNone]
  | true =>
      constructor
      case driver => simp
      case fresh => simp [Stage.newTable]
      case entry => simp [Stage.keepsClient]
      case clients => simp [Stage.keepsClient, hNone]

/-- A step of the main thread, if the driver accepts it. -/
theorem mainStep (h : Owned s) (hCoherent : Coherent s) {a : Answers}
    (hAccepted : Accepted s (.main a)) : Owned (mainStep s a) := by
  obtain ⟨hSynced, hRegistered, hReleased⟩ := hAccepted
  unfold Dci.mainStep
  cases hStage : s.stage with
  | opening => exact h.opening hCoherent hStage a
  | pooling => exact h.pooling hStage a
  | tabling => exact h.tabling hStage a
  | syncing =>
      have hNone := h.no_clients (by simp [hStage, Stage.keepsClient])
      simp only [hSynced hStage, if_true]
      constructor
      case driver => simp [Stage.outside]
      case fresh => exact fun _ => h.fresh (by simp [hStage, Stage.newTable])
      case entry => simp [Stage.keepsClient]
      case clients => simp [Stage.keepsClient, hNone]
  | registering =>
      obtain ⟨hBuf, hValid, hReg⟩ := hRegistered hStage
      exact h.registering hStage hBuf hValid hReg
  | signalling =>
      have hId := hCoherent.registered (by simp [hStage, Stage.hasClient])
      refine h.keep (by simp [hStage, Stage.keepsClient]) hId
        (registerSignal_clientInfo s 0) ?_ ?_ ?_ <;> split <;> rfl
  | listing =>
      have hId := hCoherent.registered (by simp [hStage, Stage.hasClient])
      refine h.keep (by simp [hStage, Stage.keepsClient]) hId rfl ?_ ?_ ?_ <;>
        split <;> rfl
  | streaming =>
      have hId := hCoherent.registered (by simp [hStage, Stage.hasClient])
      exact h.keep (by simp [hStage, Stage.keepsClient]) hId
        (registerStream_clientInfo s 0) rfl rfl rfl
  | releasing =>
      exact h.releasing hStage (hCoherent.registered (by simp [hStage, Stage.hasClient]))
        (hReleased hStage)
  | exiting destroying =>
      have hNone := h.no_clients (by simp [hStage, Stage.keepsClient])
      constructor
      case driver => simp [Stage.outside]
      case fresh => simp [Stage.newTable]
      case entry => simp [Stage.keepsClient]
      case clients => simp [Stage.keepsClient, hNone]
  | joining destroying => exact h.joining hCoherent hStage
  | idle => exact h
  | constructed => exact h
  | finished => exact h

theorem lifeStep (h : Owned s) (hCoherent : Coherent s) {e : LifeEvent n}
    (hAccepted : Accepted s e) : Owned (lifeStep s e).1 := by
  cases e with
  | construct =>
      simp only [Dci.lifeStep]
      split
      case isTrue hStage =>
        have hNone := h.no_clients (by simp [hStage, Stage.keepsClient])
        constructor
        case driver =>
          intro hOpen
          have hOutside := (h.driver hOpen).1
          simp [hStage, Stage.outside] at hOutside
        case fresh => simp [Stage.newTable]
        case entry => simp [Stage.keepsClient]
        case clients => simp [Stage.keepsClient, hNone]
      case isFalse => exact h
  | setup =>
      simp only [Dci.lifeStep]
      split
      case isTrue hStage =>
        have hNone := h.no_clients (by simp [hStage, Stage.keepsClient])
        constructor
        case driver =>
          intro hOpen
          have hOutside := (h.driver hOpen).1
          simp [hStage, Stage.outside] at hOutside
        case fresh => simp [Stage.newTable]
        case entry => simp [Stage.keepsClient]
        case clients => simp [Stage.keepsClient, hNone]
      case isFalse => exact h
  | destroy =>
      simp only [Dci.lifeStep]
      split
      case isTrue hStage =>
        split
        case isTrue hId =>
          have hFinished : s.stage = .finished := by
            refine hStage.resolve_left fun hConstructed => hId ?_
            exact hCoherent.no_client (by simp [hConstructed, Stage.mayHaveClient])
              (by simp [hConstructed])
          exact h.keep (by simp [hFinished, Stage.keepsClient]) hId rfl rfl rfl rfl
        case isFalse hId =>
          have hNone : s.clients = [] := by
            rw [h.clients, if_neg fun hBoth => hId hBoth.2]
          constructor
          case driver =>
            intro hOpen
            obtain ⟨hOutside, hFinished⟩ := h.driver hOpen
            rcases hStage with hStage | hStage
            · simp [hStage, Stage.outside] at hOutside
            · exact absurd (hFinished hStage) hId
          case fresh => simp [Stage.newTable]
          case entry => simp [Stage.keepsClient]
          case clients => simp [Stage.keepsClient, hNone]
      case isFalse => exact h
  | main a => exact h.mainStep hCoherent hAccepted
  | received i call =>
      simp only [Dci.lifeStep, readerStep]
      split
      · split
        · exact h
        · exact ⟨h.driver, h.fresh, h.entry, h.clients⟩
        · refine ⟨h.driver, ?_, ?_, h.clients⟩
          · simp only [receive_clients]
            exact h.fresh
          · simp only [receive_clients]
            exact h.entry
      · exact h

end Owned

/-- The pools belong to nobody but themselves. -/
def PoolsKept (m : Memory) : Prop :=
  PoolInv m [] (fun _ => False) ∧ m.Ready

/-- Only `Diag_LSM_Init` and `Diag_LSM_DeInit` touch the pools. -/
theorem lifeStep_poolsKept [NeZero n] {s : DciProcess F n} (h : PoolsKept s.memory)
    (e : LifeEvent n) : PoolsKept (lifeStep s e).1.memory := by
  cases e with
  | construct =>
      simp only [lifeStep]
      split <;> exact h
  | setup =>
      simp only [lifeStep]
      split <;> exact h
  | destroy =>
      simp only [lifeStep]
      split
      · split <;> exact h
      · exact h
  | received i call =>
      simp only [lifeStep, readerStep]
      split
      · split <;> exact h
      · exact h
  | main a =>
      simp only [lifeStep, mainStep]
      cases s.stage with
      | pooling => exact h.1.diagSvcMallocInit h.2 a.pools
      | exiting d => exact h.1.diagSvcMallocExit (by simp)
      | opening =>
          simp only
          split
          · exact h
          · split <;> exact h
      | tabling =>
          simp only [initTable]
          split <;> exact h
      | joining d =>
          simp only [joinReader]
          split <;> split <;> exact h
      | _ => exact h

theorem PoolsKept.empty {m : Memory} (h : PoolsKept m) (hOff : m.initialized = false)
    (a : Nat) : m.blocks a = none := by
  by_contra hLive
  rcases h.1.covered a hLive with ⟨slot, hPtr⟩ | ⟨b, hMem, -⟩ | hLost
  · exact absurd ((h.2 slot).mpr hOff) (by simp [hPtr])
  · exact absurd hMem (by simp)
  · exact hLost

/-- If the masks arrive, the client gets its request buffer, and registrations and
releases are accepted, nothing is left of an object: the driver is closed and knows no
client, the read thread has ended, and the pools and the table are freed.  Everything
else in its set-up may have failed. -/
theorem nothing_left [NeZero n] (links : Links RequestRef) (events : List (LifeEvent n))
    (hAccepted : ∀ past e later, events = past ++ e :: later →
      Accepted (lifeAfter links past : DciProcess F n) e)
    (hIdle : (lifeAfter links events : DciProcess F n).stage = .idle) :
    let s : DciProcess F n := lifeAfter links events
    s.fd = false ∧ s.reader = false ∧ s.clients = [] ∧ s.dciClientTbl ≠ .live ∧
      s.memory.initialized = false ∧ ∀ a, s.memory.blocks a = none := by
  have hStart : Owned (DciProcess.start links : DciProcess F n) := by
    constructor <;> simp [DciProcess.start, Stage.newTable, Stage.keepsClient]
  obtain ⟨⟨hOwned, hCoherent⟩, hPools⟩ := run_invariant_of_split lifeStep
    (fun s : DciProcess F n => (Owned s ∧ Coherent s) ∧ PoolsKept s.memory) Accepted
    (fun s e h hGood =>
      ⟨⟨h.1.1.lifeStep h.1.2 hGood, h.1.2.lifeStep e⟩, lifeStep_poolsKept h.2 e⟩)
    ⟨⟨hStart, coherent_start links⟩, poolInv_start, ready_start⟩ events hAccepted
  intro s
  change s.stage = .idle at hIdle
  have hClosed : s.fd = false := by
    refine Bool.eq_false_of_not_eq_true fun hOpen => ?_
    have hOutside : s.stage.outside = false := (hOwned.driver hOpen).1
    simp [hIdle, Stage.outside] at hOutside
  have hNotOpen : ¬ s.fd = true := by simp [hClosed]
  have hOff : s.memory.initialized = false :=
    Bool.eq_false_of_not_eq_true fun hInit => hNotOpen (hCoherent.pools hInit).1
  refine ⟨hClosed, hCoherent.thread.trans hClosed, ?_, ?_, hOff, hPools.empty hOff⟩
  · exact hOwned.no_clients (show s.stage.keepsClient = false by rw [hIdle]; rfl)
  · exact fun hLive => hNotOpen (hCoherent.live hLive)

/-- An object is set up and destroyed. -/
def lifetime : List (LifeEvent n) :=
  [.construct, .setup] ++ List.replicate 8 (.main allAccepted) ++
    [.destroy] ++ List.replicate 3 (.main allAccepted)

theorem nothing_left_lifetime :
    let s : DciProcess Unit 1 := lifeAfter ⟨id, id⟩ lifetime
    s.fd = false ∧ s.reader = false ∧ s.clients = [] ∧ s.dciClientTbl ≠ .live ∧
      s.memory.initialized = false ∧ ∀ a, s.memory.blocks a = none := by
  refine nothing_left ⟨id, id⟩ lifetime ?_ (by decide)
  intro past e later hSplit
  have hMem : e ∈ lifetime := by
    rw [hSplit]
    simp
  cases e with
  | main a =>
      obtain rfl : a = allAccepted := by
        simpa [lifetime] using hMem
      exact ⟨fun _ => rfl, fun _ => ⟨rfl, by decide, by decide⟩, fun _ => rfl⟩
  | construct => trivial
  | setup => trivial
  | destroy => trivial
  | received i call => trivial

/-- Without the buffer the set-up fails after the start of the library, and the
destructor of an object without a client leaves the driver open. -/
example : (lifeAfter ⟨id, id⟩ ([.construct, .setup] ++
    List.replicate 5 (.main { allAccepted with reqBuf := false }) ++
      [.destroy, .main allAccepted]) : DciProcess Unit 1).stage = .idle ∧
    (lifeAfter ⟨id, id⟩ ([.construct, .setup] ++
      List.replicate 5 (.main { allAccepted with reqBuf := false }) ++
        [.destroy, .main allAccepted]) : DciProcess Unit 1).fd = true := by
  decide

end Life

end Dci
end MgComm
