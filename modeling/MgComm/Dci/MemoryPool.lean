import MgComm.Library.StreamMachine
import Mathlib.Data.List.FinRange
import Mathlib.Data.List.Nodup
import Mathlib.Logic.Function.Basic

/-!
# The buffer pools of the diag library

`DiagSvc_Malloc` gives out buffers of two pools of ten and asks `malloc` only for
what does not fit or is left over; `DiagSvc_Free` finds out by the address where
a buffer came from.  `malloc` may fail and may answer with any address that is not
in use, also with one that was freed before.

A client that gives back what it holds, with the service it asked for, is modelled
together with the pools.  The buffers it holds are live, large enough and its own
in every state, and nothing is freed twice, exactly if the pools are never torn
down while it holds one of their buffers (`buffers_safe`).  Nothing is lost exactly
if moreover every buffer is given back to initialised pools and for one of the two
services (`nothing_lost`).  And a small buffer can be had without `malloc` exactly
while the client holds fewer than ten of the pool (`pool_serves`).
-/

namespace MgComm
namespace Dci

open StreamMachine

/-- The two services with a pool each. -/
inductive Service where
  | gen
  | pkt
  deriving DecidableEq

/-- `DIAGSVC_MALLOC_MAX_ITEMS` -/
def diagsvcMallocMaxItems : Nat := 10

/-- `DIAGSVC_MALLOC_ITEM_SIZE` -/
def diagsvcMallocItemSize : Nat := 2000

/-- `GEN_SVC_ID` -/
def genSvcId : Int := 1

/-- `PKT_SVC_ID` -/
def pktSvcId : Int := 2

/-- `switch (Svc_ID)`: the pool, if it is not `NULL`. -/
def poolOf (svcId : Int) : Option Service :=
  if svcId = genSvcId then some .gen
  else if svcId = pktSvcId then some .pkt
  else none

/-- `diagmem`. -/
structure Diagmem where
  ptr : Option Nat
  inUse : Bool

/-- A place in `gaDiagSvcMalloc` or in `gaDiagSvcPktMalloc`. -/
abbrev Slot := Service × Fin diagsvcMallocMaxItems

/-- The two pools, and the blocks of the heap with their sizes. -/
structure Memory where
  pools : Slot → Diagmem
  /-- `gnDiagSvcMalloc_Initialized` -/
  initialized : Bool
  blocks : Nat → Option Nat
  /-- `free` was called with an address that is no block. -/
  undefined : Bool

namespace Memory

/-- Before `DiagSvc_Malloc_Init`: static storage is zero. -/
def start : Memory where
  pools := fun _ => ⟨none, false⟩
  initialized := false
  blocks := fun _ => none
  undefined := false

def setPtr (m : Memory) (slot : Slot) (ptr : Option Nat) : Memory :=
  { m with pools := Function.update m.pools slot ⟨ptr, (m.pools slot).inUse⟩ }

def setInUse (m : Memory) (slot : Slot) (inUse : Bool) : Memory :=
  { m with pools := Function.update m.pools slot ⟨(m.pools slot).ptr, inUse⟩ }

/-- `malloc(size)`: the answer is `NULL` or an address where no block is. -/
def malloc (m : Memory) (size : Nat) (answer : Option Nat) : Option Nat × Memory :=
  match answer.filter fun a => decide (m.blocks a = none) with
  | none => (none, m)
  | some a => (some a, { m with blocks := Function.update m.blocks a (some size) })

/-- `free(ptr)` -/
def free (m : Memory) (a : Nat) : Memory :=
  if m.blocks a = none then { m with undefined := true }
  else { m with blocks := Function.update m.blocks a none }

/-- The loop of `DiagSvc_Malloc`: the first buffer that is not in use. -/
def findFree (m : Memory) (s : Service) : Option (Fin diagsvcMallocMaxItems) :=
  (List.finRange diagsvcMallocMaxItems).find? fun i => !(m.pools (s, i)).inUse

/-- The loop of `DiagSvc_Free`: the first buffer with this address. -/
def findPtr (m : Memory) (s : Service) (a : Nat) :
    Option (Fin diagsvcMallocMaxItems) :=
  (List.finRange diagsvcMallocMaxItems).find? fun i =>
    decide ((m.pools (s, i)).ptr = some a)

/-- `void *DiagSvc_Malloc(size_t size, int Svc_ID)` -/
def diagSvcMalloc (m : Memory) (size : Nat) (svcId : Int) (answer : Option Nat) :
    Option Nat × Memory :=
  if m.initialized = false then (none, m)
  -- This test comes before the one of the service.
  else if diagsvcMallocItemSize < size then m.malloc size answer
  else
    match poolOf svcId with
    | none => (none, m)
    | some s =>
        match m.findFree s with
        | none => m.malloc size answer
        | some i =>
            match (m.pools (s, i)).ptr with
            | some a => (some a, m.setInUse (s, i) true)
            | none => (m.setInUse (s, i) true).malloc size answer

/-- `void DiagSvc_Free(void *ptr, int Svc_ID)` -/
def diagSvcFree (m : Memory) (ptr : Option Nat) (svcId : Int) : Memory :=
  if m.initialized = false then m
  else
    match ptr, poolOf svcId with
    | some a, some s =>
        match m.findPtr s a with
        | some i => m.setInUse (s, i) false
        | none => m.free a
    | _, _ => m

/-- What `DiagSvc_Malloc_Exit` does with a place of a pool. -/
def releaseItem (m : Memory) (slot : Slot) : Memory :=
  match (m.pools slot).ptr with
  | some a => ((m.free a).setPtr slot none).setInUse slot false
  | none => m.setInUse slot false

/-- The places of the pools in the order of the loops. -/
def slots : List Slot :=
  (List.finRange diagsvcMallocMaxItems).flatMap fun i => [(.gen, i), (.pkt, i)]

/-- `void DiagSvc_Malloc_Exit(void)` -/
def diagSvcMallocExit (m : Memory) : Memory :=
  { slots.foldl releaseItem m with initialized := false }

/-- `pool[i].ptr = malloc(DIAGSVC_MALLOC_ITEM_SIZE)` -/
def allocItem (m : Memory) (slot : Slot) (answer : Option Nat) : Memory :=
  (m.malloc diagsvcMallocItemSize answer).2.setPtr slot
    (m.malloc diagsvcMallocItemSize answer).1

/-- The loop of `DiagSvc_Malloc_Init`. -/
def initItems (answers : Slot → Option Nat) :
    List (Fin diagsvcMallocMaxItems) → Memory → Bool × Memory
  | [], m => (true, { m with initialized := true })
  | i :: rest, m =>
      let m := (m.allocItem (.gen, i) (answers (.gen, i))).allocItem (.pkt, i)
        (answers (.pkt, i))
      if (m.pools (.gen, i)).ptr = none ∨ (m.pools (.pkt, i)).ptr = none then
        (false, m.diagSvcMallocExit)
      else initItems answers rest
        ((m.setInUse (.gen, i) false).setInUse (.pkt, i) false)

/-- `boolean DiagSvc_Malloc_Init(void)` -/
def diagSvcMallocInit (m : Memory) (answers : Slot → Option Nat) : Bool × Memory :=
  if m.initialized then (true, m)
  else initItems answers (List.finRange diagsvcMallocMaxItems) m

end Memory

/-! ## A client of the pools -/

/-- A buffer which the client asked for and was given. -/
structure Buffer where
  addr : Nat
  size : Nat
  svcId : Int
  deriving DecidableEq

/-- The pools and the buffers the client holds. -/
structure PoolClient where
  memory : Memory
  held : List Buffer

inductive PoolEvent where
  | init (answers : Slot → Option Nat)
  | exit
  | malloc (size : Nat) (svcId : Int) (answer : Option Nat)
  /-- A buffer is given back, if the client holds it. -/
  | free (b : Buffer)

def PoolClient.start : PoolClient := ⟨Memory.start, []⟩

/-- One call of the client, with what `DiagSvc_Malloc` returns. -/
def poolStep (c : PoolClient) : PoolEvent → PoolClient × List (Option Nat)
  | .init answers => (⟨(c.memory.diagSvcMallocInit answers).2, c.held⟩, [])
  | .exit => (⟨c.memory.diagSvcMallocExit, c.held⟩, [])
  | .malloc size svcId answer =>
      match c.memory.diagSvcMalloc size svcId answer with
      | (some a, m) => (⟨m, c.held ++ [⟨a, size, svcId⟩]⟩, [some a])
      | (none, m) => (⟨m, c.held⟩, [none])
  | .free b =>
      if b ∈ c.held then
        (⟨c.memory.diagSvcFree (some b.addr) b.svcId, c.held.erase b⟩, [])
      else (c, [])

/-- The client after its calls. -/
def poolAfter (events : List PoolEvent) : PoolClient :=
  (run poolStep PoolClient.start events).1

/-- The client can use what it holds: each buffer is a block which is large enough,
no two are the same block, and no call has freed what is no block. -/
structure PoolClient.Safe (c : PoolClient) : Prop where
  room : ∀ b ∈ c.held, ∃ size, c.memory.blocks b.addr = some size ∧ b.size ≤ size
  distinct : (c.held.map Buffer.addr).Nodup
  defined : c.memory.undefined = false

/-- Every block is in a pool or held by the client. -/
def PoolClient.Accounted (c : PoolClient) : Prop :=
  ∀ a, c.memory.blocks a ≠ none →
    (∃ slot, (c.memory.pools slot).ptr = some a) ∨ ∃ b ∈ c.held, b.addr = a

/-- The buffer is one of a pool. -/
def Memory.Pooled (m : Memory) (b : Buffer) : Prop :=
  ∃ slot, (m.pools slot).ptr = some b.addr

/-- The pools are not torn down under the client. -/
def PoolClient.Allowed (c : PoolClient) : PoolEvent → Prop
  | .exit => ∀ b ∈ c.held, ¬ c.memory.Pooled b
  | _ => True

/-- Moreover a buffer is given back to initialised pools and for one of the two
services. -/
def PoolClient.Tidy (c : PoolClient) : PoolEvent → Prop
  | .exit => ∀ b ∈ c.held, ¬ c.memory.Pooled b
  | .free b => b ∈ c.held → c.memory.initialized = true ∧ (poolOf b.svcId).isSome = true
  | _ => True

/-! ## The invariant -/

/-- The buffers of the pools are blocks of their own, in use exactly while the
client holds them; the client holds blocks of its own; every block is in a pool,
held, or in `lost`. -/
structure PoolInv (m : Memory) (held : List Buffer) (lost : Nat → Prop) : Prop where
  live : ∀ slot a, (m.pools slot).ptr = some a →
    m.blocks a = some diagsvcMallocItemSize
  apart : ∀ slot slot' a, (m.pools slot).ptr = some a →
    (m.pools slot').ptr = some a → slot = slot'
  used : ∀ slot a, (m.pools slot).ptr = some a →
    ((m.pools slot).inUse = true ↔ ∃ b ∈ held, b.addr = a)
  idle : ∀ slot, (m.pools slot).ptr = none → (m.pools slot).inUse = false
  own : ∀ b ∈ held, ∀ slot, (m.pools slot).ptr = some b.addr →
    poolOf b.svcId = some slot.1
  room : ∀ b ∈ held, ∃ size, m.blocks b.addr = some size ∧ b.size ≤ size
  distinct : (held.map Buffer.addr).Nodup
  defined : m.undefined = false
  covered : ∀ a, m.blocks a ≠ none →
    (∃ slot, (m.pools slot).ptr = some a) ∨ (∃ b ∈ held, b.addr = a) ∨ lost a

/-- The pools are there exactly while they are initialised. -/
def Memory.Ready (m : Memory) : Prop :=
  ∀ slot, (m.pools slot).ptr = none ↔ m.initialized = false

/-- A block which is neither in a pool nor held. -/
structure Loose (m : Memory) (held : List Buffer) (a size : Nat) : Prop where
  live : m.blocks a = some size
  unpooled : ∀ slot, (m.pools slot).ptr ≠ some a
  unheld : ∀ b ∈ held, b.addr ≠ a

namespace Memory

@[simp] theorem setInUse_ptr (m : Memory) (slot slot' : Slot) (inUse : Bool) :
    ((m.setInUse slot inUse).pools slot').ptr = (m.pools slot').ptr := by
  by_cases h : slot' = slot
  · subst h
    simp [setInUse]
  · simp [setInUse, Function.update_of_ne h]

@[simp] theorem setInUse_blocks (m : Memory) (slot : Slot) (inUse : Bool) :
    (m.setInUse slot inUse).blocks = m.blocks := rfl

@[simp] theorem setInUse_undefined (m : Memory) (slot : Slot) (inUse : Bool) :
    (m.setInUse slot inUse).undefined = m.undefined := rfl

@[simp] theorem setInUse_initialized (m : Memory) (slot : Slot) (inUse : Bool) :
    (m.setInUse slot inUse).initialized = m.initialized := rfl

@[simp] theorem setInUse_same (m : Memory) (slot : Slot) (inUse : Bool) :
    ((m.setInUse slot inUse).pools slot).inUse = inUse := by
  simp [setInUse]

@[simp] theorem setPtr_same (m : Memory) (slot : Slot) (ptr : Option Nat) :
    (m.setPtr slot ptr).pools slot = ⟨ptr, (m.pools slot).inUse⟩ := by
  simp [setPtr]

theorem setPtr_other (m : Memory) {slot slot' : Slot} (h : slot' ≠ slot)
    (ptr : Option Nat) : (m.setPtr slot ptr).pools slot' = m.pools slot' := by
  simp [setPtr, Function.update_of_ne h]

@[simp] theorem setPtr_blocks (m : Memory) (slot : Slot) (ptr : Option Nat) :
    (m.setPtr slot ptr).blocks = m.blocks := rfl

@[simp] theorem setPtr_undefined (m : Memory) (slot : Slot) (ptr : Option Nat) :
    (m.setPtr slot ptr).undefined = m.undefined := rfl

@[simp] theorem setPtr_initialized (m : Memory) (slot : Slot) (ptr : Option Nat) :
    (m.setPtr slot ptr).initialized = m.initialized := rfl

theorem setInUse_self {m : Memory} {slot : Slot} {inUse : Bool}
    (h : (m.pools slot).inUse = inUse) : m.setInUse slot inUse = m := by
  subst h
  simp [setInUse, Function.update_eq_self]

theorem setPtr_self {m : Memory} {slot : Slot} {ptr : Option Nat}
    (h : (m.pools slot).ptr = ptr) : m.setPtr slot ptr = m := by
  subst h
  simp [setPtr, Function.update_eq_self]

@[simp] theorem free_pools (m : Memory) (a : Nat) : (m.free a).pools = m.pools := by
  unfold free
  split <;> rfl

@[simp] theorem free_initialized (m : Memory) (a : Nat) :
    (m.free a).initialized = m.initialized := by
  unfold free
  split <;> rfl

@[simp] theorem malloc_pools (m : Memory) (size : Nat) (answer : Option Nat) :
    (m.malloc size answer).2.pools = m.pools := by
  unfold malloc
  split <;> rfl

@[simp] theorem malloc_initialized (m : Memory) (size : Nat) (answer : Option Nat) :
    (m.malloc size answer).2.initialized = m.initialized := by
  unfold malloc
  split <;> rfl

theorem releaseItem_ptr (m : Memory) (slot slot' : Slot) :
    ((m.releaseItem slot).pools slot').ptr =
      if slot' = slot then none else (m.pools slot').ptr := by
  unfold releaseItem
  by_cases hSlot : slot' = slot
  · subst hSlot
    split
    · simp
    · next hNull => simp [hNull]
  · split <;> simp [setPtr_other _ hSlot, hSlot]

@[simp] theorem releaseItem_initialized (m : Memory) (slot : Slot) :
    (m.releaseItem slot).initialized = m.initialized := by
  unfold releaseItem
  split <;> simp

theorem allocItem_other (m : Memory) {slot slot' : Slot} (h : slot' ≠ slot)
    (answer : Option Nat) : (m.allocItem slot answer).pools slot' = m.pools slot' := by
  simp [allocItem, setPtr_other _ h]

@[simp] theorem allocItem_initialized (m : Memory) (slot : Slot) (answer : Option Nat) :
    (m.allocItem slot answer).initialized = m.initialized := by
  simp [allocItem]

theorem setInUse_other (m : Memory) {slot slot' : Slot} (h : slot' ≠ slot)
    (inUse : Bool) : (m.setInUse slot inUse).pools slot' = m.pools slot' := by
  simp [setInUse, Function.update_of_ne h]

/-- What `malloc` does. -/
theorem malloc_cases (m : Memory) (size : Nat) (answer : Option Nat) :
    m.malloc size answer = (none, m) ∨
    ∃ a, m.blocks a = none ∧ m.malloc size answer =
      (some a, { m with blocks := Function.update m.blocks a (some size) }) := by
  unfold malloc
  cases h : answer.filter fun a => decide (m.blocks a = none) with
  | none => exact Or.inl rfl
  | some a =>
      have hFresh := (Option.filter_eq_some_iff.mp h).2
      exact Or.inr ⟨a, of_decide_eq_true hFresh, rfl⟩

theorem findFree_spec {m : Memory} {s : Service} {i : Fin diagsvcMallocMaxItems}
    (h : m.findFree s = some i) : (m.pools (s, i)).inUse = false := by
  have hFound := List.find?_some h
  simpa using hFound

theorem findPtr_spec {m : Memory} {s : Service} {a : Nat}
    {i : Fin diagsvcMallocMaxItems} (h : m.findPtr s a = some i) :
    (m.pools (s, i)).ptr = some a := by
  have hFound := List.find?_some h
  exact of_decide_eq_true hFound

theorem findPtr_none {m : Memory} {s : Service} {a : Nat} (h : m.findPtr s a = none)
    (i : Fin diagsvcMallocMaxItems) : (m.pools (s, i)).ptr ≠ some a := by
  have hNone := List.find?_eq_none.mp h i (List.mem_finRange i)
  simpa using hNone

/-- What `DiagSvc_Malloc` does: nothing, or it asks `malloc`, or it takes a buffer
of a pool. -/
theorem diagSvcMalloc_cases {m : Memory} (hReady : m.Ready) (size : Nat) (svcId : Int)
    (answer : Option Nat) :
    ((m.initialized = false ∨
        size ≤ diagsvcMallocItemSize ∧ poolOf svcId = none) ∧
      m.diagSvcMalloc size svcId answer = (none, m)) ∨
    (m.initialized = true ∧ (diagsvcMallocItemSize < size ∨
        ∃ s, poolOf svcId = some s ∧ m.findFree s = none) ∧
      m.diagSvcMalloc size svcId answer = m.malloc size answer) ∨
    ∃ s i a, poolOf svcId = some s ∧ size ≤ diagsvcMallocItemSize ∧
      m.initialized = true ∧ m.findFree s = some i ∧
      (m.pools (s, i)).ptr = some a ∧
      m.diagSvcMalloc size svcId answer = (some a, m.setInUse (s, i) true) := by
  cases hInit : m.initialized with
  | false => exact Or.inl ⟨Or.inl rfl, by simp [diagSvcMalloc, hInit]⟩
  | true =>
      by_cases hBig : diagsvcMallocItemSize < size
      · exact Or.inr (Or.inl ⟨rfl, Or.inl hBig, by simp [diagSvcMalloc, hInit, hBig]⟩)
      · have hFits := Nat.le_of_not_lt hBig
        cases hPool : poolOf svcId with
        | none =>
            exact Or.inl ⟨Or.inr ⟨hFits, rfl⟩, by
              simp [diagSvcMalloc, hInit, hBig, hPool]⟩
        | some s =>
            cases hFree : m.findFree s with
            | none =>
                exact Or.inr (Or.inl ⟨rfl, Or.inr ⟨s, rfl, hFree⟩, by
                  simp [diagSvcMalloc, hInit, hBig, hPool, hFree]⟩)
            | some i =>
                cases hPtr : (m.pools (s, i)).ptr with
                | none =>
                    have hOff := (hReady (s, i)).mp hPtr
                    exact absurd (hInit.symm.trans hOff) (by decide)
                | some a =>
                    exact Or.inr (Or.inr ⟨s, i, a, rfl, hFits, rfl, hFree, hPtr, by
                      simp [diagSvcMalloc, hInit, hBig, hPool, hFree, hPtr]⟩)

theorem mem_slots (slot : Slot) : slot ∈ slots := by
  obtain ⟨s, i⟩ := slot
  refine List.mem_flatMap.mpr ⟨i, List.mem_finRange i, ?_⟩
  cases s <;> simp

end Memory

namespace PoolInv

variable {m : Memory} {held : List Buffer} {lost : Nat → Prop}

/-- Two buffers the client holds at one address are one buffer. -/
theorem held_unique (h : PoolInv m held lost) {b b' : Buffer} (hMem : b ∈ held)
    (hMem' : b' ∈ held) (hAddr : b.addr = b'.addr) : b = b' :=
  List.inj_on_of_nodup_map h.distinct hMem hMem' hAddr

theorem nodup (h : PoolInv m held lost) : held.Nodup :=
  List.Nodup.of_map _ h.distinct

/-- What the client still holds is at another address than what it gave back. -/
theorem mem_erase (h : PoolInv m held lost) {b : Buffer} (hMem : b ∈ held)
    (b' : Buffer) : b' ∈ held.erase b ↔ b' ∈ held ∧ b'.addr ≠ b.addr := by
  rw [h.nodup.mem_erase_iff]
  constructor
  · rintro ⟨hNe, hMem'⟩
    exact ⟨hMem', fun hAddr => hNe (h.held_unique hMem' hMem hAddr)⟩
  · rintro ⟨hMem', hAddr⟩
    exact ⟨fun hEq => hAddr (hEq ▸ rfl), hMem'⟩

theorem distinct_erase (h : PoolInv m held lost) (b : Buffer) :
    ((held.erase b).map Buffer.addr).Nodup :=
  List.Nodup.sublist ((List.erase_sublist).map Buffer.addr) h.distinct

theorem nodup_concat (hNodup : (held.map Buffer.addr).Nodup) {a : Nat}
    (hNotHeld : ∀ b ∈ held, b.addr ≠ a) (size : Nat) (svcId : Int) :
    ((held ++ [(⟨a, size, svcId⟩ : Buffer)]).map Buffer.addr).Nodup := by
  rw [List.map_append, List.nodup_append]
  refine ⟨hNodup, by simp, ?_⟩
  intro a' hMem a'' hMem'
  obtain ⟨b, hHeld, rfl⟩ := List.mem_map.mp hMem
  rw [show a'' = a by simpa using hMem']
  exact hNotHeld b hHeld

/-- Where no block is, there is no buffer of a pool and none of the client. -/
theorem loose_of_fresh (h : PoolInv m held lost) {a : Nat} (hFresh : m.blocks a = none)
    (size : Nat) :
    Loose { m with blocks := Function.update m.blocks a (some size) } held a size where
  live := Function.update_self _ _ _
  unpooled := by
    intro slot hPtr
    exact absurd (h.live slot a hPtr) (by simp [hFresh])
  unheld := by
    intro b hMem hAddr
    obtain ⟨room, hLive, -⟩ := h.room b hMem
    exact absurd hLive (by simp [hAddr, hFresh])

/-- A new block belongs to nobody yet. -/
theorem gain (h : PoolInv m held lost) {a : Nat} (hFresh : m.blocks a = none)
    (size : Nat) :
    PoolInv { m with blocks := Function.update m.blocks a (some size) } held
      fun a' => lost a' ∨ a' = a := by
  have hLoose := h.loose_of_fresh hFresh size
  constructor
  case live =>
    intro slot a' hPtr
    have hNe : a' ≠ a := fun hEq => hLoose.unpooled slot (hEq ▸ hPtr)
    exact (Function.update_of_ne hNe _ _).trans (h.live slot a' hPtr)
  case apart => exact h.apart
  case used => exact h.used
  case idle => exact h.idle
  case own => exact h.own
  case room =>
    intro b hMem
    obtain ⟨room, hLive, hLe⟩ := h.room b hMem
    exact ⟨room, (Function.update_of_ne (hLoose.unheld b hMem) _ _).trans hLive, hLe⟩
  case distinct => exact h.distinct
  case defined => exact h.defined
  case covered =>
    intro a' hLive
    by_cases hEq : a' = a
    · exact Or.inr (Or.inr (Or.inr hEq))
    · simp only [Function.update_of_ne hEq] at hLive
      rcases h.covered a' hLive with hPool | hHeld | hLost
      · exact Or.inl hPool
      · exact Or.inr (Or.inl hHeld)
      · exact Or.inr (Or.inr (Or.inl hLost))

/-- A loose block, given to the client. -/
theorem hold {a size : Nat} (h : PoolInv m held fun a' => lost a' ∨ a' = a)
    (hLoose : Loose m held a size) (svcId : Int) :
    PoolInv m (held ++ [⟨a, size, svcId⟩]) lost := by
  constructor
  case live => exact h.live
  case apart => exact h.apart
  case used =>
    intro slot a' hPtr
    have hNe : a ≠ a' := fun hEq => hLoose.unpooled slot (hEq ▸ hPtr)
    rw [h.used slot a' hPtr]
    simp [or_and_right, exists_or, hNe]
  case idle => exact h.idle
  case own =>
    intro b hMem slot hPtr
    rcases List.mem_append.mp hMem with hMem | hMem
    · exact h.own b hMem slot hPtr
    · rw [List.mem_singleton.mp hMem] at hPtr
      exact absurd hPtr (hLoose.unpooled slot)
  case room =>
    intro b hMem
    rcases List.mem_append.mp hMem with hMem | hMem
    · exact h.room b hMem
    · rw [List.mem_singleton.mp hMem]
      exact ⟨size, hLoose.live, Nat.le_refl size⟩
  case distinct => exact nodup_concat h.distinct hLoose.unheld size svcId
  case defined => exact h.defined
  case covered =>
    intro a' hLive
    rcases h.covered a' hLive with hPool | ⟨b, hMem, hAddr⟩ | hLost | rfl
    · exact Or.inl hPool
    · exact Or.inr (Or.inl ⟨b, List.mem_append_left _ hMem, hAddr⟩)
    · exact Or.inr (Or.inr hLost)
    · exact Or.inr (Or.inl ⟨⟨a', size, svcId⟩, by simp, rfl⟩)

/-- A loose block, put in an empty place of a pool. -/
theorem place {a : Nat} (h : PoolInv m held fun a' => lost a' ∨ a' = a)
    (hLoose : Loose m held a diagsvcMallocItemSize) {slot : Slot}
    (hEmpty : (m.pools slot).ptr = none) :
    PoolInv (m.setPtr slot (some a)) held lost := by
  have hIdle := h.idle slot hEmpty
  constructor
  case live =>
    intro slot' a' hPtr
    by_cases hSlot : slot' = slot
    · rw [hSlot, Memory.setPtr_same] at hPtr
      rw [Memory.setPtr_blocks, ← Option.some.inj hPtr]
      exact hLoose.live
    · rw [Memory.setPtr_other m hSlot] at hPtr
      exact h.live slot' a' hPtr
  case apart =>
    intro slot' slot'' a' hPtr' hPtr''
    by_cases hSlot' : slot' = slot <;> by_cases hSlot'' : slot'' = slot
    · rw [hSlot', hSlot'']
    · rw [hSlot', Memory.setPtr_same] at hPtr'
      rw [Memory.setPtr_other m hSlot'', ← Option.some.inj hPtr'] at hPtr''
      exact absurd hPtr'' (hLoose.unpooled slot'')
    · rw [hSlot'', Memory.setPtr_same] at hPtr''
      rw [Memory.setPtr_other m hSlot', ← Option.some.inj hPtr''] at hPtr'
      exact absurd hPtr' (hLoose.unpooled slot')
    · rw [Memory.setPtr_other m hSlot'] at hPtr'
      rw [Memory.setPtr_other m hSlot''] at hPtr''
      exact h.apart slot' slot'' a' hPtr' hPtr''
  case used =>
    intro slot' a' hPtr
    by_cases hSlot : slot' = slot
    · rw [hSlot, Memory.setPtr_same] at hPtr ⊢
      rw [← Option.some.inj hPtr]
      simp only [hIdle, Bool.false_eq_true, false_iff]
      rintro ⟨b, hMem, hAddr⟩
      exact hLoose.unheld b hMem hAddr
    · rw [Memory.setPtr_other m hSlot] at hPtr ⊢
      exact h.used slot' a' hPtr
  case idle =>
    intro slot' hNull
    by_cases hSlot : slot' = slot
    · rw [hSlot, Memory.setPtr_same] at hNull
      exact absurd hNull (Option.some_ne_none a)
    · rw [Memory.setPtr_other m hSlot] at hNull ⊢
      exact h.idle slot' hNull
  case own =>
    intro b hMem slot' hPtr
    by_cases hSlot : slot' = slot
    · rw [hSlot, Memory.setPtr_same] at hPtr
      exact absurd (Option.some.inj hPtr).symm (hLoose.unheld b hMem)
    · rw [Memory.setPtr_other m hSlot] at hPtr
      exact h.own b hMem slot' hPtr
  case room => exact h.room
  case distinct => exact h.distinct
  case defined => exact h.defined
  case covered =>
    intro a' hLive
    rcases h.covered a' hLive with ⟨slot', hPtr⟩ | hHeld | hLost | rfl
    · have hSlot : slot' ≠ slot := by
        rintro rfl
        exact absurd hPtr (by simp [hEmpty])
      exact Or.inl ⟨slot', by rw [Memory.setPtr_other m hSlot, hPtr]⟩
    · exact Or.inr (Or.inl hHeld)
    · exact Or.inr (Or.inr hLost)
    · exact Or.inl ⟨slot, by rw [Memory.setPtr_same]⟩

/-- A buffer of a pool, taken by the client. -/
theorem take_item (h : PoolInv m held lost) {slot : Slot} {a size : Nat} {svcId : Int}
    (hPtr : (m.pools slot).ptr = some a) (hFree : (m.pools slot).inUse = false)
    (hFits : size ≤ diagsvcMallocItemSize) (hPool : poolOf svcId = some slot.1) :
    PoolInv (m.setInUse slot true) (held ++ [⟨a, size, svcId⟩]) lost := by
  have hNotHeld : ∀ b ∈ held, b.addr ≠ a := by
    intro b hMem hAddr
    have hUsed := (h.used slot a hPtr).mpr ⟨b, hMem, hAddr⟩
    exact absurd hUsed (by simp [hFree])
  constructor
  case live =>
    intro slot' a' hPtr'
    rw [Memory.setInUse_ptr] at hPtr'
    exact h.live slot' a' hPtr'
  case apart =>
    intro slot' slot'' a' hPtr' hPtr''
    rw [Memory.setInUse_ptr] at hPtr' hPtr''
    exact h.apart slot' slot'' a' hPtr' hPtr''
  case used =>
    intro slot' a' hPtr'
    rw [Memory.setInUse_ptr] at hPtr'
    by_cases hSlot : slot' = slot
    · subst hSlot
      obtain rfl : a' = a := Option.some.inj (hPtr'.symm.trans hPtr)
      simp
    · have hNe : a ≠ a' := fun hEq => hSlot (h.apart slot' slot a' hPtr' (hEq ▸ hPtr))
      rw [Memory.setInUse_other m hSlot, h.used slot' a' hPtr']
      simp [or_and_right, exists_or, hNe]
  case idle =>
    intro slot' hNull
    rw [Memory.setInUse_ptr] at hNull
    have hSlot : slot' ≠ slot := by
      rintro rfl
      exact absurd hNull (by simp [hPtr])
    rw [Memory.setInUse_other m hSlot]
    exact h.idle slot' hNull
  case own =>
    intro b hMem slot' hPtr'
    rw [Memory.setInUse_ptr] at hPtr'
    rcases List.mem_append.mp hMem with hMem | hMem
    · exact h.own b hMem slot' hPtr'
    · rw [List.mem_singleton.mp hMem] at hPtr' ⊢
      rw [h.apart slot' slot a hPtr' hPtr]
      exact hPool
  case room =>
    intro b hMem
    rcases List.mem_append.mp hMem with hMem | hMem
    · exact h.room b hMem
    · rw [List.mem_singleton.mp hMem]
      exact ⟨diagsvcMallocItemSize, h.live slot a hPtr, hFits⟩
  case distinct => exact nodup_concat h.distinct hNotHeld size svcId
  case defined => exact h.defined
  case covered =>
    intro a' hLive
    simp only [Memory.setInUse_ptr]
    rcases h.covered a' hLive with hPool | ⟨b, hMem, hAddr⟩ | hLost
    · exact Or.inl hPool
    · exact Or.inr (Or.inl ⟨b, List.mem_append_left _ hMem, hAddr⟩)
    · exact Or.inr (Or.inr hLost)

/-- A buffer of a pool that the client does not hold is marked as free, and the
client holds what it held without it. -/
theorem put_item (h : PoolInv m held lost) {b : Buffer} (hMem : b ∈ held) {slot : Slot}
    (hPtr : (m.pools slot).ptr = some b.addr) :
    PoolInv (m.setInUse slot false) (held.erase b) lost := by
  constructor
  case live =>
    intro slot' a hPtr'
    rw [Memory.setInUse_ptr] at hPtr'
    exact h.live slot' a hPtr'
  case apart =>
    intro slot' slot'' a hPtr' hPtr''
    rw [Memory.setInUse_ptr] at hPtr' hPtr''
    exact h.apart slot' slot'' a hPtr' hPtr''
  case used =>
    intro slot' a hPtr'
    rw [Memory.setInUse_ptr] at hPtr'
    simp only [h.mem_erase hMem]
    by_cases hSlot : slot' = slot
    · subst hSlot
      obtain rfl : a = b.addr := Option.some.inj (hPtr'.symm.trans hPtr)
      simp only [Memory.setInUse_same, Bool.false_eq_true, false_iff]
      rintro ⟨b', ⟨-, hNe⟩, hAddr⟩
      exact hNe hAddr
    · have hNe : a ≠ b.addr := fun hEq => hSlot (h.apart slot' slot a hPtr' (hEq ▸ hPtr))
      rw [Memory.setInUse_other m hSlot, h.used slot' a hPtr']
      constructor
      · rintro ⟨b', hHeld, rfl⟩
        exact ⟨b', ⟨hHeld, hNe⟩, rfl⟩
      · rintro ⟨b', ⟨hHeld, -⟩, hAddr⟩
        exact ⟨b', hHeld, hAddr⟩
  case idle =>
    intro slot' hNull
    rw [Memory.setInUse_ptr] at hNull
    by_cases hSlot : slot' = slot
    · rw [hSlot, Memory.setInUse_same]
    · rw [Memory.setInUse_other m hSlot]
      exact h.idle slot' hNull
  case own =>
    intro b' hMem' slot' hPtr'
    rw [Memory.setInUse_ptr] at hPtr'
    exact h.own b' (List.mem_of_mem_erase hMem') slot' hPtr'
  case room => exact fun b' hMem' => h.room b' (List.mem_of_mem_erase hMem')
  case distinct => exact h.distinct_erase b
  case defined => exact h.defined
  case covered =>
    intro a hLive
    simp only [Memory.setInUse_ptr, h.mem_erase hMem]
    by_cases hEq : a = b.addr
    · exact Or.inl ⟨slot, hEq ▸ hPtr⟩
    · rcases h.covered a hLive with hPool | ⟨b', hHeld, rfl⟩ | hLost
      · exact Or.inl hPool
      · exact Or.inr (Or.inl ⟨b', ⟨hHeld, hEq⟩, rfl⟩)
      · exact Or.inr (Or.inr hLost)

/-- A block that is not of a pool is given back and not freed. -/
theorem drop (h : PoolInv m held lost) {b : Buffer} (hMem : b ∈ held)
    (hNotPool : ¬ m.Pooled b) :
    PoolInv m (held.erase b) fun a => lost a ∨ a = b.addr := by
  constructor
  case live => exact h.live
  case apart => exact h.apart
  case used =>
    intro slot a hPtr
    have hNe : a ≠ b.addr := fun hEq => hNotPool ⟨slot, hEq ▸ hPtr⟩
    simp only [h.mem_erase hMem, h.used slot a hPtr]
    constructor
    · rintro ⟨b', hHeld, rfl⟩
      exact ⟨b', ⟨hHeld, hNe⟩, rfl⟩
    · rintro ⟨b', ⟨hHeld, -⟩, hAddr⟩
      exact ⟨b', hHeld, hAddr⟩
  case idle => exact h.idle
  case own => exact fun b' hMem' => h.own b' (List.mem_of_mem_erase hMem')
  case room => exact fun b' hMem' => h.room b' (List.mem_of_mem_erase hMem')
  case distinct => exact h.distinct_erase b
  case defined => exact h.defined
  case covered =>
    intro a hLive
    simp only [h.mem_erase hMem]
    by_cases hEq : a = b.addr
    · exact Or.inr (Or.inr (Or.inr hEq))
    · rcases h.covered a hLive with hPool | ⟨b', hHeld, rfl⟩ | hLost
      · exact Or.inl hPool
      · exact Or.inr (Or.inl ⟨b', ⟨hHeld, hEq⟩, rfl⟩)
      · exact Or.inr (Or.inr (Or.inl hLost))

theorem loose_of_held (h : PoolInv m held lost) {b : Buffer} (hMem : b ∈ held)
    (hNotPool : ¬ m.Pooled b) : ∃ size, Loose m (held.erase b) b.addr size := by
  obtain ⟨size, hLive, -⟩ := h.room b hMem
  refine ⟨size, hLive, fun slot hPtr => hNotPool ⟨slot, hPtr⟩, fun b' hMem' => ?_⟩
  exact ((h.mem_erase hMem b').mp hMem').2

/-- A buffer of a pool that the client does not hold is taken out of it. -/
theorem retire (h : PoolInv m held lost) {slot : Slot} {a : Nat}
    (hPtr : (m.pools slot).ptr = some a) (hNotHeld : ∀ b ∈ held, b.addr ≠ a) :
    PoolInv ((m.setPtr slot none).setInUse slot false) held
        (fun a' => lost a' ∨ a' = a) ∧
      Loose ((m.setPtr slot none).setInUse slot false) held a diagsvcMallocItemSize := by
  have hOld : ∀ slot' a', ((m.setPtr slot none).pools slot').ptr = some a' →
      slot' ≠ slot ∧ (m.pools slot').ptr = some a' := by
    intro slot' a' hPtr'
    have hSlot : slot' ≠ slot := by
      rintro rfl
      simp at hPtr'
    exact ⟨hSlot, by rwa [Memory.setPtr_other m hSlot] at hPtr'⟩
  refine ⟨?_, h.live slot a hPtr, ?_, hNotHeld⟩
  · constructor
    case live =>
      intro slot' a' hPtr'
      rw [Memory.setInUse_ptr] at hPtr'
      exact h.live slot' a' (hOld slot' a' hPtr').2
    case apart =>
      intro slot' slot'' a' hPtr' hPtr''
      rw [Memory.setInUse_ptr] at hPtr' hPtr''
      exact h.apart slot' slot'' a' (hOld slot' a' hPtr').2 (hOld slot'' a' hPtr'').2
    case used =>
      intro slot' a' hPtr'
      rw [Memory.setInUse_ptr] at hPtr'
      obtain ⟨hSlot, hPtr'⟩ := hOld slot' a' hPtr'
      rw [Memory.setInUse_other _ hSlot, Memory.setPtr_other m hSlot]
      exact h.used slot' a' hPtr'
    case idle =>
      intro slot' hNull
      by_cases hSlot : slot' = slot
      · rw [hSlot, Memory.setInUse_same]
      · rw [Memory.setInUse_other _ hSlot, Memory.setPtr_other m hSlot] at hNull ⊢
        exact h.idle slot' hNull
    case own =>
      intro b hMem slot' hPtr'
      rw [Memory.setInUse_ptr] at hPtr'
      exact h.own b hMem slot' (hOld slot' b.addr hPtr').2
    case room => exact h.room
    case distinct => exact h.distinct
    case defined => exact h.defined
    case covered =>
      intro a' hLive
      simp only [Memory.setInUse_ptr]
      rcases h.covered a' hLive with ⟨slot', hPtr'⟩ | hHeld | hLost
      · by_cases hSlot : slot' = slot
        · rw [hSlot, hPtr] at hPtr'
          exact Or.inr (Or.inr (Or.inr (Option.some.inj hPtr').symm))
        · exact Or.inl ⟨slot', by rw [Memory.setPtr_other m hSlot, hPtr']⟩
      · exact Or.inr (Or.inl hHeld)
      · exact Or.inr (Or.inr (Or.inl hLost))
  · intro slot' hPtr'
    rw [Memory.setInUse_ptr] at hPtr'
    obtain ⟨hSlot, hPtr'⟩ := hOld slot' a hPtr'
    exact hSlot (h.apart slot' slot a hPtr' hPtr)

/-- A loose block is freed. -/
theorem free_block {a size : Nat} (h : PoolInv m held fun a' => lost a' ∨ a' = a)
    (hLoose : Loose m held a size) : PoolInv (m.free a) held lost := by
  have hFree : m.free a = { m with blocks := Function.update m.blocks a none } := by
    simp [Memory.free, hLoose.live]
  rw [hFree]
  constructor
  case live =>
    intro slot a' hPtr
    have hNe : a' ≠ a := fun hEq => hLoose.unpooled slot (hEq ▸ hPtr)
    exact (Function.update_of_ne hNe _ _).trans (h.live slot a' hPtr)
  case apart => exact h.apart
  case used => exact h.used
  case idle => exact h.idle
  case own => exact h.own
  case room =>
    intro b hMem
    obtain ⟨room, hLive', hLe⟩ := h.room b hMem
    exact ⟨room, (Function.update_of_ne (hLoose.unheld b hMem) _ _).trans hLive', hLe⟩
  case distinct => exact h.distinct
  case defined => exact h.defined
  case covered =>
    intro a' hLive'
    have hNe : a' ≠ a := by
      rintro rfl
      exact hLive' (Function.update_self _ _ _)
    simp only [Function.update_of_ne hNe] at hLive'
    rcases h.covered a' hLive' with hPool | hHeld | hIn
    · exact Or.inl hPool
    · exact Or.inr (Or.inl hHeld)
    · exact Or.inr (Or.inr (hIn.resolve_right hNe))

/-! ## The functions keep the invariant -/

theorem malloc (h : PoolInv m held lost) (size : Nat) (svcId : Int)
    (answer : Option Nat) :
    PoolInv (m.malloc size answer).2
      (held ++ (m.malloc size answer).1.toList.map fun a => ⟨a, size, svcId⟩) lost := by
  rcases m.malloc_cases size answer with hEq | ⟨a, hFresh, hEq⟩
  · simpa [hEq] using h
  · rw [hEq]
    exact (h.gain hFresh size).hold (h.loose_of_fresh hFresh size) svcId

theorem diagSvcMalloc (h : PoolInv m held lost) (hReady : m.Ready) (size : Nat)
    (svcId : Int) (answer : Option Nat) :
    PoolInv (m.diagSvcMalloc size svcId answer).2
      (held ++ (m.diagSvcMalloc size svcId answer).1.toList.map
        fun a => ⟨a, size, svcId⟩) lost := by
  rcases Memory.diagSvcMalloc_cases hReady size svcId answer with
    ⟨-, hEq⟩ | ⟨-, -, hEq⟩ | ⟨s, i, a, hPool, hFits, -, hFree, hPtr, hEq⟩
  · simpa [hEq] using h
  · rw [hEq]
    exact h.malloc size svcId answer
  · rw [hEq]
    exact h.take_item hPtr (Memory.findFree_spec hFree) hFits hPool

/-- A buffer is given back as it was asked for. -/
theorem diagSvcFree (h : PoolInv m held lost) {b : Buffer} (hMem : b ∈ held)
    (hInit : m.initialized = true) (hSvc : (poolOf b.svcId).isSome = true) :
    PoolInv (m.diagSvcFree (some b.addr) b.svcId) (held.erase b) lost := by
  obtain ⟨s, hPool⟩ := Option.isSome_iff_exists.mp hSvc
  cases hFind : m.findPtr s b.addr with
  | some i =>
      have hEq : m.diagSvcFree (some b.addr) b.svcId = m.setInUse (s, i) false := by
        simp [Memory.diagSvcFree, hInit, hPool, hFind]
      rw [hEq]
      exact h.put_item hMem (Memory.findPtr_spec hFind)
  | none =>
      have hEq : m.diagSvcFree (some b.addr) b.svcId = m.free b.addr := by
        simp [Memory.diagSvcFree, hInit, hPool, hFind]
      have hNotPool : ¬ m.Pooled b := by
        rintro ⟨⟨s', i⟩, hPtr⟩
        obtain rfl : s' = s := Option.some.inj
          ((h.own b hMem (s', i) hPtr).symm.trans hPool)
        exact Memory.findPtr_none hFind i hPtr
      obtain ⟨size, hLoose⟩ := h.loose_of_held hMem hNotPool
      rw [hEq]
      exact (h.drop hMem hNotPool).free_block hLoose

/-- Without pools, or for another service, nothing is freed. -/
theorem diagSvcFree_lost (h : PoolInv m held lost) (hReady : m.Ready) {b : Buffer}
    (hMem : b ∈ held)
    (hNot : ¬ (m.initialized = true ∧ (poolOf b.svcId).isSome = true)) :
    m.diagSvcFree (some b.addr) b.svcId = m ∧ ¬ m.Pooled b := by
  cases hInit : m.initialized with
  | false =>
      refine ⟨by simp [Memory.diagSvcFree, hInit], ?_⟩
      rintro ⟨slot, hPtr⟩
      exact absurd ((hReady slot).mpr hInit) (by simp [hPtr])
  | true =>
      have hNone : poolOf b.svcId = none := by
        simpa [hInit] using hNot
      refine ⟨by simp [Memory.diagSvcFree, hInit, hNone], ?_⟩
      rintro ⟨slot, hPtr⟩
      exact absurd (h.own b hMem slot hPtr) (by simp [hNone])

theorem releaseItem (h : PoolInv m held lost) {slot : Slot}
    (hNotHeld : ∀ b ∈ held, (m.pools slot).ptr ≠ some b.addr) :
    PoolInv (m.releaseItem slot) held lost := by
  cases hPtr : (m.pools slot).ptr with
  | none =>
      have hEq : m.releaseItem slot = m := by
        simp only [Memory.releaseItem, hPtr]
        exact Memory.setInUse_self (h.idle slot hPtr)
      rwa [hEq]
  | some a =>
      have hNot : ∀ b ∈ held, b.addr ≠ a := fun b hMem hAddr =>
        hNotHeld b hMem (hAddr ▸ hPtr)
      obtain ⟨hRetired, hLoose⟩ := h.retire hPtr hNot
      have hEq : m.releaseItem slot =
          ((m.setPtr slot none).setInUse slot false).free a := by
        simp [Memory.releaseItem, hPtr, Memory.free, h.live slot a hPtr,
          Memory.setPtr, Memory.setInUse]
      rw [hEq]
      exact hRetired.free_block hLoose

theorem releaseItems (h : PoolInv m held lost) (hNotHeld : ∀ b ∈ held, ¬ m.Pooled b)
    (slots : List Slot) :
    PoolInv (slots.foldl Memory.releaseItem m) held lost ∧
      ∀ slot, ((slots.foldl Memory.releaseItem m).pools slot).ptr =
        if slot ∈ slots then none else (m.pools slot).ptr := by
  induction slots generalizing m with
  | nil => exact ⟨h, by simp⟩
  | cons slot slots ih =>
      have hNext : PoolInv (m.releaseItem slot) held lost :=
        h.releaseItem fun b hMem hPtr => hNotHeld b hMem ⟨slot, hPtr⟩
      have hStill : ∀ b ∈ held, ¬ (m.releaseItem slot).Pooled b := by
        rintro b hMem ⟨slot', hPtr⟩
        rw [Memory.releaseItem_ptr] at hPtr
        split at hPtr
        · exact absurd hPtr (by simp)
        · exact hNotHeld b hMem ⟨slot', hPtr⟩
      obtain ⟨hRest, hPtrs⟩ := ih hNext hStill
      refine ⟨hRest, fun slot' => ?_⟩
      rw [List.foldl_cons, hPtrs slot', Memory.releaseItem_ptr]
      by_cases hIn : slot' ∈ slots <;> by_cases hEq : slot' = slot <;> simp [hIn, hEq]

/-- The invariant says nothing about `gnDiagSvcMalloc_Initialized`. -/
theorem set_initialized (h : PoolInv m held lost) (initialized : Bool) :
    PoolInv { m with initialized := initialized } held lost :=
  ⟨h.live, h.apart, h.used, h.idle, h.own, h.room, h.distinct, h.defined, h.covered⟩

/-- The pools are torn down while the client holds none of their buffers. -/
theorem diagSvcMallocExit (h : PoolInv m held lost)
    (hNotHeld : ∀ b ∈ held, ¬ m.Pooled b) :
    PoolInv m.diagSvcMallocExit held lost ∧ m.diagSvcMallocExit.Ready := by
  obtain ⟨hAll, hPtrs⟩ := h.releaseItems hNotHeld Memory.slots
  refine ⟨hAll.set_initialized false, fun slot => ?_⟩
  have hNull := hPtrs slot
  rw [if_pos (Memory.mem_slots slot)] at hNull
  exact ⟨fun _ => rfl, fun _ => hNull⟩

theorem allocItem (h : PoolInv m held lost) (hNotHeld : ∀ b ∈ held, ¬ m.Pooled b)
    {slot : Slot} (hEmpty : (m.pools slot).ptr = none) (answer : Option Nat) :
    PoolInv (m.allocItem slot answer) held lost ∧
      ∀ b ∈ held, ¬ (m.allocItem slot answer).Pooled b := by
  rcases m.malloc_cases diagsvcMallocItemSize answer with hEq | ⟨a, hFresh, hEq⟩
  · have hSame : m.allocItem slot answer = m := by
      simp only [Memory.allocItem, hEq]
      exact Memory.setPtr_self hEmpty
    rw [hSame]
    exact ⟨h, hNotHeld⟩
  · have hLoose := h.loose_of_fresh hFresh diagsvcMallocItemSize
    have hPlaced := (h.gain hFresh diagsvcMallocItemSize).place hLoose hEmpty
    simp only [Memory.allocItem, hEq]
    refine ⟨hPlaced, ?_⟩
    rintro b hMem ⟨slot', hPtr⟩
    by_cases hSlot : slot' = slot
    · rw [hSlot, Memory.setPtr_same] at hPtr
      exact hLoose.unheld b hMem (Option.some.inj hPtr).symm
    · rw [Memory.setPtr_other _ hSlot] at hPtr
      exact hNotHeld b hMem ⟨slot', hPtr⟩

/-- A buffer the client does not hold is not in use. -/
theorem not_inUse (h : PoolInv m held lost) (hNotHeld : ∀ b ∈ held, ¬ m.Pooled b)
    (slot : Slot) : (m.pools slot).inUse = false := by
  cases hPtr : (m.pools slot).ptr with
  | none => exact h.idle slot hPtr
  | some a =>
      by_contra hUsed
      obtain ⟨b, hMem, rfl⟩ := (h.used slot a hPtr).mp (Bool.eq_true_of_not_eq_false hUsed)
      exact hNotHeld b hMem ⟨slot, hPtr⟩

/-- The loop of `DiagSvc_Malloc_Init`: before the places in `todo` are filled they
are empty and the others are not. -/
theorem initItems (answers : Slot → Option Nat) (todo : List (Fin diagsvcMallocMaxItems))
    (h : PoolInv m held lost) (hNotHeld : ∀ b ∈ held, ¬ m.Pooled b) (hNodup : todo.Nodup)
    (hTodo : ∀ s i, (m.pools (s, i)).ptr = none ↔ i ∈ todo) :
    PoolInv (m.initItems answers todo).2 held lost ∧ (m.initItems answers todo).2.Ready := by
  induction todo generalizing m with
  | nil =>
      refine ⟨h.set_initialized true, fun slot => ?_⟩
      have hFull : (m.pools slot).ptr ≠ none := by
        simpa using hTodo slot.1 slot.2
      exact ⟨fun hNull => absurd hNull hFull, fun hOff => Bool.noConfusion hOff⟩
  | cons i rest ih =>
      obtain ⟨hNotIn, hNodup⟩ := List.nodup_cons.mp hNodup
      obtain ⟨hGen, hGenNot⟩ := h.allocItem hNotHeld
        ((hTodo .gen i).mpr List.mem_cons_self) (answers (.gen, i))
      have hEmpty : ((m.allocItem (.gen, i) (answers (.gen, i))).pools (.pkt, i)).ptr =
          none := by
        rw [Memory.allocItem_other m (by simp)]
        exact (hTodo .pkt i).mpr List.mem_cons_self
      obtain ⟨hBoth, hBothNot⟩ := hGen.allocItem hGenNot hEmpty (answers (.pkt, i))
      rw [Memory.initItems]
      split
      case isTrue => exact hBoth.diagSvcMallocExit hBothNot
      case isFalse hFull =>
        rw [not_or] at hFull
        rw [Memory.setInUse_self (hBoth.not_inUse hBothNot (.gen, i)),
          Memory.setInUse_self (hBoth.not_inUse hBothNot (.pkt, i))]
        refine ih hBoth hBothNot hNodup fun s j => ?_
        by_cases hSame : j = i
        · subst hSame
          cases s
          · simp [hFull.1, hNotIn]
          · simp [hFull.2, hNotIn]
        · have hGenNe : (s, j) ≠ (.gen, i) := by simp [hSame]
          have hPktNe : (s, j) ≠ (.pkt, i) := by simp [hSame]
          rw [Memory.allocItem_other _ hPktNe, Memory.allocItem_other _ hGenNe, hTodo s j]
          simp [hSame]

theorem diagSvcMallocInit (h : PoolInv m held lost) (hReady : m.Ready)
    (answers : Slot → Option Nat) :
    PoolInv (m.diagSvcMallocInit answers).2 held lost ∧
      (m.diagSvcMallocInit answers).2.Ready := by
  unfold Memory.diagSvcMallocInit
  split
  case isTrue => exact ⟨h, hReady⟩
  case isFalse hOff =>
    have hEmpty : ∀ slot, (m.pools slot).ptr = none := fun slot =>
      (hReady slot).mpr (Bool.eq_false_of_not_eq_true hOff)
    refine h.initItems answers _ ?_ (List.nodup_finRange _) ?_
    · rintro b - ⟨slot, hPtr⟩
      exact absurd hPtr (by simp [hEmpty slot])
    · intro s i
      simp [hEmpty (s, i)]

end PoolInv

namespace Memory

theorem Ready.of_same {m m' : Memory} (h : m.Ready)
    (hPtr : ∀ slot, (m'.pools slot).ptr = (m.pools slot).ptr)
    (hInit : m'.initialized = m.initialized) : m'.Ready := by
  intro slot
  rw [hPtr slot, hInit]
  exact h slot

theorem Ready.diagSvcMalloc {m : Memory} (h : m.Ready) (size : Nat) (svcId : Int)
    (answer : Option Nat) : (m.diagSvcMalloc size svcId answer).2.Ready := by
  rcases diagSvcMalloc_cases h size svcId answer with
    ⟨-, hEq⟩ | ⟨-, -, hEq⟩ | ⟨s, i, a, -, -, -, -, -, hEq⟩
  · rwa [hEq]
  · rw [hEq]
    exact h.of_same (by simp) (by simp)
  · rw [hEq]
    exact h.of_same (by simp) (by simp)

theorem Ready.diagSvcFree {m : Memory} (h : m.Ready) (ptr : Option Nat) (svcId : Int) :
    (m.diagSvcFree ptr svcId).Ready := by
  unfold Memory.diagSvcFree
  split
  · exact h
  · split
    · split <;> exact h.of_same (by simp) (by simp)
    · exact h

theorem free_blocks_self (m : Memory) (a : Nat) : (m.free a).blocks a = none := by
  unfold free
  split
  · assumption
  · exact Function.update_self _ _ _

theorem free_blocks_none {m : Memory} {a : Nat} (h : m.blocks a = none) (a' : Nat) :
    (m.free a').blocks a = none := by
  by_cases hEq : a = a'
  · rw [hEq]
    exact free_blocks_self m a'
  · unfold free
    split
    · exact h
    · exact (Function.update_of_ne hEq _ _).trans h

theorem releaseItem_blocks_none {m : Memory} {a : Nat} (h : m.blocks a = none)
    (slot : Slot) : (m.releaseItem slot).blocks a = none := by
  unfold releaseItem
  split
  · exact free_blocks_none h _
  · exact h

theorem releaseItems_blocks_none {m : Memory} {a : Nat} (h : m.blocks a = none)
    (slots : List Slot) : (slots.foldl releaseItem m).blocks a = none := by
  induction slots generalizing m with
  | nil => exact h
  | cons slot slots ih => exact ih (releaseItem_blocks_none h slot)

/-- The buffers of the places in the list are no blocks any more. -/
theorem releaseItems_blocks {m : Memory} {slots : List Slot} {slot : Slot}
    (hMem : slot ∈ slots) {a : Nat} (hPtr : (m.pools slot).ptr = some a) :
    (slots.foldl releaseItem m).blocks a = none := by
  induction slots generalizing m with
  | nil => simp at hMem
  | cons slot' slots ih =>
      by_cases hHead : slot = slot'
      · subst hHead
        refine releaseItems_blocks_none ?_ slots
        simp only [releaseItem, hPtr]
        exact free_blocks_self m a
      · have hStill : ((m.releaseItem slot').pools slot).ptr = some a := by
          rw [releaseItem_ptr, if_neg hHead, hPtr]
        exact ih ((List.mem_cons.mp hMem).resolve_left hHead) hStill

end Memory

/-! ## Runs of the client -/

section Runs

variable {c : PoolClient} {lost : Nat → Prop}

theorem PoolInv.safe (h : PoolInv c.memory c.held lost) : c.Safe :=
  ⟨h.room, h.distinct, h.defined⟩

theorem PoolInv.accounted (h : PoolInv c.memory c.held fun _ => False) :
    c.Accounted := by
  intro a hLive
  rcases h.covered a hLive with hPool | hHeld | hLost
  · exact Or.inl hPool
  · exact Or.inr hHeld
  · exact hLost.elim

/-- One call that gives back what can be given back. -/
theorem poolStep_tidy (h : PoolInv c.memory c.held lost) (hReady : c.memory.Ready)
    {e : PoolEvent} (hTidy : c.Tidy e) :
    PoolInv (poolStep c e).1.memory (poolStep c e).1.held lost ∧
      (poolStep c e).1.memory.Ready := by
  cases e with
  | init answers => exact h.diagSvcMallocInit hReady answers
  | exit => exact h.diagSvcMallocExit hTidy
  | malloc size svcId answer =>
      have hInv := h.diagSvcMalloc hReady size svcId answer
      have hStill := hReady.diagSvcMalloc size svcId answer
      simp only [poolStep]
      cases hCall : c.memory.diagSvcMalloc size svcId answer with
      | mk answer m =>
          rw [hCall] at hInv hStill
          cases answer with
          | none => exact ⟨by simpa using hInv, hStill⟩
          | some a => exact ⟨hInv, hStill⟩
  | free b =>
      simp only [poolStep]
      split
      case isTrue hMem =>
        exact ⟨h.diagSvcFree hMem (hTidy hMem).1 (hTidy hMem).2,
          hReady.diagSvcFree _ _⟩
      case isFalse => exact ⟨h, hReady⟩

/-- A buffer that cannot be given back is lost. -/
theorem poolStep_lost (h : PoolInv c.memory c.held lost) (hReady : c.memory.Ready)
    {b : Buffer} (hMem : b ∈ c.held)
    (hNot : ¬ (c.memory.initialized = true ∧ (poolOf b.svcId).isSome = true)) :
    (poolStep c (.free b)).1 = ⟨c.memory, c.held.erase b⟩ ∧ ¬ c.memory.Pooled b := by
  obtain ⟨hSame, hNotPool⟩ := h.diagSvcFree_lost hReady hMem hNot
  exact ⟨by simp [poolStep, hMem, hSame], hNotPool⟩

/-- The pools are torn down and the client still holds a buffer of theirs. -/
theorem poolStep_exit_unsafe {b : Buffer} (hMem : b ∈ c.held)
    (hPool : c.memory.Pooled b) : ¬ (poolStep c .exit).1.Safe := by
  intro hSafe
  obtain ⟨slot, hPtr⟩ := hPool
  obtain ⟨size, hLive, -⟩ := hSafe.room b hMem
  have hGone : (poolStep c .exit).1.memory.blocks b.addr = none :=
    Memory.releaseItems_blocks (Memory.mem_slots slot) hPtr
  exact absurd hLive (by simp [hGone])

theorem poolStep_allowed (h : ∃ lost, PoolInv c.memory c.held lost)
    (hReady : c.memory.Ready) {e : PoolEvent} (hAllowed : c.Allowed e) :
    (∃ lost, PoolInv (poolStep c e).1.memory (poolStep c e).1.held lost) ∧
      (poolStep c e).1.memory.Ready := by
  obtain ⟨lost, hInv⟩ := h
  by_cases hTidy : c.Tidy e
  · obtain ⟨hNext, hStill⟩ := poolStep_tidy hInv hReady hTidy
    exact ⟨⟨lost, hNext⟩, hStill⟩
  · cases e with
    | init answers => exact absurd trivial hTidy
    | exit => exact absurd hAllowed hTidy
    | malloc size svcId answer => exact absurd trivial hTidy
    | free b =>
        simp only [PoolClient.Tidy, Classical.not_imp] at hTidy
        obtain ⟨hMem, hNot⟩ := hTidy
        obtain ⟨hEq, hNotPool⟩ := poolStep_lost hInv hReady hMem hNot
        rw [hEq]
        exact ⟨⟨_, hInv.drop hMem hNotPool⟩, hReady⟩

theorem poolInv_start : PoolInv PoolClient.start.memory PoolClient.start.held lost := by
  constructor <;> simp [PoolClient.start, Memory.start]

theorem ready_start : PoolClient.start.memory.Ready :=
  fun _ => ⟨fun _ => rfl, fun _ => rfl⟩

theorem poolAfter_inv {events : List PoolEvent}
    (hAllowed : ∀ past e later, events = past ++ e :: later → (poolAfter past).Allowed e) :
    (∃ lost, PoolInv (poolAfter events).memory (poolAfter events).held lost) ∧
      (poolAfter events).memory.Ready :=
  run_invariant_of_split poolStep
    (fun c => (∃ lost, PoolInv c.memory c.held lost) ∧ c.memory.Ready)
    PoolClient.Allowed (fun _ _ h hGood => poolStep_allowed h.1 h.2 hGood)
    ⟨⟨fun _ => False, poolInv_start⟩, ready_start⟩ events hAllowed

/-- Throughout a run the client can use what it holds, exactly if the pools are not
torn down under it. -/
theorem buffers_safe (events : List PoolEvent) :
    (∀ past later, events = past ++ later → (poolAfter past).Safe) ↔
      ∀ past e later, events = past ++ e :: later → (poolAfter past).Allowed e := by
  refine run_safe_iff poolStep
    (fun c => (∃ lost, PoolInv c.memory c.held lost) ∧ c.memory.Ready)
    PoolClient.Safe PoolClient.Allowed ?_ ?_ ?_
    ⟨⟨fun _ => False, poolInv_start⟩, ready_start⟩ events
  · rintro c ⟨⟨lost, hInv⟩, -⟩
    exact hInv.safe
  · rintro c e ⟨hInv, hReady⟩ hAllowed
    exact poolStep_allowed hInv hReady hAllowed
  · rintro c e - hNot
    cases e with
    | exit =>
        simp only [PoolClient.Allowed, not_forall, not_not] at hNot
        obtain ⟨b, hMem, hPool⟩ := hNot
        exact poolStep_exit_unsafe hMem hPool
    | init answers => exact absurd trivial hNot
    | malloc size svcId answer => exact absurd trivial hNot
    | free b => exact absurd trivial hNot

/-- Moreover no block is ever lost, exactly if what is given back is given back to
initialised pools and for one of the two services. -/
theorem nothing_lost (events : List PoolEvent) :
    (∀ past later, events = past ++ later →
        (poolAfter past).Safe ∧ (poolAfter past).Accounted) ↔
      ∀ past e later, events = past ++ e :: later → (poolAfter past).Tidy e := by
  refine run_safe_iff poolStep
    (fun c => PoolInv c.memory c.held (fun _ => False) ∧ c.memory.Ready)
    (fun c => c.Safe ∧ c.Accounted) PoolClient.Tidy ?_ ?_ ?_
    ⟨poolInv_start, ready_start⟩ events
  · rintro c ⟨hInv, -⟩
    exact ⟨hInv.safe, hInv.accounted⟩
  · rintro c e ⟨hInv, hReady⟩ hTidy
    exact poolStep_tidy hInv hReady hTidy
  · rintro c e ⟨hInv, hReady⟩ hNot ⟨hSafe, hAccounted⟩
    cases e with
    | exit =>
        simp only [PoolClient.Tidy, not_forall, not_not] at hNot
        obtain ⟨b, hMem, hPool⟩ := hNot
        exact poolStep_exit_unsafe hMem hPool hSafe
    | init answers => exact absurd trivial hNot
    | malloc size svcId answer => exact absurd trivial hNot
    | free b =>
        simp only [PoolClient.Tidy, Classical.not_imp] at hNot
        obtain ⟨hMem, hNot⟩ := hNot
        obtain ⟨hEq, hNotPool⟩ := poolStep_lost hInv hReady hMem hNot
        obtain ⟨size, hLoose⟩ := hInv.loose_of_held hMem hNotPool
        rw [hEq] at hAccounted
        rcases hAccounted b.addr (by simp [hLoose.live]) with
          ⟨slot, hPtr⟩ | ⟨b', hMem', hAddr⟩
        · exact hLoose.unpooled slot hPtr
        · exact hLoose.unheld b' hMem' hAddr

/-! ## How many buffers a pool has left -/

/-- The buffers of the pool among those the client holds. -/
def PoolClient.heldFrom (c : PoolClient) (s : Service) : List Buffer :=
  c.held.filter fun b => (c.memory.findPtr s b.addr).isSome

/-- The places of the pool that are in use. -/
def Memory.usedItems (m : Memory) (s : Service) : List (Fin diagsvcMallocMaxItems) :=
  (List.finRange diagsvcMallocMaxItems).filter fun i => (m.pools (s, i)).inUse

theorem Memory.findPtr_isSome (m : Memory) (s : Service) (a : Nat) :
    (m.findPtr s a).isSome = true ↔ ∃ i, (m.pools (s, i)).ptr = some a := by
  simp [Memory.findPtr]

theorem Memory.findFree_eq_none (m : Memory) (s : Service) :
    m.findFree s = none ↔ (m.usedItems s).length = diagsvcMallocMaxItems := by
  have hAll := List.length_filter_eq_length_iff
    (p := fun i => (m.pools (s, i)).inUse)
    (l := List.finRange diagsvcMallocMaxItems)
  rw [List.length_finRange] at hAll
  rw [Memory.usedItems, hAll]
  simp [Memory.findFree]

/-- The client holds as many buffers of a pool as are in use. -/
theorem PoolInv.heldFrom_length (h : PoolInv c.memory c.held lost) {s : Service}
    (hFull : ∀ i, (c.memory.pools (s, i)).ptr ≠ none) :
    (c.heldFrom s).length = (c.memory.usedItems s).length := by
  let addrOf : Fin diagsvcMallocMaxItems → Nat := fun i =>
    (c.memory.pools (s, i)).ptr.getD 0
  have hAddr : ∀ i, (c.memory.pools (s, i)).ptr = some (addrOf i) := fun i => by
    obtain ⟨a, hPtr⟩ := Option.ne_none_iff_exists'.mp (hFull i)
    simp [addrOf, hPtr]
  have hInj : Function.Injective addrOf := fun i j hEq => by
    have hSlot := h.apart (s, i) (s, j) _ (hAddr i) (hEq ▸ hAddr j)
    exact (Prod.mk.inj hSlot).2
  -- Both lists are those of the addresses in use, each once.
  have hPerm : ((c.heldFrom s).map Buffer.addr).Perm
      ((c.memory.usedItems s).map addrOf) := by
    refine (List.perm_ext_iff_of_nodup ?_ ?_).mpr fun a => ?_
    · exact List.Nodup.sublist (List.filter_sublist.map _) h.distinct
    · exact ((List.nodup_finRange _).filter _).map hInj
    · simp only [List.mem_map, PoolClient.heldFrom, Memory.usedItems, List.mem_filter,
        List.mem_finRange, true_and, Memory.findPtr_isSome]
      constructor
      · rintro ⟨b, ⟨hMem, i, hPtr⟩, rfl⟩
        refine ⟨i, (h.used (s, i) b.addr hPtr).mpr ⟨b, hMem, rfl⟩, ?_⟩
        exact Option.some.inj ((hAddr i).symm.trans hPtr)
      · rintro ⟨i, hUsed, rfl⟩
        obtain ⟨b, hMem, hEq⟩ := (h.used (s, i) _ (hAddr i)).mp hUsed
        exact ⟨b, ⟨hMem, i, hEq ▸ hAddr i⟩, hEq⟩
  simpa using hPerm.length_eq

/-- A small buffer of one of the services can be had without `malloc` exactly while
the client holds fewer than ten of its pool. -/
theorem pool_serves (events : List PoolEvent)
    (hAllowed : ∀ past e later, events = past ++ e :: later →
      (poolAfter past).Allowed e)
    (hInit : (poolAfter events).memory.initialized = true) {size : Nat} {svcId : Int}
    {s : Service} (hFits : size ≤ diagsvcMallocItemSize) (hPool : poolOf svcId = some s) :
    ((poolAfter events).memory.diagSvcMalloc size svcId none).1.isSome = true ↔
      ((poolAfter events).heldFrom s).length < diagsvcMallocMaxItems := by
  obtain ⟨⟨lost, hInv⟩, hReady⟩ := poolAfter_inv hAllowed
  have hFull : ∀ i, ((poolAfter events).memory.pools (s, i)).ptr ≠ none := fun i hNull => by
    have hOff := (hReady (s, i)).mp hNull
    exact absurd (hInit.symm.trans hOff) (by decide)
  have hLe : ((poolAfter events).memory.usedItems s).length ≤ diagsvcMallocMaxItems := by
    simpa [Memory.usedItems] using List.length_filter_le
      (fun i => ((poolAfter events).memory.pools (s, i)).inUse) (List.finRange _)
  have hNone := Memory.findFree_eq_none (poolAfter events).memory s
  rw [hInv.heldFrom_length hFull]
  rcases Memory.diagSvcMalloc_cases hReady size svcId none with
    ⟨hOff | ⟨-, hOther⟩, -⟩ | ⟨-, hBig | ⟨s', hPool', hFree⟩, hEq⟩ |
      ⟨s', i, a, hPool', -, -, hFree, -, hEq⟩
  · exact absurd (hInit.symm.trans hOff) (by decide)
  · exact absurd hPool (by simp [hOther])
  · exact absurd hFits (Nat.not_le_of_lt hBig)
  · obtain rfl : s' = s := Option.some.inj (hPool'.symm.trans hPool)
    rw [hEq, hNone.mp hFree]
    simp [Memory.malloc]
  · obtain rfl : s' = s := Option.some.inj (hPool'.symm.trans hPool)
    have hNot : ¬ (((poolAfter events).memory.usedItems s').length =
        diagsvcMallocMaxItems) := by
      rw [← hNone, hFree]
      simp
    rw [hEq]
    simp only [Option.isSome_some, true_iff]
    omega

/-- The pools are initialised and a packet buffer is asked for. -/
def packetBuffer : List PoolEvent :=
  [.init fun slot => some (if slot.1 = .gen then slot.2.val else 100 + slot.2.val),
    .malloc 64 pktSvcId none]

/-- Another one can be had. -/
theorem pool_serves_packetBuffer :
    ((poolAfter packetBuffer).memory.diagSvcMalloc 64 pktSvcId none).1.isSome = true ↔
      ((poolAfter packetBuffer).heldFrom .pkt).length < diagsvcMallocMaxItems := by
  refine pool_serves packetBuffer ?_ (by decide) (by decide) (by decide)
  intro past e later hSplit
  have hMem : e ∈ packetBuffer := by
    rw [hSplit]
    simp
  rcases List.mem_cons.mp hMem with rfl | hMem
  · exact trivial
  · rw [List.mem_singleton.mp hMem]
    exact trivial

end Runs

end Dci
end MgComm
