import Mathlib.Data.List.Find
import Mathlib.Data.List.Perm.Subperm
import MgComm.Bytes
import MgComm.Library.RingList
import MgComm.Library.StreamMachine

/-!
# The request tables of the diag library

`diag_send_dci_async_req` keeps every request in a circular doubly linked list
until its last response has come, one list for each processor.  The client's
thread links requests in and takes them out again when the driver refuses them;
the read thread looks responses up, calls the client back and unlinks what is
finished; `diag_release_dci_client` empties the list.  What a thread does under
`req_tbl_mutex` is one step here, and the steps come in any order.

Over the pointers stands a table of pending requests, a plain list for each
processor.  The linked lists refine it (`requestTables_refine`), so the loops
through them end and no request is lost or met twice.  A response reaches the
callback of the one request it belongs to, as long as that is open
(`response_delivers`).

The mutex guards neither `dci_transaction_id` nor `dci_req_buf`: one thread makes
the calls of the client.  A run is looked at as long as it is defined.
-/

namespace MgComm
namespace Dci

universe u

open RingList StreamMachine

/-- `diag_pkt_tracking_info`; `F` is the type of callbacks. -/
structure DiagPktTrackingInfo (F : Type u) where
  uid : Int
  /-- `func_ptr`, which may be `NULL`. -/
  funcPtr : Option F
  rspPtr : Nat
  rspLen : Int
  dataPtr : Nat

/-- What `prev` and `next` point to: the `req_tbl_head` of a processor or an
allocated request. -/
inductive RequestRef where
  | head (proc : Nat)
  | entry (addr : Nat)
  deriving DecidableEq

/-- The lists of all processors, `dci_transaction_id` and the heap they use. -/
structure RequestTables (F : Type u) where
  links : Links RequestRef
  /-- `info` of a request; a head has none. -/
  info : Nat → Option (DiagPktTrackingInfo F)
  /-- The requests that are allocated. -/
  live : List Nat
  dciTransactionId : Int
  /-- Memory that is not allocated was used, a loop did not end or an `int`
  overflowed. -/
  undefined : Bool

/-- The fields of a response, and the bytes after them. -/
structure PktRsp where
  len : Int
  deleteFlag : Byte
  uid : Int
  data : Nat → Byte

/-- What a response does to the client: its bytes are copied to the buffer of
the request, and the callback is called. -/
inductive RspOutput (F : Type u) where
  | copied (rspPtr : Nat) (bytes : List Byte)
  | called (funcPtr : F) (rspPtr : Nat) (len : Int) (dataPtr : Nat)
  deriving DecidableEq

section Tables

variable {F : Type u} (n : Nat)

/-- `IS_VALID_DCI_PROC(x)`, with the index it stands for. -/
def procIndex (proc : Int) : Option (Fin n) :=
  if h : 0 ≤ proc ∧ proc < n then some ⟨proc.toNat, by omega⟩ else none

/-- The sentinel of a processor's list. -/
def reqTblHead (i : Fin n) : RequestRef := .head i

/-- The loop of `diag_lsm_dci_init` over the heads. -/
def initHeads (m : Links RequestRef) : Nat → Links RequestRef
  | 0 => m
  | i + 1 => initHead (initHeads m i) (.head i)

/-- The tables after `diag_lsm_dci_init`; the links of everything else are
whatever they are. -/
def RequestTables.init (m : Links RequestRef) : RequestTables F where
  links := initHeads m n
  info := fun _ => none
  live := []
  dciTransactionId := 0
  undefined := false

/-- `malloc`, for what the allocator proposes: memory in use is never handed out
again. -/
def RequestTables.malloc (t : RequestTables F) (proposal : Option Nat) : Option Nat :=
  proposal.filter fun addr => decide (addr ∉ t.live)

/-- `static void dci_delete_request_entry(diag_pkt_rsp_tracking_tbl *entry, int
proc)` -/
def dciDeleteRequestEntry (t : RequestTables F) : RequestRef → RequestTables F
  | .head _ => { t with undefined := true }
  | .entry addr =>
      if addr ∈ t.live then
        { t with
          links := unlink t.links (.entry addr)
          info := Function.update t.info addr none
          live := t.live.erase addr }
      else { t with undefined := true }

/-- `walk_ptr->info && walk_ptr->info->uid == uid` -/
def RequestTables.matches (t : RequestTables F) (uid : Int) : RequestRef → Bool
  | .head _ => false
  | .entry addr =>
      match t.info addr with
      | none => false
      | some info => info.uid == uid

/-- Steps enough for a loop over any of the lists. -/
def RequestTables.steps (t : RequestTables F) : Nat := t.live.length + 1

/-- `static diag_pkt_rsp_tracking_tbl *diag_register_dci_pkt(...)`: the request
and its `info` are allocated and linked in before the head. -/
def diagRegisterDciPkt (t : RequestTables F) (proc : Int)
    (reqInfo : DiagPktTrackingInfo F) (infoAllocated : Bool) (newReq : Option Nat) :
    RequestTables F :=
  match procIndex n proc with
  | none => t
  | some i =>
      if infoAllocated then
        match t.malloc newReq with
        | none => t
        | some addr =>
            { t with
              links := insertTail t.links (reqTblHead n i) (.entry addr)
              info := Function.update t.info addr (some reqInfo)
              live := addr :: t.live }
      else t

/-- A found request: the copy and the call.  Both need a response that fits. -/
def deliver (info : DiagPktTrackingInfo F) (rsp : PktRsp) : List (RspOutput F) :=
  let len := intT (rsp.len - 4)
  if 0 < len ∧ len ≤ info.rspLen then
    .copied info.rspPtr ((List.range len.toNat).map rsp.data) ::
      match info.funcPtr with
      | some f => [.called f info.rspPtr len info.dataPtr]
      | none => []
  else []

/-- `void lookup_pkt_rsp_transaction(unsigned char *ptr, int proc)` -/
def lookupPktRspTransaction (t : RequestTables F) (proc : Int) (rsp : PktRsp) :
    RequestTables F × List (RspOutput F) :=
  match procIndex n proc with
  | none => (t, [])
  | some i =>
      match walk t.links (reqTblHead n i) (t.matches rsp.uid) t.steps with
      | none => ({ t with undefined := true }, [])
      | some (some (.entry addr)) =>
          match t.info addr with
          | none => (t, [])
          | some info =>
              -- Delete Flag will be set if it is safe to delete the entry.
              (if rsp.deleteFlag ≠ 0 then dciDeleteRequestEntry t (.entry addr) else t,
                deliver info rsp)
      | some _ => (t, [])

/-- `for (walk_ptr = head->next; walk_ptr != head; walk_ptr = head->next)` with a
deletion each, in `diag_release_dci_client`. -/
def deleteRequests (i : Fin n) : Nat → RequestTables F → RequestTables F
  | 0, t => { t with undefined := true }
  | steps + 1, t =>
      if t.links.next (reqTblHead n i) = reqTblHead n i then t
      else
        deleteRequests i steps
          (dciDeleteRequestEntry t (t.links.next (reqTblHead n i)))

/-- `dci_delete_request_entry(new_req, proc)` after a failed `write`.  `new_req` is
the request of this very call: once that is freed, whatever `malloc` has put in its
place is not. -/
def deleteOwnRequest (t : RequestTables F) (newReq : Nat) (uid : Int) : RequestTables F :=
  if newReq ∈ t.live ∧ t.matches uid (.entry newReq) then
    dciDeleteRequestEntry t (.entry newReq)
  else { t with undefined := true }

/-- `dci_transaction_id++` -/
def RequestTables.nextTransaction (t : RequestTables F) : RequestTables F :=
  { t with
    dciTransactionId := t.dciTransactionId + 1
    undefined := t.undefined || decide (2 ^ 31 ≤ t.dciTransactionId + 1) }

/-- What the client passes to `diag_send_dci_async_req` for the response. -/
structure RspTarget (F : Type u) where
  funcPtr : Option F
  rspPtr : Nat
  rspLen : Int
  dataPtr : Nat

/-- The `info` of a request. -/
def RspTarget.toInfo (target : RspTarget F) (uid : Int) : DiagPktTrackingInfo F :=
  ⟨uid, target.funcPtr, target.rspPtr, target.rspLen, target.dataPtr⟩

/-- What the threads do to the tables. -/
inductive RequestEvent (F : Type u) where
  /-- `diag_send_dci_async_req`, up to the `write` -/
  | send (i : Fin n) (target : RspTarget F) (infoAllocated : Bool)
      (newReq : Option Nat)
  /-- the `write` of the call with this transaction id has failed, and the call
  deletes the request it has registered -/
  | sendFailed (newReq : Nat) (uid : Int)
  /-- `lookup_pkt_rsp_transaction` -/
  | response (proc : Int) (rsp : PktRsp)
  /-- the loop of `diag_release_dci_client` -/
  | release (i : Fin n)

/-- One step of a thread. -/
def requestStep (t : RequestTables F) :
    RequestEvent n F → RequestTables F × List (RspOutput F)
  | .send i target infoAllocated newReq =>
      let t := t.nextTransaction
      (diagRegisterDciPkt n t i.val (target.toInfo t.dciTransactionId) infoAllocated newReq,
        [])
  | .sendFailed newReq uid => (deleteOwnRequest t newReq uid, [])
  | .response proc rsp => lookupPktRspTransaction n t proc rsp
  | .release i => (deleteRequests n i t.steps t, [])

end Tables

/-! ## Pending requests -/

/-- A request that waits for its responses, with the address it has. -/
structure Request (F : Type u) where
  addr : Nat
  info : DiagPktTrackingInfo F

/-- The requests that are pending for each processor, oldest first. -/
structure PendingRequests (F : Type u) (n : Nat) where
  pending : Fin n → List (Request F)
  transactionId : Int
  undefined : Bool

section Pending

variable {F : Type u} {n : Nat}

/-- Nothing is pending. -/
def PendingRequests.init : PendingRequests F n := ⟨fun _ => [], 0, false⟩

/-- The address belongs to a pending request. -/
def PendingRequests.Has (p : PendingRequests F n) (addr : Nat) : Prop :=
  ∃ i, ∃ r ∈ p.pending i, r.addr = addr

instance (p : PendingRequests F n) (addr : Nat) : Decidable (p.Has addr) :=
  decidable_of_iff
    (((List.finRange n).any fun i => (p.pending i).any fun r => r.addr == addr) = true)
    (by simp [PendingRequests.Has])

/-- The request of a call is still pending. -/
def PendingRequests.HasCall (p : PendingRequests F n) (addr : Nat) (uid : Int) : Prop :=
  ∃ i, ∃ r ∈ p.pending i, r.addr = addr ∧ r.info.uid = uid

instance (p : PendingRequests F n) (addr : Nat) (uid : Int) :
    Decidable (p.HasCall addr uid) :=
  decidable_of_iff
    (((List.finRange n).any fun i =>
      (p.pending i).any fun r => r.addr == addr && r.info.uid == uid) = true)
    (by simp [PendingRequests.HasCall])

/-- A list of pending requests without the one at an address. -/
def withoutAddr (addr : Nat) (rs : List (Request F)) : List (Request F) :=
  rs.filter fun r => r.addr != addr

/-- The pending requests after a step of a thread, and what the step does to the
client. -/
def pendingStep (p : PendingRequests F n) :
    RequestEvent n F → PendingRequests F n × List (RspOutput F)
  | .send i target infoAllocated newReq =>
      let uid := p.transactionId + 1
      let p := { p with
        transactionId := uid
        undefined := p.undefined || decide (2 ^ 31 ≤ uid) }
      match newReq with
      | none => (p, [])
      | some addr =>
          if infoAllocated = false ∨ p.Has addr then (p, [])
          else
            ({ p with
              pending := Function.update p.pending i
                (p.pending i ++ [⟨addr, target.toInfo uid⟩]) }, [])
  | .sendFailed newReq uid =>
      if p.HasCall newReq uid then
        ({ p with pending := fun i => withoutAddr newReq (p.pending i) }, [])
      else ({ p with undefined := true }, [])
  | .response proc rsp =>
      match procIndex n proc with
      | none => (p, [])
      | some i =>
          match (p.pending i).find? (·.info.uid == rsp.uid) with
          | none => (p, [])
          | some r =>
              (if rsp.deleteFlag ≠ 0 then
                  { p with
                    pending := Function.update p.pending i
                      (withoutAddr r.addr (p.pending i)) }
                else p,
                deliver r.info rsp)
  | .release i => ({ p with pending := Function.update p.pending i [] }, [])

/-- The nodes that stand for pending requests. -/
def nodes (pending : Fin n → List (Request F)) (i : Fin n) : List RequestRef :=
  (pending i).map fun r => .entry r.addr

/-- The linked lists hold the pending requests, and nothing else is
allocated. -/
structure Refines (t : RequestTables F) (p : PendingRequests F n) : Prop where
  rings : Family t.links (reqTblHead n) (nodes p.pending)
  info : ∀ i, ∀ r ∈ p.pending i, t.info r.addr = some r.info
  live : ∀ addr, addr ∈ t.live ↔ p.Has addr
  liveNodup : t.live.Nodup
  transactionId : t.dciTransactionId = p.transactionId
  undefined : t.undefined = p.undefined

/-! ## The lists refine the pending requests -/

theorem initHeads_links (m : Links RequestRef) {i k : Nat} (hi : i < k) :
    (initHeads m k).next (.head i) = .head i ∧
      (initHeads m k).prev (.head i) = .head i := by
  induction k with
  | zero => exact absurd hi (Nat.not_lt_zero i)
  | succ k ih =>
      obtain ⟨hNext, hPrev⟩ := initHead_links (initHeads m k) (.head k) (.head i)
      rw [initHeads, hNext, hPrev]
      by_cases hEq : i = k
      · subst hEq
        simp
      · have hHeads : RequestRef.head i ≠ .head k := by simpa using hEq
        rw [if_neg hHeads, if_neg hHeads]
        exact ih (by omega)

theorem refines_init (m : Links RequestRef) :
    Refines (RequestTables.init n m) (PendingRequests.init : PendingRequests F n) where
  rings :=
    { ring := fun i => by
        obtain ⟨hNext, hPrev⟩ := initHeads_links m i.isLt
        exact isRing_nil hNext hPrev
      apart := fun i j hNe a hi hj => by
        simp only [nodes, PendingRequests.init, List.map_nil, List.mem_singleton] at hi hj
        rw [hi] at hj
        simp only [reqTblHead, RequestRef.head.injEq] at hj
        exact hNe (Fin.ext hj) }
  info := by simp [PendingRequests.init]
  live := by simp [PendingRequests.init, RequestTables.init, PendingRequests.Has]
  liveNodup := List.nodup_nil
  transactionId := rfl
  undefined := rfl

section Relation

variable {t : RequestTables F} {p : PendingRequests F n}

/-- An address belongs to one pending request only. -/
theorem Refines.addr_inj (h : Refines t p) {i j : Fin n} {r r' : Request F}
    (hr : r ∈ p.pending i) (hr' : r' ∈ p.pending j) (hAddr : r.addr = r'.addr) :
    i = j ∧ r = r' := by
  have hi : RequestRef.entry r.addr ∈ nodes p.pending i := List.mem_map_of_mem hr
  have hj : RequestRef.entry r.addr ∈ nodes p.pending j :=
    hAddr ▸ List.mem_map_of_mem hr'
  obtain rfl := h.rings.unique hi hj
  refine ⟨rfl, ?_⟩
  have hNodup := (List.nodup_cons.mp (h.rings.ring i).nodup).2
  exact List.inj_on_of_nodup_map hNodup hr hr' (by rw [hAddr])

theorem Refines.pending_nodup (h : Refines t p) (i : Fin n) :
    ((p.pending i).map Request.addr).Nodup := by
  have hNodup := (List.nodup_cons.mp (h.rings.ring i).nodup).2
  rw [nodes, show (fun r : Request F => RequestRef.entry r.addr) =
    RequestRef.entry ∘ Request.addr from rfl, ← List.map_map] at hNodup
  exact hNodup.of_map

/-- No list is longer than what is allocated. -/
theorem Refines.length_lt_steps (h : Refines t p) (i : Fin n) :
    (nodes p.pending i).length < t.steps := by
  have hSub : (p.pending i).map Request.addr ⊆ t.live := by
    intro addr hMem
    obtain ⟨r, hr, rfl⟩ := List.mem_map.mp hMem
    exact (h.live r.addr).mpr ⟨i, r, hr, rfl⟩
  have hLength := (List.subperm_of_subset (h.pending_nodup i) hSub).length_le
  simpa [nodes, RequestTables.steps, Nat.lt_succ_iff] using hLength

/-- Outside its own list an address is not pending. -/
theorem Refines.withoutAddr_other (h : Refines t p) {i j : Fin n} {r : Request F}
    (hr : r ∈ p.pending i) (hNe : j ≠ i) :
    withoutAddr r.addr (p.pending j) = p.pending j := by
  refine List.filter_eq_self.mpr fun r' hr' => ?_
  rw [bne_iff_ne]
  exact fun hAddr => hNe (h.addr_inj hr' hr hAddr).1

/-- Taking out a request takes out its node. -/
theorem Refines.nodes_withoutAddr (h : Refines t p) {i : Fin n} {r : Request F}
    (hr : r ∈ p.pending i) :
    Function.update (nodes p.pending) i ((nodes p.pending i).erase (.entry r.addr)) =
      nodes (Function.update p.pending i (withoutAddr r.addr (p.pending i))) := by
  funext j
  by_cases hj : j = i
  · subst hj
    have hNodup := (List.nodup_cons.mp (h.rings.ring j).nodup).2
    rw [Function.update_self, hNodup.erase_eq_filter, nodes, nodes,
      Function.update_self, withoutAddr, List.filter_map]
    refine congrArg _ (List.filter_congr fun r' _ => ?_)
    simp [bne, Function.comp]
  · rw [Function.update_of_ne hj, nodes, nodes, Function.update_of_ne hj]

/-- Deletion of a pending request. -/
theorem Refines.delete (h : Refines t p) {i : Fin n} {r : Request F}
    (hr : r ∈ p.pending i) :
    Refines (dciDeleteRequestEntry t (.entry r.addr))
      { p with
        pending := Function.update p.pending i (withoutAddr r.addr (p.pending i)) } := by
  have hLive : r.addr ∈ t.live := (h.live r.addr).mpr ⟨i, r, hr, rfl⟩
  have hEntry : RequestRef.entry r.addr ∈ nodes p.pending i := List.mem_map_of_mem hr
  -- The members that stay are the ones at other addresses.
  have hStays (j : Fin n) (r' : Request F) :
      r' ∈ Function.update p.pending i (withoutAddr r.addr (p.pending i)) j ↔
        r' ∈ p.pending j ∧ r'.addr ≠ r.addr := by
    by_cases hj : j = i
    · subst hj
      simp [withoutAddr]
    · rw [Function.update_of_ne hj]
      exact ⟨fun hMem => ⟨hMem, fun hAddr => hj (h.addr_inj hMem hr hAddr).1⟩,
        fun hMem => hMem.1⟩
  simp only [dciDeleteRequestEntry, if_pos hLive]
  refine ⟨?_, ?_, ?_, h.liveNodup.erase _, h.transactionId, h.undefined⟩
  · have hUnlinked := h.rings.unlink hEntry
    rw [h.nodes_withoutAddr hr] at hUnlinked
    exact hUnlinked
  · intro j r' hMem
    obtain ⟨hOld, hNe⟩ := (hStays j r').mp hMem
    show Function.update t.info r.addr none r'.addr = some r'.info
    rw [Function.update_of_ne hNe]
    exact h.info j r' hOld
  · intro addr
    rw [h.liveNodup.mem_erase_iff, h.live]
    constructor
    · rintro ⟨hNe, j, r', hMem, rfl⟩
      exact ⟨j, r', (hStays j r').mpr ⟨hMem, hNe⟩, rfl⟩
    · rintro ⟨j, r', hMem, rfl⟩
      obtain ⟨hOld, hNe⟩ := (hStays j r').mp hMem
      exact ⟨hNe, j, r', hOld, rfl⟩

/-- Registration of a request. -/
theorem Refines.register (h : Refines t p) (i : Fin n) (reqInfo : DiagPktTrackingInfo F)
    {addr : Nat} (hFresh : ¬ p.Has addr) :
    Refines
      { t with
        links := insertTail t.links (reqTblHead n i) (.entry addr)
        info := Function.update t.info addr (some reqInfo)
        live := addr :: t.live }
      { p with
        pending := Function.update p.pending i (p.pending i ++ [⟨addr, reqInfo⟩]) } := by
  -- The members are the old ones, which have other addresses, and the new one.
  have hMembers (j : Fin n) (r : Request F) :
      r ∈ Function.update p.pending i (p.pending i ++ [⟨addr, reqInfo⟩]) j ↔
        (r ∈ p.pending j ∧ r.addr ≠ addr) ∨ (j = i ∧ r = ⟨addr, reqInfo⟩) := by
    have hOld (hMem : r ∈ p.pending j) : r.addr ≠ addr :=
      fun hAddr => hFresh ⟨j, r, hMem, hAddr⟩
    by_cases hj : j = i
    · subst hj
      rw [Function.update_self, List.mem_append, List.mem_singleton]
      constructor
      · rintro (hMem | hNew)
        · exact Or.inl ⟨hMem, hOld hMem⟩
        · exact Or.inr ⟨rfl, hNew⟩
      · rintro (⟨hMem, -⟩ | ⟨-, hNew⟩)
        · exact Or.inl hMem
        · exact Or.inr hNew
    · rw [Function.update_of_ne hj]
      constructor
      · exact fun hMem => Or.inl ⟨hMem, hOld hMem⟩
      · rintro (⟨hMem, -⟩ | ⟨hEq, -⟩)
        · exact hMem
        · exact absurd hEq hj
  refine ⟨?_, ?_, ?_, ?_, h.transactionId, h.undefined⟩
  · have hNodes : Function.update (nodes p.pending) i (nodes p.pending i ++ [.entry addr]) =
        nodes (Function.update p.pending i (p.pending i ++ [⟨addr, reqInfo⟩])) := by
      funext j
      by_cases hj : j = i
      · subst hj
        simp [nodes]
      · simp [nodes, hj]
    rw [← hNodes]
    refine h.rings.insertTail i fun j hMem => ?_
    rcases List.mem_cons.mp hMem with hHead | hMem
    · exact absurd hHead (by simp [reqTblHead])
    · obtain ⟨r, hr, hAddr⟩ := List.mem_map.mp hMem
      exact hFresh ⟨j, r, hr, by simpa using hAddr⟩
  · intro j r hMem
    show Function.update t.info addr (some reqInfo) r.addr = some r.info
    rcases (hMembers j r).mp hMem with ⟨hOld, hNe⟩ | ⟨-, rfl⟩
    · rw [Function.update_of_ne hNe]
      exact h.info j r hOld
    · rw [Function.update_self]
  · intro a
    rw [List.mem_cons, h.live]
    constructor
    · rintro (rfl | ⟨j, r, hMem, rfl⟩)
      · exact ⟨i, _, (hMembers i _).mpr (Or.inr ⟨rfl, rfl⟩), rfl⟩
      · refine ⟨j, r, (hMembers j r).mpr (Or.inl ⟨hMem, ?_⟩), rfl⟩
        exact fun hAddr => hFresh ⟨j, r, hMem, hAddr⟩
    · rintro ⟨j, r, hMem, rfl⟩
      rcases (hMembers j r).mp hMem with ⟨hOld, -⟩ | ⟨-, rfl⟩
      · exact Or.inr ⟨j, r, hOld, rfl⟩
      · exact Or.inl rfl
  · exact List.nodup_cons.mpr ⟨fun hMem => hFresh ((h.live addr).mp hMem), h.liveNodup⟩

/-- The search of `lookup_pkt_rsp_transaction` ends, at the oldest request with
the transaction id. -/
theorem Refines.walk (h : Refines t p) (i : Fin n) (uid : Int) :
    RingList.walk t.links (reqTblHead n i) (t.matches uid) t.steps =
      some (((p.pending i).find? (·.info.uid == uid)).map fun r => .entry r.addr) := by
  rw [(h.rings.ring i).walk _ (h.length_lt_steps i), nodes, List.find?_map]
  have hCongr : (p.pending i).find? (t.matches uid ∘ fun r => .entry r.addr) =
      (p.pending i).find? (·.info.uid == uid) := by
    refine List.find?_congr fun r hMem => ?_
    simp [RequestTables.matches, h.info i r hMem]
  rw [hCongr]

/-- The loop of `diag_release_dci_client` ends, and empties the list. -/
theorem Refines.deleteRequests (h : Refines t p) (i : Fin n) {steps : Nat}
    (hSteps : (p.pending i).length < steps) :
    Refines (deleteRequests n i steps t)
      { p with pending := Function.update p.pending i [] } := by
  obtain ⟨rs, hrs⟩ : ∃ rs, p.pending i = rs := ⟨_, rfl⟩
  induction rs generalizing t p steps with
  | nil =>
      cases steps with
      | zero => exact absurd hSteps (Nat.not_lt_zero _)
      | succ steps =>
          have hNext := (h.rings.ring i).next_head
          rw [nodes, hrs, List.map_nil, List.headD_nil] at hNext
          have hSame : Function.update p.pending i [] = p.pending := by
            rw [← hrs, Function.update_eq_self]
          rw [Dci.deleteRequests, if_pos hNext, hSame]
          exact h
  | cons r rs ih =>
      cases steps with
      | zero => exact absurd hSteps (Nat.not_lt_zero _)
      | succ steps =>
          have hNext := (h.rings.ring i).next_head
          rw [nodes, hrs, List.map_cons, List.headD_cons] at hNext
          have hr : r ∈ p.pending i := by rw [hrs]; exact List.mem_cons_self
          have hDeleted := h.delete hr
          -- No other request has the address of the first one.
          have hRest : withoutAddr r.addr (p.pending i) = rs := by
            have hNodup := h.pending_nodup i
            rw [hrs, List.map_cons, List.nodup_cons] at hNodup
            rw [hrs, withoutAddr, List.filter_cons_of_neg (by simp)]
            refine List.filter_eq_self.mpr fun r' hr' => ?_
            rw [bne_iff_ne]
            exact fun hAddr => hNodup.1 (hAddr ▸ List.mem_map_of_mem hr')
          rw [hRest] at hDeleted
          rw [hrs, List.length_cons] at hSteps
          have hLoop := ih hDeleted (by simpa using Nat.lt_of_succ_lt_succ hSteps)
            (by simp)
          rw [Dci.deleteRequests, hNext, if_neg (by simp [reqTblHead])]
          simpa using hLoop

end Relation

theorem procIndex_val (i : Fin n) : procIndex n i.val = some i := by
  have hValid : 0 ≤ (i.val : Int) ∧ (i.val : Int) < n := by omega
  simp [procIndex]

section Steps

variable {t : RequestTables F} {p : PendingRequests F n}

theorem Refines.send (h : Refines t p) (i : Fin n) (target : RspTarget F)
    (infoAllocated : Bool) (newReq : Option Nat) :
    Refines (requestStep n t (.send i target infoAllocated newReq)).1
      (pendingStep p (.send i target infoAllocated newReq)).1 := by
  have hNext : Refines t.nextTransaction
      { p with
        transactionId := p.transactionId + 1
        undefined := p.undefined || decide (2 ^ 31 ≤ p.transactionId + 1) } := by
    refine ⟨h.rings, h.info, h.live, h.liveNodup, ?_, ?_⟩
    · simp [RequestTables.nextTransaction, h.transactionId]
    · simp [RequestTables.nextTransaction, h.transactionId, h.undefined]
  have hUid : t.nextTransaction.dciTransactionId = p.transactionId + 1 :=
    hNext.transactionId
  simp only [requestStep, pendingStep, diagRegisterDciPkt, procIndex_val]
  cases newReq with
  | none => simpa [RequestTables.malloc] using hNext
  | some addr =>
      have hLive := hNext.live addr
      cases infoAllocated with
      | false => simpa using hNext
      | true =>
          simp only [if_true, Bool.true_eq_false, false_or]
          by_cases hHas : p.Has addr
          · have hTaken : t.nextTransaction.malloc (some addr) = none := by
              simp [RequestTables.malloc, hLive.mpr hHas]
            rw [hTaken, if_pos]
            · exact hNext
            · exact hHas
          · have hNew : t.nextTransaction.malloc (some addr) = some addr := by
              have hNot : addr ∉ t.nextTransaction.live := fun hMem => hHas (hLive.mp hMem)
              simp [RequestTables.malloc, hNot]
            have hRegistered :=
              hNext.register i (target.toInfo t.nextTransaction.dciTransactionId) hHas
            rw [hNew, if_neg]
            · rw [hUid] at hRegistered ⊢
              exact hRegistered
            · exact hHas

/-- What lies at an address is the request of a call exactly if that is pending. -/
theorem Refines.hasCall_iff (h : Refines t p) (newReq : Nat) (uid : Int) :
    newReq ∈ t.live ∧ t.matches uid (.entry newReq) = true ↔ p.HasCall newReq uid := by
  constructor
  · rintro ⟨hLive, hMatches⟩
    obtain ⟨i, r, hr, rfl⟩ := (h.live newReq).mp hLive
    have hUid : r.info.uid = uid := by
      simpa [RequestTables.matches, h.info i r hr] using hMatches
    exact ⟨i, r, hr, rfl, hUid⟩
  · rintro ⟨i, r, hr, rfl, rfl⟩
    refine ⟨(h.live r.addr).mpr ⟨i, r, hr, rfl⟩, ?_⟩
    simp [RequestTables.matches, h.info i r hr]

theorem Refines.sendFailed (h : Refines t p) (newReq : Nat) (uid : Int) :
    Refines (requestStep n t (.sendFailed newReq uid)).1
      (pendingStep p (.sendFailed newReq uid)).1 := by
  simp only [requestStep, pendingStep, deleteOwnRequest]
  by_cases hHas : p.HasCall newReq uid
  · rw [if_pos ((h.hasCall_iff newReq uid).mpr hHas), if_pos hHas]
    obtain ⟨i, r, hr, rfl, -⟩ := hHas
    have hDeleted := h.delete hr
    have hPending : (fun j => withoutAddr r.addr (p.pending j)) =
        Function.update p.pending i (withoutAddr r.addr (p.pending i)) := by
      funext j
      by_cases hj : j = i
      · rw [hj, Function.update_self]
      · rw [Function.update_of_ne hj, h.withoutAddr_other hr hj]
    rw [← hPending] at hDeleted
    exact hDeleted
  · rw [if_neg (mt (h.hasCall_iff newReq uid).mp hHas), if_neg hHas]
    exact ⟨h.rings, h.info, h.live, h.liveNodup, h.transactionId, rfl⟩

theorem Refines.response (h : Refines t p) (proc : Int) (rsp : PktRsp) :
    Refines (requestStep n t (.response proc rsp)).1
        (pendingStep p (.response proc rsp)).1 ∧
      (requestStep n t (.response proc rsp)).2 =
        (pendingStep p (.response proc rsp)).2 := by
  simp only [requestStep, pendingStep, lookupPktRspTransaction]
  cases procIndex n proc with
  | none => exact ⟨h, rfl⟩
  | some i =>
      simp only [h.walk i rsp.uid]
      cases hFound : (p.pending i).find? (·.info.uid == rsp.uid) with
      | none => exact ⟨h, rfl⟩
      | some r =>
          have hr : r ∈ p.pending i := List.mem_of_find?_eq_some hFound
          simp only [Option.map_some, h.info i r hr]
          refine ⟨?_, trivial⟩
          by_cases hFlag : rsp.deleteFlag = 0
          · simpa [hFlag] using h
          · simpa [hFlag] using h.delete hr

theorem Refines.release (h : Refines t p) (i : Fin n) :
    Refines (requestStep n t (.release i)).1 (pendingStep p (.release i)).1 :=
  h.deleteRequests i (by simpa [nodes] using h.length_lt_steps i)

end Steps

/-- Step lemma: every step keeps the lists in agreement with the pending
requests, and does the same to the client. -/
theorem requestStep_refines (t : RequestTables F) (p : PendingRequests F n)
    (e : RequestEvent n F) (h : Refines t p) :
    Refines (requestStep n t e).1 (pendingStep p e).1 ∧
      (requestStep n t e).2 = (pendingStep p e).2 := by
  cases e with
  | send i target infoAllocated newReq =>
      refine ⟨h.send i target infoAllocated newReq, ?_⟩
      simp only [requestStep, pendingStep]
      cases newReq with
      | none => rfl
      | some addr => simp only; split <;> rfl
  | sendFailed newReq uid =>
      refine ⟨h.sendFailed newReq uid, ?_⟩
      simp only [requestStep, pendingStep]
      split <;> rfl
  | response proc rsp => exact h.response proc rsp
  | release i => exact ⟨h.release i, rfl⟩

/-- Run lemma: the lists and the pending requests stay in agreement. -/
theorem refines_run (m : Links RequestRef) (events : List (RequestEvent n F)) :
    Refines (run (requestStep n) (RequestTables.init n m) events).1
        (run pendingStep PendingRequests.init events).1 ∧
      (run (requestStep n) (RequestTables.init n m) events).2 =
        (run pendingStep (PendingRequests.init : PendingRequests F n) events).2 :=
  run_refines (requestStep n) pendingStep Refines requestStep_refines (refines_init m)
    events

/-- The pending requests after a run. -/
def pendingAfter (events : List (RequestEvent n F)) : PendingRequests F n :=
  (run pendingStep PendingRequests.init events).1

/-! ## Runs that are defined -/

theorem pendingStep_transactionId (p : PendingRequests F n) (e : RequestEvent n F) :
    (pendingStep p e).1.transactionId =
      match e with
      | .send _ _ _ _ => p.transactionId + 1
      | _ => p.transactionId := by
  cases e with
  | send i target infoAllocated newReq =>
      simp only [pendingStep]
      cases newReq with
      | none => rfl
      | some addr => simp only; split <;> rfl
  | sendFailed newReq uid =>
      simp only [pendingStep]
      split <;> rfl
  | response proc rsp =>
      simp only [pendingStep]
      split
      · rfl
      · split
        · rfl
        · split <;> rfl
  | release i => rfl

/-- The event is a call of `diag_send_dci_async_req`. -/
def RequestEvent.isSend : RequestEvent n F → Bool
  | .send _ _ _ _ => true
  | _ => false

/-- The number of calls of `diag_send_dci_async_req`. -/
def sends (events : List (RequestEvent n F)) : Nat :=
  events.countP RequestEvent.isSend

theorem pendingAfter_transactionId (events : List (RequestEvent n F)) :
    (pendingAfter events).transactionId = sends events := by
  induction events using List.reverseRecOn with
  | nil => rfl
  | append_singleton events e ih =>
      rw [pendingAfter, run_append, run_singleton]
      show (pendingStep (pendingAfter events) e).1.transactionId = _
      rw [pendingStep_transactionId, ih, sends, sends, List.countP_append]
      cases e <;> simp [RequestEvent.isSend]

theorem pendingStep_undefined (p : PendingRequests F n) (e : RequestEvent n F) :
    (pendingStep p e).1.undefined =
      match e with
      | .send _ _ _ _ => p.undefined || decide (2 ^ 31 ≤ p.transactionId + 1)
      | .sendFailed newReq uid => p.undefined || decide (¬ p.HasCall newReq uid)
      | _ => p.undefined := by
  cases e with
  | send i target infoAllocated newReq =>
      simp only [pendingStep]
      cases newReq with
      | none => rfl
      | some addr => simp only; split <;> rfl
  | sendFailed newReq uid =>
      simp only [pendingStep]
      by_cases hHas : p.HasCall newReq uid <;> simp [hHas]
  | response proc rsp =>
      simp only [pendingStep]
      split
      · rfl
      · split
        · rfl
        · split <;> rfl
  | release i => rfl

/-- When the `write` of a call has failed, the request of this call is pending. -/
def FailsPending (p : PendingRequests F n) : RequestEvent n F → Prop
  | .sendFailed newReq uid => p.HasCall newReq uid
  | _ => True

theorem pendingAfter_undefined_iff (events : List (RequestEvent n F)) :
    (pendingAfter events).undefined = false ↔ sends events < 2 ^ 31 ∧
      ∀ past e later, events = past ++ e :: later → FailsPending (pendingAfter past) e := by
  induction events using List.reverseRecOn with
  | nil => simp [pendingAfter, PendingRequests.init, sends]
  | append_singleton events e ih =>
      have hStep : (pendingAfter (events ++ [e])).undefined =
          (pendingStep (pendingAfter events) e).1.undefined := by
        rw [pendingAfter, run_append, run_singleton, pendingAfter]
      have hSends : sends (events ++ [e]) = sends events + sends [e] :=
        List.countP_append
      rw [hStep, pendingStep_undefined, forall_split_concat, hSends]
      cases e with
      | send i target infoAllocated newReq =>
          simp only [Bool.or_eq_false_iff, decide_eq_false_iff_not, ih,
            pendingAfter_transactionId, FailsPending, and_true]
          have hOne : sends [RequestEvent.send i target infoAllocated newReq] = 1 := rfl
          rw [hOne]
          constructor
          · rintro ⟨⟨-, hFails⟩, hBound⟩
            exact ⟨by omega, hFails⟩
          · rintro ⟨hBound, hFails⟩
            exact ⟨⟨by omega, hFails⟩, by omega⟩
      | sendFailed newReq uid =>
          have hNone : sends [RequestEvent.sendFailed (n := n) (F := F) newReq uid] = 0 := rfl
          simp only [Bool.or_eq_false_iff, decide_eq_false_iff_not, not_not, ih, hNone,
            FailsPending, add_zero, and_assoc]
      | response proc rsp =>
          have hNone : sends [RequestEvent.response (n := n) (F := F) proc rsp] = 0 := rfl
          simp only [ih, hNone, FailsPending, and_true, add_zero]
      | release i =>
          have hNone : sends [RequestEvent.release (F := F) i] = 0 := rfl
          simp only [ih, hNone, FailsPending, and_true, add_zero]

/-- The run has done nothing undefined. -/
def RunDefined (m : Links RequestRef) (events : List (RequestEvent n F)) : Prop :=
  (run (requestStep n) (RequestTables.init n m) events).1.undefined = false

instance (m : Links RequestRef) (events : List (RequestEvent n F)) :
    Decidable (RunDefined m events) :=
  inferInstanceAs (Decidable (_ = false))

/-- In every defined run of the threads, each linked list is a ring through exactly
the pending requests of its processor, oldest first, whatever the memory held before;
these are all that is allocated, the client sees what it would see from plain lists,
and `dci_transaction_id` has counted the requests. -/
theorem requestTables_refine (m : Links RequestRef) (events : List (RequestEvent n F))
    (hDefined : RunDefined m events) :
    (∀ i, IsRing (run (requestStep n) (RequestTables.init n m) events).1.links
        (reqTblHead n i) (nodes (pendingAfter events).pending i)) ∧
      (∀ addr, addr ∈ (run (requestStep n) (RequestTables.init n m) events).1.live ↔
        (pendingAfter events).Has addr) ∧
      (run (requestStep n) (RequestTables.init n m) events).2 =
        (run pendingStep (PendingRequests.init : PendingRequests F n) events).2 ∧
      (run (requestStep n) (RequestTables.init n m) events).1.dciTransactionId =
        sends events ∧ sends events < 2 ^ 31 := by
  obtain ⟨hRefines, hOutputs⟩ := refines_run m events
  have hPending : (pendingAfter events).undefined = false :=
    hRefines.undefined.symm.trans hDefined
  exact ⟨hRefines.rings.ring, hRefines.live, hOutputs,
    hRefines.transactionId.trans (pendingAfter_transactionId events),
    ((pendingAfter_undefined_iff events).mp hPending).1⟩

/-- A request and its response. -/
def requestAndResponse : List (RequestEvent 1 Unit) :=
  [.send 0 ⟨some (), 8, 4, 9⟩ true (some 1), .response 0 ⟨8, 1, 1, fun _ => 5⟩]

theorem requestTables_refine_one :
    (run (requestStep 1) (RequestTables.init 1 ⟨id, id⟩) requestAndResponse).2 =
      [.copied 8 [5, 5, 5, 5], .called () 8 4 9] :=
  (requestTables_refine ⟨id, id⟩ requestAndResponse (by decide)).2.2.1.trans (by decide)

/-! ## Which request a response belongs to -/

/-- The event makes the request pending. -/
def Opens (i : Fin n) (r : Request F) (p : PendingRequests F n) :
    RequestEvent n F → Prop
  | .send j target infoAllocated newReq =>
      j = i ∧ infoAllocated = true ∧ newReq = some r.addr ∧ ¬ p.Has r.addr ∧
        r.info = target.toInfo (p.transactionId + 1)
  | _ => False

/-- The event ends a request with this address and transaction id: its `write`
failed, its last response came, or the client was released. -/
def Closes (i : Fin n) (addr : Nat) (uid : Int) : RequestEvent n F → Prop
  | .send _ _ _ _ => False
  | .sendFailed newReq uid' => newReq = addr ∧ uid' = uid
  | .response proc rsp =>
      procIndex n proc = some i ∧ rsp.uid = uid ∧ rsp.deleteFlag ≠ 0
  | .release j => j = i

/-- Pending requests differ in their addresses and in their transaction ids,
which have all been used. -/
structure PendingDistinct (p : PendingRequests F n) : Prop where
  addr : ∀ i j, ∀ r ∈ p.pending i, ∀ r' ∈ p.pending j,
    r.addr = r'.addr → i = j ∧ r = r'
  uid : ∀ i j, ∀ r ∈ p.pending i, ∀ r' ∈ p.pending j,
    r.info.uid = r'.info.uid → i = j ∧ r = r'
  used : ∀ i, ∀ r ∈ p.pending i, r.info.uid ≤ p.transactionId

theorem mem_update_iff {pending : Fin n → List (Request F)} {i j : Fin n}
    {rs : List (Request F)} {r : Request F} :
    r ∈ Function.update pending i rs j ↔
      (j = i ∧ r ∈ rs) ∨ (j ≠ i ∧ r ∈ pending j) := by
  by_cases hj : j = i
  · subst hj
    simp
  · simp [hj]

/-- Step lemma: what a step adds is opened by it, and what it takes away is
closed by it. -/
theorem mem_pendingStep_iff {p : PendingRequests F n} (h : PendingDistinct p)
    (e : RequestEvent n F) (i : Fin n) (r : Request F) :
    r ∈ (pendingStep p e).1.pending i ↔
      Opens i r p e ∨ r ∈ p.pending i ∧ ¬ Closes i r.addr r.info.uid e := by
  cases e with
  | send j target infoAllocated newReq =>
      simp only [pendingStep, Opens, Closes, not_false_eq_true, and_true]
      cases newReq with
      | none => simp
      | some addr =>
          simp only [Option.some.injEq]
          split
          · rename_i hNot
            have hClosed : ¬ (j = i ∧ infoAllocated = true ∧ addr = r.addr ∧
                ¬ p.Has r.addr ∧ r.info = target.toInfo (p.transactionId + 1)) := by
              rintro ⟨-, hAllocated, rfl, hFresh, -⟩
              rcases hNot with hNot | hNot
              · rw [hNot] at hAllocated
                exact Bool.false_ne_true hAllocated
              · exact hFresh hNot
            simp [hClosed]
          · rename_i hBoth
            rw [not_or, Bool.not_eq_false] at hBoth
            rw [mem_update_iff, List.mem_append, List.mem_singleton]
            constructor
            · rintro (⟨rfl, hOld | rfl⟩ | ⟨-, hOld⟩)
              · exact Or.inr hOld
              · exact Or.inl ⟨rfl, hBoth.1, rfl, hBoth.2, rfl⟩
              · exact Or.inr hOld
            · rintro (⟨rfl, -, rfl, -, hInfo⟩ | hOld)
              · exact Or.inl ⟨rfl, Or.inr (by cases r; simp_all)⟩
              · by_cases hi : i = j
                · exact Or.inl ⟨hi, Or.inl (hi ▸ hOld)⟩
                · exact Or.inr ⟨hi, hOld⟩
  | sendFailed newReq uid =>
      simp only [pendingStep, Opens, Closes, false_or]
      split
      · rename_i hHas
        obtain ⟨j, r₀, hr₀, hAddr₀, hUid₀⟩ := hHas
        simp only [withoutAddr, List.mem_filter, bne_iff_ne]
        refine and_congr_right fun hMem => not_congr ?_
        refine ⟨fun hAddr => ⟨hAddr.symm, ?_⟩, fun hClose => hClose.1.symm⟩
        -- The address belongs to one request only, that of the call.
        rw [(h.addr i j r hMem r₀ hr₀ (hAddr.trans hAddr₀.symm)).2, hUid₀]
      · rename_i hNot
        refine ⟨fun hMem => ⟨hMem, ?_⟩, fun hMem => hMem.1⟩
        rintro ⟨rfl, rfl⟩
        exact hNot ⟨i, r, hMem, rfl, rfl⟩
  | response proc rsp =>
      simp only [pendingStep, Opens, Closes, false_or]
      cases hIndex : procIndex n proc with
      | none => simp
      | some j =>
          simp only
          cases hFound : (p.pending j).find? (·.info.uid == rsp.uid) with
          | none =>
              refine ⟨fun hMem => ⟨hMem, ?_⟩, fun hMem => hMem.1⟩
              rintro ⟨hEq, hUid, -⟩
              obtain rfl := Option.some.inj hEq
              simpa [hUid] using List.find?_eq_none.mp hFound r hMem
          | some r₀ =>
              have hr₀ : r₀ ∈ p.pending j := List.mem_of_find?_eq_some hFound
              have hUid₀ : r₀.info.uid = rsp.uid := by simpa using List.find?_some hFound
              by_cases hFlag : rsp.deleteFlag = 0
              · simp [hFlag]
              · simp only [ne_eq, hFlag, not_false_eq_true, if_true, and_true,
                  Option.some.injEq]
                rw [mem_update_iff, withoutAddr, List.mem_filter, bne_iff_ne]
                constructor
                · rintro (⟨rfl, hMem, hNe⟩ | ⟨hNe, hMem⟩)
                  · refine ⟨hMem, fun hClose => hNe ?_⟩
                    rw [(h.uid _ _ r hMem r₀ hr₀ (hClose.2.symm.trans hUid₀.symm)).2]
                  · exact ⟨hMem, fun hClose => hNe hClose.1.symm⟩
                · rintro ⟨hMem, hOpen⟩
                  by_cases hi : i = j
                  · subst hi
                    refine Or.inl ⟨rfl, hMem, fun hAddr => hOpen ⟨rfl, ?_⟩⟩
                    rw [(h.addr _ _ r hMem r₀ hr₀ hAddr).2, hUid₀]
                  · exact Or.inr ⟨hi, hMem⟩
  | release j =>
      simp only [pendingStep, Opens, Closes, false_or]
      rw [mem_update_iff]
      constructor
      · rintro (⟨-, hMem⟩ | ⟨hNe, hMem⟩)
        · exact absurd hMem List.not_mem_nil
        · exact ⟨hMem, Ne.symm hNe⟩
      · rintro ⟨hMem, hNe⟩
        exact Or.inr ⟨Ne.symm hNe, hMem⟩

theorem pendingStep_distinct {p : PendingRequests F n} (h : PendingDistinct p)
    (e : RequestEvent n F) : PendingDistinct (pendingStep p e).1 := by
  have hMonotone : p.transactionId ≤ (pendingStep p e).1.transactionId := by
    rw [pendingStep_transactionId]
    cases e with
    | send j target infoAllocated newReq => exact Int.le.intro 1 rfl
    | sendFailed newReq uid => exact Int.le_refl _
    | response proc rsp => exact Int.le_refl _
    | release j => exact Int.le_refl _
  -- A request that is opened has a new transaction id, and a new address.
  have hNew (i : Fin n) (r : Request F) (hOpens : Opens i r p e) :
      r.info.uid = p.transactionId + 1 ∧ ¬ p.Has r.addr ∧
        (pendingStep p e).1.transactionId = p.transactionId + 1 := by
    rw [pendingStep_transactionId]
    cases e with
    | send j target infoAllocated newReq =>
        obtain ⟨-, -, -, hFresh, hInfo⟩ := hOpens
        exact ⟨by rw [hInfo]; rfl, hFresh, rfl⟩
    | sendFailed newReq uid => exact hOpens.elim
    | response proc rsp => exact hOpens.elim
    | release j => exact hOpens.elim
  have hSame (i j : Fin n) (r r' : Request F) (hr : Opens i r p e)
      (hr' : Opens j r' p e) : i = j ∧ r = r' := by
    cases e with
    | send k target infoAllocated newReq =>
        obtain ⟨rfl, -, hAddr, -, hInfo⟩ := hr
        obtain ⟨rfl, -, hAddr', -, hInfo'⟩ := hr'
        refine ⟨rfl, ?_⟩
        cases r
        cases r'
        simp only [Request.mk.injEq]
        exact ⟨Option.some.inj (hAddr.symm.trans hAddr'), hInfo.trans hInfo'.symm⟩
    | sendFailed newReq uid => exact hr.elim
    | response proc rsp => exact hr.elim
    | release j => exact hr.elim
  refine ⟨?_, ?_, ?_⟩
  · intro i j r hr r' hr' hAddr
    rcases (mem_pendingStep_iff h e i r).mp hr with hOpens | ⟨hOld, -⟩
    · rcases (mem_pendingStep_iff h e j r').mp hr' with hOpens' | ⟨hOld', -⟩
      · exact hSame i j r r' hOpens hOpens'
      · exact absurd ⟨j, r', hOld', hAddr.symm⟩ (hNew i r hOpens).2.1
    · rcases (mem_pendingStep_iff h e j r').mp hr' with hOpens' | ⟨hOld', -⟩
      · exact absurd ⟨i, r, hOld, hAddr⟩ (hNew j r' hOpens').2.1
      · exact h.addr i j r hOld r' hOld' hAddr
  · intro i j r hr r' hr' hUid
    rcases (mem_pendingStep_iff h e i r).mp hr with hOpens | ⟨hOld, -⟩
    · rcases (mem_pendingStep_iff h e j r').mp hr' with hOpens' | ⟨hOld', -⟩
      · exact hSame i j r r' hOpens hOpens'
      · have hUsed := h.used j r' hOld'
        rw [← hUid, (hNew i r hOpens).1] at hUsed
        omega
    · rcases (mem_pendingStep_iff h e j r').mp hr' with hOpens' | ⟨hOld', -⟩
      · have hUsed := h.used i r hOld
        rw [hUid, (hNew j r' hOpens').1] at hUsed
        omega
      · exact h.uid i j r hOld r' hOld' hUid
  · intro i r hr
    rcases (mem_pendingStep_iff h e i r).mp hr with hOpens | ⟨hOld, -⟩
    · obtain ⟨hUid, -, hNext⟩ := hNew i r hOpens
      rw [hUid, hNext]
    · exact (h.used i r hOld).trans hMonotone

theorem pendingDistinct_init : PendingDistinct (PendingRequests.init : PendingRequests F n) := by
  constructor <;> simp [PendingRequests.init]

/-- Run lemma: pending is what was opened and has not been closed since. -/
theorem mem_pendingAfter_iff (events : List (RequestEvent n F)) (i : Fin n)
    (r : Request F) :
    r ∈ (pendingAfter events).pending i ↔
      ∃ past e later, events = past ++ e :: later ∧ Opens i r (pendingAfter past) e ∧
        ∀ y ∈ later, ¬ Closes i r.addr r.info.uid y :=
  run_since_iff pendingStep PendingDistinct (fun p => r ∈ p.pending i)
    (fun p e => Opens i r p e) (Closes i r.addr r.info.uid)
    (fun _ e h => ⟨pendingStep_distinct h e, mem_pendingStep_iff h e i r⟩)
    pendingDistinct_init (by simp [PendingRequests.init]) events

theorem pendingAfter_distinct (events : List (RequestEvent n F)) :
    PendingDistinct (pendingAfter events) :=
  run_invariant pendingStep PendingDistinct (fun _ e h => pendingStep_distinct h e)
    pendingDistinct_init events

/-- A request is open after a run: some call has registered it as the call with
this number, the allocator having given it memory that was not in use, and
nothing has closed it since. -/
def IsOpenAt (m : Links RequestRef) (events : List (RequestEvent n F)) (i : Fin n)
    (target : RspTarget F) (uid : Int) (addr : Nat) : Prop :=
  ∃ past later, events = past ++ .send i target true (some addr) :: later ∧
    addr ∉ (run (requestStep n) (RequestTables.init n m) past).1.live ∧
    uid = sends past + 1 ∧ ∀ e ∈ later, ¬ Closes i addr uid e

/-- The same, wherever the request is. -/
def IsOpen (m : Links RequestRef) (events : List (RequestEvent n F)) (i : Fin n)
    (target : RspTarget F) (uid : Int) : Prop :=
  ∃ addr, IsOpenAt m events i target uid addr

theorem isOpenAt_iff (m : Links RequestRef) (events : List (RequestEvent n F))
    (i : Fin n) (target : RspTarget F) (uid : Int) (addr : Nat) :
    IsOpenAt m events i target uid addr ↔
      ⟨addr, target.toInfo uid⟩ ∈ (pendingAfter events).pending i := by
  have hLive (past : List (RequestEvent n F)) (addr : Nat) :
      addr ∉ (run (requestStep n) (RequestTables.init n m) past).1.live ↔
        ¬ (pendingAfter past).Has addr :=
    not_congr ((refines_run m past).1.live addr)
  rw [mem_pendingAfter_iff]
  constructor
  · rintro ⟨past, later, rfl, hFresh, hUid, hStays⟩
    refine ⟨past, _, later, rfl, ⟨rfl, rfl, rfl, (hLive past addr).mp hFresh, ?_⟩, hStays⟩
    rw [pendingAfter_transactionId, hUid]
  · rintro ⟨past, e, later, rfl, hOpens, hStays⟩
    cases e with
    | send j target' infoAllocated newReq =>
        obtain ⟨rfl, rfl, rfl, hFresh, hInfo⟩ := hOpens
        simp only [RspTarget.toInfo, DiagPktTrackingInfo.mk.injEq] at hInfo
        obtain ⟨hUid, hFunc, hPtr, hLen, hData⟩ := hInfo
        obtain rfl : target = target' := by
          cases target
          cases target'
          simp_all
        refine ⟨past, later, rfl, (hLive past addr).mpr hFresh, ?_, hStays⟩
        rw [hUid, pendingAfter_transactionId]
    | sendFailed newReq uid => exact hOpens.elim
    | response proc rsp => exact hOpens.elim
    | release j => exact hOpens.elim

/-- The `info` of a request, from what the client passed. -/
theorem DiagPktTrackingInfo.exists_target (info : DiagPktTrackingInfo F) :
    ∃ target : RspTarget F, info = target.toInfo info.uid :=
  ⟨⟨info.funcPtr, info.rspPtr, info.rspLen, info.dataPtr⟩, rfl⟩

/-- After any run, the lists answer a response as the pending requests do. -/
theorem response_eq_pending (m : Links RequestRef) (events : List (RequestEvent n F))
    (proc : Int) (rsp : PktRsp) :
    (requestStep n (run (requestStep n) (RequestTables.init n m) events).1
        (.response proc rsp)).2 =
      (pendingStep (pendingAfter events) (.response proc rsp)).2 :=
  (requestStep_refines _ _ (.response proc rsp) (refines_run m events).1).2

theorem response_of_open {m : Links RequestRef} {events : List (RequestEvent n F)}
    {proc : Int} {rsp : PktRsp} {i : Fin n} {target : RspTarget F}
    (hIndex : procIndex n proc = some i) (hOpen : IsOpen m events i target rsp.uid) :
    (requestStep n (run (requestStep n) (RequestTables.init n m) events).1
      (.response proc rsp)).2 = deliver (target.toInfo rsp.uid) rsp := by
  obtain ⟨addr, hOpen⟩ := hOpen
  have hMem := (isOpenAt_iff m events i target rsp.uid addr).mp hOpen
  rw [response_eq_pending, pendingStep, hIndex]
  simp only
  cases hFound : ((pendingAfter events).pending i).find? (·.info.uid == rsp.uid) with
  | none =>
      -- The search cannot miss the request.
      exact absurd (List.find?_eq_none.mp hFound _ hMem) (by simp [RspTarget.toInfo])
  | some r =>
      have hUid : r.info.uid = rsp.uid := by simpa using List.find?_some hFound
      obtain ⟨-, hSame⟩ := (pendingAfter_distinct events).uid i i r
        (List.mem_of_find?_eq_some hFound) _ hMem (by simpa [RspTarget.toInfo] using hUid)
      rw [hSame]

theorem response_of_not_open {m : Links RequestRef} {events : List (RequestEvent n F)}
    {proc : Int} {rsp : PktRsp}
    (hNone : ∀ i target, procIndex n proc = some i → ¬ IsOpen m events i target rsp.uid) :
    (requestStep n (run (requestStep n) (RequestTables.init n m) events).1
      (.response proc rsp)).2 = [] := by
  rw [response_eq_pending, pendingStep]
  cases hIndex : procIndex n proc with
  | none => rfl
  | some i =>
      simp only
      cases hFound : ((pendingAfter events).pending i).find? (·.info.uid == rsp.uid) with
      | none => rfl
      | some r =>
          have hUid : r.info.uid = rsp.uid := by simpa using List.find?_some hFound
          obtain ⟨target, hInfo⟩ := r.info.exists_target
          refine absurd ⟨r.addr, ?_⟩ (hNone i target hIndex)
          rw [isOpenAt_iff, ← hUid, ← hInfo]
          exact List.mem_of_find?_eq_some hFound

/-- After any defined run, a response is given to the open request it names, and to
nobody if there is none: the client sees exactly the copy and the call of that
request. -/
theorem response_delivers (m : Links RequestRef) (events : List (RequestEvent n F))
    (_hDefined : RunDefined m events) (proc : Int) (rsp : PktRsp) :
    (∀ i target, procIndex n proc = some i → IsOpen m events i target rsp.uid →
        (requestStep n (run (requestStep n) (RequestTables.init n m) events).1
          (.response proc rsp)).2 = deliver (target.toInfo rsp.uid) rsp) ∧
      ((∀ i target, procIndex n proc = some i → ¬ IsOpen m events i target rsp.uid) →
        (requestStep n (run (requestStep n) (RequestTables.init n m) events).1
          (.response proc rsp)).2 = []) :=
  ⟨fun _ _ hIndex hOpen => response_of_open hIndex hOpen, response_of_not_open⟩

theorem response_delivers_one :
    (requestStep 1 (run (requestStep 1) (RequestTables.init 1 ⟨id, id⟩)
        (requestAndResponse.take 1)).1 (.response 0 ⟨8, 1, 1, fun _ => 5⟩)).2 =
      [.copied 8 [5, 5, 5, 5], .called () 8 4 9] :=
  ((response_delivers ⟨id, id⟩ (requestAndResponse.take 1) (by decide) 0
    ⟨8, 1, 1, fun _ => 5⟩).1 0 ⟨some (), 8, 4, 9⟩ (by decide)
      ⟨1, [], [], rfl, by decide, rfl, by simp⟩).trans (by decide)

/-- What a response can do to a client, given the request it names. -/
theorem mem_deliver {info : DiagPktTrackingInfo F} {rsp : PktRsp} {o : RspOutput F}
    (h : o ∈ deliver info rsp) :
    0 < intT (rsp.len - 4) ∧ intT (rsp.len - 4) ≤ info.rspLen ∧
      (o = .copied info.rspPtr
          ((List.range (intT (rsp.len - 4)).toNat).map rsp.data) ∨
        ∃ f, info.funcPtr = some f ∧
          o = .called f info.rspPtr (intT (rsp.len - 4)) info.dataPtr) := by
  simp only [deliver] at h
  split at h
  · rename_i hFits
    refine ⟨hFits.1, hFits.2, ?_⟩
    rcases List.mem_cons.mp h with rfl | hCall
    · exact Or.inl rfl
    · cases hFunc : info.funcPtr with
      | none => simp [hFunc] at hCall
      | some f =>
          rw [hFunc] at hCall
          exact Or.inr ⟨f, rfl, List.mem_singleton.mp hCall⟩
  · exact absurd h List.not_mem_nil

/-- An output keeps to what a request has named: its buffer with the room it
has, its callback and its data. -/
def RspOutput.Fits (target : RspTarget F) : RspOutput F → Prop
  | .copied rspPtr bytes =>
      rspPtr = target.rspPtr ∧ 0 < bytes.length ∧ (bytes.length : Int) ≤ target.rspLen
  | .called f rspPtr len dataPtr =>
      target.funcPtr = some f ∧ rspPtr = target.rspPtr ∧ dataPtr = target.dataPtr ∧
        0 < len ∧ len ≤ target.rspLen

/-- What a response brings about keeps to a request. -/
theorem output_fits (m : Links RequestRef) (events : List (RequestEvent n F))
    {o : RspOutput F} (h : o ∈ (run (requestStep n) (RequestTables.init n m) events).2) :
    ∃ i target newReq, .send i target true newReq ∈ events ∧ o.Fits target := by
  induction events using List.reverseRecOn with
  | nil => exact absurd h List.not_mem_nil
  | append_singleton events e ih =>
      rw [run_append, run_singleton, List.mem_append] at h
      rcases h with hBefore | hNow
      · obtain ⟨i, target, newReq, hMem, hSafe⟩ := ih hBefore
        exact ⟨i, target, newReq, List.mem_append_left _ hMem, hSafe⟩
      · cases e with
        | send i target infoAllocated newReq => exact absurd hNow List.not_mem_nil
        | sendFailed newReq uid => exact absurd hNow List.not_mem_nil
        | release i => exact absurd hNow List.not_mem_nil
        | response proc rsp =>
            by_cases hAny : ∃ i target, procIndex n proc = some i ∧
                IsOpen m events i target rsp.uid
            · obtain ⟨i, target, hIndex, hIs⟩ := hAny
              rw [response_of_open hIndex hIs] at hNow
              obtain ⟨addr, past, later, hSplit, -⟩ := hIs
              refine ⟨i, target, some addr, by simp [hSplit], ?_⟩
              obtain ⟨hPos, hFits, rfl | ⟨f, hFunc, rfl⟩⟩ := mem_deliver hNow
              · refine ⟨rfl, ?_, ?_⟩
                · simpa using hPos
                · rw [List.length_map, List.length_range, Int.toNat_of_nonneg hPos.le]
                  exact hFits
              · exact ⟨hFunc, rfl, rfl, hPos, hFits⟩
            · rw [response_of_not_open fun i target hIndex hIs =>
                hAny ⟨i, target, hIndex, hIs⟩] at hNow
              exact absurd hNow List.not_mem_nil

/-- The client is safe from its responses: whatever the read thread is given, as long
as the run is defined, bytes are copied only to a buffer that a request has named and
only as many as it has room for, and a callback is called only with such a buffer and
with its own data. -/
theorem client_safe (m : Links RequestRef) (events : List (RequestEvent n F))
    (_hDefined : RunDefined m events) (o : RspOutput F)
    (h : o ∈ (run (requestStep n) (RequestTables.init n m) events).2) :
    ∃ i target newReq, .send i target true newReq ∈ events ∧ o.Fits target :=
  output_fits m events h

theorem client_safe_one :
    ∃ i target newReq, .send i target true newReq ∈ requestAndResponse ∧
      (RspOutput.copied 8 [5, 5, 5, 5]).Fits target :=
  client_safe ⟨id, id⟩ requestAndResponse (by decide) (.copied 8 [5, 5, 5, 5]) (by decide)

/-- When the `write` of a call has failed, the request of this call is still open. -/
def FailsOpen (m : Links RequestRef) (past : List (RequestEvent n F)) :
    RequestEvent n F → Prop
  | .sendFailed newReq uid => ∃ i target, IsOpenAt m past i target uid newReq
  | _ => True

/-- The runs without undefined behaviour: there are fewer than `2 ^ 31` requests,
and when the `write` of a call fails, the request of this call is still open, not
just some request at its address.  Nothing else goes wrong: the loops end, and no
response or release touches memory that is not allocated. -/
theorem defined_iff (m : Links RequestRef) (events : List (RequestEvent n F)) :
    (run (requestStep n) (RequestTables.init n m) events).1.undefined = false ↔
      sends events < 2 ^ 31 ∧
        ∀ past e later, events = past ++ e :: later → FailsOpen m past e := by
  have hPending (past : List (RequestEvent n F)) (e : RequestEvent n F) :
      FailsPending (pendingAfter past) e ↔ FailsOpen m past e := by
    cases e with
    | sendFailed newReq uid =>
        simp only [FailsPending, FailsOpen, isOpenAt_iff]
        constructor
        · rintro ⟨i, r, hMem, rfl, rfl⟩
          obtain ⟨target, hInfo⟩ := r.info.exists_target
          exact ⟨i, target, hInfo ▸ hMem⟩
        · rintro ⟨i, target, hMem⟩
          exact ⟨i, _, hMem, rfl, rfl⟩
    | send i target infoAllocated newReq => exact Iff.rfl
    | response proc rsp => exact Iff.rfl
    | release i => exact Iff.rfl
  have hAbstract := pendingAfter_undefined_iff events
  simp only [hPending] at hAbstract
  rw [(refines_run m events).1.undefined]
  exact hAbstract

/-- The last response to a request comes, its memory goes to the next request, and then
the `write` of the first call fails: it would delete the wrong request. -/
example : ¬ RunDefined ⟨id, id⟩ (requestAndResponse ++
    [.send 0 ⟨none, 8, 4, 9⟩ true (some 1), .sendFailed 1 1]) := by
  decide

end Pending

end Dci
end MgComm
