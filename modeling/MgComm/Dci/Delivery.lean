import MgComm.Library.StreamMachine
import MgComm.Dci.DCIBase

/-!
# Delivery of log packets to the handlers

Configuration calls, registrations and incoming packets arrive in any order.
`DCIBase::_handle_log` serves every registration exactly: each packet whose
code is active on arrival goes once to each handler registered before it, in
the order of registration, and nothing else is delivered
(`deliveries_exact`).
-/

namespace MgComm
namespace Dci

universe u v

open StreamMachine

section Events

variable {H : Type u} {δ : Type v} (configure : ConfigureLogs δ)

/-- What happens to a DCI object. -/
inductive DciEvent (H : Type u) where
  | addLogHandler (c : H)
  | config (call : ConfigCall)
  | packet (p : Packet)

/-- The object handles one event; the outputs are the handler calls. -/
def dciStep (st : DCIBase H × δ) :
    DciEvent H → (DCIBase H × δ) × List (Invocation H)
  | .addLogHandler c => ((st.1.addLogHandler c, st.2), [])
  | .config call => ((configCall configure st call).2, [])
  | .packet p => (st, st.1.handleLog p)

/-- The handlers registered by some events, in order. -/
def registered (events : List (DciEvent H)) : List H :=
  events.filterMap fun e =>
    match e with
    | .addLogHandler c => some c
    | _ => none

/-- The active set after some events on a new object. -/
def activeAfter (d : δ) (events : List (DciEvent H)) : Finset UInt16 :=
  (run (dciStep configure) (DCIBase.fresh H, d) events).1.1.logCodes

/-- The calls an event causes after the events `past`: a packet whose code is
active goes to the handlers registered so far, in their order. -/
def expectedCalls (d : δ) (past : List (DciEvent H)) :
    DciEvent H → List (Invocation H)
  | .packet p =>
      if p.logCode ∈ activeAfter configure d past then
        (registered past).zipIdx.map fun c => ⟨c.2, c.1, p.ptr, p.len⟩
      else []
  | _ => []

/-- The call an event causes for the registration with number `k`. -/
def expectedCall (d : δ) (k : Nat) (past : List (DciEvent H)) :
    DciEvent H → Option (Invocation H)
  | .packet p =>
      if p.logCode ∈ activeAfter configure d past then
        (registered past)[k]?.map fun c => ⟨k, c, p.ptr, p.len⟩
      else none
  | _ => none

/-- An event adds its handler, if it brings one, to those of the object. -/
theorem dciStep_logHandlers (st : DCIBase H × δ) (e : DciEvent H) :
    (dciStep configure st e).1.1.logHandlers =
      st.1.logHandlers ++ registered [e] := by
  cases e with
  | addLogHandler c => rfl
  | packet p => simp [dciStep, registered]
  | config call =>
      simp [dciStep, registered, (configCall_frame configure st call).1]

theorem run_dciStep_logHandlers (st : DCIBase H × δ)
    (events : List (DciEvent H)) :
    (run (dciStep configure) st events).1.1.logHandlers =
      st.1.logHandlers ++ registered events := by
  induction events generalizing st with
  | nil => simp [registered]
  | cons e events ih =>
      have hSplit : registered (e :: events) =
          registered [e] ++ registered events := by
        simp only [registered, ← List.filterMap_append, List.singleton_append]
      rw [run_cons, ih, dciStep_logHandlers, hSplit, List.append_assoc]

/-- Step lemma: an event causes the calls expected after the events before
it. -/
theorem dciStep_calls (d : δ) (past : List (DciEvent H)) (e : DciEvent H) :
    (dciStep configure
      (run (dciStep configure) (DCIBase.fresh H, d) past).1 e).2 =
      expectedCalls configure d past e := by
  have hHandlers :=
    run_dciStep_logHandlers configure (DCIBase.fresh H, d) past
  cases e with
  | addLogHandler c => rfl
  | config call => rfl
  | packet p =>
      simp only [dciStep, DCIBase.handleLog, callHandlers, expectedCalls,
        activeAfter, hHandlers]
      rfl

/-- In a numbered list every number belongs to one entry. -/
theorem filter_zipIdx {α : Type u} (xs : List α) (i k : Nat) :
    (xs.zipIdx i).filter (fun c => c.2 == i + k) =
      (xs[k]?.map fun x => (x, i + k)).toList := by
  induction xs generalizing i k with
  | nil => simp
  | cons x xs ih =>
      rw [List.zipIdx_cons]
      cases k with
      | zero =>
          -- The numbers behind the first entry are larger.
          have hLater : (xs.zipIdx (i + 1)).filter (fun c => c.2 == i + 0) = [] := by
            rw [List.filter_eq_nil_iff]
            intro c hMem
            have := List.le_snd_of_mem_zipIdx hMem
            simp only [beq_iff_eq]
            omega
          rw [List.filter_cons_of_pos (by simp), hLater]
          simp
      | succ k =>
          have hShift : i + (k + 1) = i + 1 + k := by omega
          rw [List.filter_cons_of_neg (by simp), hShift, ih]
          simp

/-- Among the calls an event causes, each registration has its own one. -/
theorem filter_expectedCalls (d : δ) (k : Nat) (past : List (DciEvent H))
    (e : DciEvent H) :
    (expectedCalls configure d past e).filter (fun c => c.registration == k) =
      (expectedCall configure d k past e).toList := by
  cases e with
  | addLogHandler c => rfl
  | config call => rfl
  | packet p =>
      by_cases hActive : p.logCode ∈ activeAfter configure d past
      · have hOwn := filter_zipIdx (registered past) 0 k
        rw [Nat.zero_add] at hOwn
        simp only [expectedCalls, expectedCall, hActive, if_true, List.filter_map,
          Function.comp_def, hOwn]
        cases (registered past)[k]? <;> rfl
      · simp [expectedCalls, expectedCall, hActive]

/-- The handler calls of any run are those expected for its packets, one packet
after another; and the calls of one registration are those expected for it. -/
theorem deliveries_exact (d : δ) (events : List (DciEvent H)) :
    (run (dciStep configure) (DCIBase.fresh H, d) events).2 =
        ((histories events).flatMap fun h => expectedCalls configure d h.1 h.2) ∧
      ∀ k, (run (dciStep configure) (DCIBase.fresh H, d) events).2.filter
          (fun c => c.registration == k) =
        (histories events).filterMap fun h => expectedCall configure d k h.1 h.2 := by
  have hCalls : (run (dciStep configure) (DCIBase.fresh H, d) events).2 =
      (histories events).flatMap fun h => expectedCalls configure d h.1 h.2 := by
    rw [run_snd_eq_flatMap]
    simp only [dciStep_calls]
  refine ⟨hCalls, fun k => ?_⟩
  rw [hCalls, List.filter_flatMap, List.filterMap_eq_flatMap_toList]
  simp only [filter_expectedCalls]

end Events

end Dci
end MgComm
