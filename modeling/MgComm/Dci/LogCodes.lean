import MgComm.Dci.DCIBase

/-!
# The active log codes mirror the device

A `LogDevice` is any device state with a set of enabled codes and a
configuration function that does what `_dci_configure_logs` is there for: a
call that returns 0 enables or disables exactly the listed codes, and any other
call leaves the enabled codes as they were.  Which calls fail is up to the
device.

`_log_codes` is changed only after the device call succeeded, and by the same
codes, so it equals the enabled codes after every configuration call
(`logCodes_eq_enabled`), also when `set_log_codes` fails between its two steps.
After calls that all returned 0 it is the set their caller asked for
(`afterCalls_logCodes`); a `set_log_codes` that fails leaves the previous set or
none at all (`setLogCodes_outcome`).
-/

namespace MgComm
namespace Dci

universe u v

/-- A device that can be told which log codes to emit. -/
structure LogDevice (δ : Type v) where
  configure : ConfigureLogs δ
  enabled : δ → Finset UInt16
  enable_success : ∀ codes d, (configure .enable codes d).1 = 0 →
    enabled (configure .enable codes d).2 = enabled d ∪ codes
  disable_success : ∀ codes d, (configure .disable codes d).1 = 0 →
    enabled (configure .disable codes d).2 = enabled d \ codes
  failure : ∀ action codes d, (configure action codes d).1 ≠ 0 →
    enabled (configure action codes d).2 = enabled d

section Mirror

variable {H : Type u} {δ : Type v} (device : LogDevice δ)

/-- `_log_codes` is the set of enabled codes, and nothing undefined has
happened. -/
def Mirrors (st : DCIBase H × δ) : Prop :=
  st.1.undefined = false ∧ st.1.logCodes = device.enabled st.2

theorem addLogCodes_mirrors (st : DCIBase H × δ) (logCodes : Finset UInt16)
    (h : Mirrors device st) :
    Mirrors device (addLogCodes device.configure st logCodes).2 := by
  rcases addLogCodes_cases device.configure st logCodes with
    ⟨-, hCall⟩ | ⟨-, hFailed, hCall⟩ | ⟨-, hDone, hCall⟩
  · rw [hCall]
    exact h
  · rw [hCall]
    exact ⟨h.1, h.2.trans (device.failure _ _ _ hFailed).symm⟩
  · rw [hCall]
    exact ⟨h.1, by rw [device.enable_success _ _ hDone, ← h.2]⟩

theorem resetLogCodes_mirrors (st : DCIBase H × δ) (h : Mirrors device st) :
    Mirrors device (resetLogCodes device.configure st).2 := by
  rcases resetLogCodes_cases device.configure st with
    ⟨-, hCall⟩ | ⟨-, hFailed, hCall⟩ | ⟨-, hDone, hCall⟩
  · rw [hCall]
    exact h
  · rw [hCall]
    exact ⟨h.1, h.2.trans (device.failure _ _ _ hFailed).symm⟩
  · rw [hCall]
    exact ⟨h.1, by rw [device.disable_success _ _ hDone, ← h.2]; simp⟩

/-- Every configuration call keeps the object and the device in step. -/
theorem configCall_mirrors {st : DCIBase H × δ} (h : Mirrors device st)
    (call : ConfigCall) :
    Mirrors device (configCall device.configure st call).2 :=
  configCall_invariant device.configure (Mirrors device)
    (addLogCodes_mirrors device) (resetLogCodes_mirrors device) h call

/-- The state after some configuration calls. -/
def afterCalls (configure : ConfigureLogs δ) (st : DCIBase H × δ)
    (calls : List ConfigCall) : DCIBase H × δ :=
  calls.foldl (fun st call => (configCall configure st call).2) st

theorem afterCalls_mirrors {st : DCIBase H × δ} (h : Mirrors device st)
    (calls : List ConfigCall) :
    Mirrors device (afterCalls device.configure st calls) := by
  induction calls generalizing st with
  | nil => exact h
  | cons call calls ih => exact ih (configCall_mirrors device h call)

/-- After any configuration calls, of which any may fail at any step,
`_log_codes` is the set of codes enabled on the device. -/
theorem logCodes_eq_enabled (d : δ) (hNone : device.enabled d = ∅)
    (calls : List ConfigCall) :
    (afterCalls device.configure (DCIBase.fresh H, d) calls).1.undefined =
        false ∧
      (afterCalls device.configure (DCIBase.fresh H, d) calls).1.logCodes =
        device.enabled
          (afterCalls device.configure (DCIBase.fresh H, d) calls).2 :=
  afterCalls_mirrors device ⟨rfl, hNone.symm⟩ calls

end Mirror

/-- A device whose calls succeed or fail by a script; past its end they
succeed. -/
def scriptedDevice : LogDevice (List Bool × Finset UInt16) where
  configure action codes d :=
    if d.1.headD true then
      (0, (d.1.tail,
        match action with
        | .enable => d.2 ∪ codes
        | .disable => d.2 \ codes))
    else (1, (d.1.tail, d.2))
  enabled d := d.2
  enable_success := by
    intro codes d hDone
    split at hDone <;> simp_all
  disable_success := by
    intro codes d hDone
    split at hDone <;> simp_all
  failure := by
    intro action codes d hFailed
    split at hFailed <;> simp_all

/-- The second step of `set_log_codes` fails: both sides agree all the same. -/
theorem logCodes_eq_enabled_interrupted :
    (afterCalls scriptedDevice.configure
        (DCIBase.fresh Unit, ([true, true, false], ∅))
        [.add {1, 2}, .set {2, 3}]).1.logCodes =
      scriptedDevice.enabled (afterCalls scriptedDevice.configure
        (DCIBase.fresh Unit, ([true, true, false], ∅))
        [.add {1, 2}, .set {2, 3}]).2 :=
  (logCodes_eq_enabled scriptedDevice ([true, true, false], ∅) rfl
    [.add {1, 2}, .set {2, 3}]).2

/-! ## Calls that return 0 -/

section Accepted

variable {H : Type u} {δ : Type v} (configure : ConfigureLogs δ)

/-- Every call of a list returns 0. -/
def ReturnsZero : DCIBase H × δ → List ConfigCall → Prop
  | _, [] => True
  | st, call :: calls =>
      (configCall configure st call).1 = 0 ∧
        ReturnsZero (configCall configure st call).2 calls

/-- The codes a caller expects to be active after a call that returned 0. -/
def requestedNext (active : Finset UInt16) : ConfigCall → Finset UInt16
  | .set logCodes => logCodes
  | .add logCodes => active ∪ logCodes
  | .reset => ∅

/-- The codes requested by a list of calls: the union of the sets added since
the latest `set_log_codes` or `reset_log_codes`, with the set of the former. -/
def requested (calls : List ConfigCall) : Finset UInt16 :=
  calls.foldl requestedNext ∅

theorem addLogCodes_accepted {st : DCIBase H × δ} {logCodes : Finset UInt16}
    (hZero : (addLogCodes configure st logCodes).1 = 0) :
    (addLogCodes configure st logCodes).2.1.logCodes =
      st.1.logCodes ∪ logCodes := by
  rcases addLogCodes_cases configure st logCodes with
    ⟨hEmpty, hCall⟩ | ⟨-, -, hCall⟩ | ⟨-, -, hCall⟩
  · rw [hCall, hEmpty, Finset.union_empty]
  · simp [hCall] at hZero
  · simp [hCall]

theorem resetLogCodes_accepted {st : DCIBase H × δ}
    (hZero : (resetLogCodes configure st).1 = 0) :
    (resetLogCodes configure st).2.1.logCodes = ∅ := by
  rcases resetLogCodes_cases configure st with
    ⟨hEmpty, hCall⟩ | ⟨-, -, hCall⟩ | ⟨-, -, hCall⟩
  · simp [hCall, hEmpty]
  · simp [hCall] at hZero
  · simp [hCall]

/-- A call that returns 0 has done what was requested. -/
theorem configCall_accepted {st : DCIBase H × δ} {call : ConfigCall}
    (hZero : (configCall configure st call).1 = 0) :
    (configCall configure st call).2.1.logCodes =
      requestedNext st.1.logCodes call := by
  cases call with
  | add logCodes => exact addLogCodes_accepted configure hZero
  | reset => exact resetLogCodes_accepted configure hZero
  | set logCodes =>
      change (setLogCodes configure st logCodes).1 = 0 at hZero
      change (setLogCodes configure st logCodes).2.1.logCodes = logCodes
      rcases setLogCodes_cases configure st logCodes with
        ⟨hFailed, hSet⟩ | ⟨hReset, hSet⟩
      · rw [hSet] at hZero
        exact absurd hZero hFailed
      · rw [hSet] at hZero ⊢
        rw [addLogCodes_accepted configure hZero,
          resetLogCodes_accepted configure hReset, Finset.empty_union]

/-- After calls that all returned 0, the requested codes are the active
ones. -/
theorem afterCalls_logCodes {st : DCIBase H × δ} {calls : List ConfigCall}
    (hZero : ReturnsZero configure st calls) :
    (afterCalls configure st calls).1.logCodes =
      calls.foldl requestedNext st.1.logCodes := by
  induction calls generalizing st with
  | nil => rfl
  | cons call calls ih =>
      obtain ⟨hCall, hCalls⟩ := hZero
      rw [List.foldl_cons, ← configCall_accepted configure hCall]
      exact ih hCalls

end Accepted

/-! ## `set_log_codes` that fails -/

section Outcome

variable {H : Type u} {δ : Type v} (configure : ConfigureLogs δ)

/-- The requested set is active, or the call has failed and nothing has
changed. -/
def AllOrNothing (st : DCIBase H × δ) (logCodes : Finset UInt16) : Prop :=
  ((setLogCodes configure st logCodes).1 = 0 ∧
      (setLogCodes configure st logCodes).2.1.logCodes = logCodes) ∨
    ((setLogCodes configure st logCodes).1 ≠ 0 ∧
      (setLogCodes configure st logCodes).2.1.logCodes = st.1.logCodes)

/-- `set_log_codes` returns 0 with the requested set active, or fails: with the
previous codes still active if the device refused to disable them, and with no
code active if it disabled them and refused to enable the new ones. -/
theorem setLogCodes_outcome (st : DCIBase H × δ) (logCodes : Finset UInt16) :
    ((setLogCodes configure st logCodes).1 = 0 ∧
        (setLogCodes configure st logCodes).2.1.logCodes = logCodes) ∨
      ((setLogCodes configure st logCodes).1 ≠ 0 ∧
        (configure .disable st.1.logCodes st.2).1 ≠ 0 ∧
        (setLogCodes configure st logCodes).2.1.logCodes = st.1.logCodes) ∨
      ((setLogCodes configure st logCodes).1 ≠ 0 ∧
        (resetLogCodes configure st).1 = 0 ∧
        (configure .enable logCodes (resetLogCodes configure st).2.2).1 ≠ 0 ∧
        (setLogCodes configure st logCodes).2.1.logCodes = ∅) := by
  rcases setLogCodes_cases configure st logCodes with
    ⟨hFailed, hSet⟩ | ⟨hReset, hSet⟩
  · -- The previous codes could not be disabled.
    rw [hSet]
    rcases resetLogCodes_cases configure st with
      ⟨-, hCall⟩ | ⟨-, hDevice, hCall⟩ | ⟨-, -, hCall⟩
    · simp [hCall] at hFailed
    · exact Or.inr (Or.inl ⟨hFailed, hDevice, by rw [hCall]⟩)
    · simp [hCall] at hFailed
  · have hEmpty := resetLogCodes_accepted configure hReset
    rw [hSet]
    rcases addLogCodes_cases configure (resetLogCodes configure st).2 logCodes
      with ⟨hNone, hCall⟩ | ⟨-, hDevice, hCall⟩ | ⟨-, -, hCall⟩
    · exact Or.inl ⟨by rw [hCall], by rw [hCall, hEmpty, hNone]⟩
    · exact Or.inr (Or.inr ⟨by simp [hCall], hReset, hDevice,
        by rw [hCall, hEmpty]⟩)
    · exact Or.inl ⟨by rw [hCall], by rw [hCall, hEmpty, Finset.empty_union]⟩

end Outcome

/-- The device disables code 1 and refuses to enable code 2: the call fails, and
code 1 is not active any more. -/
theorem setLogCodes_not_allOrNothing :
    ¬ AllOrNothing scriptedDevice.configure
      (({ logCodes := {1}, logHandlers := [], undefined := false } :
        DCIBase Unit), ([true, false], {1})) {2} := by
  unfold AllOrNothing
  decide

end Dci
end MgComm
