import Mathlib.Data.List.Basic
import Mathlib.Data.List.Forall2
import Mathlib.Data.List.Infix

/-!
# Machines that turn a stream of inputs into a stream of outputs

A machine is given by its step function `step : σ → α → σ × List β`: one input
takes a state to the next one and emits finitely many outputs.  This module
runs such a machine over a list of inputs and collects what a client needs to
reason about whole runs:

* a run over a concatenation is the run over the parts (`run_append`);
* each input is answered in the state which the inputs before it lead to
  (`run_snd_eq_flatMap`);
* a machine whose steps are steps of another one simulates it over whole runs
  (`run_simulates`, `run_refines`);
* what one input opens and another closes holds since the last opening input
  (`run_since_iff`);
* a run is safe throughout exactly if every step of it is (`run_safe_iff`).

Nothing here refers to a particular program.
-/

namespace StreamMachine

universe u v w

variable {σ σ' : Type u} {α α' : Type v} {β : Type w}

/-- Feed a list of inputs to a machine, collecting its outputs in order. -/
def run (step : σ → α → σ × List β) : σ → List α → σ × List β
  | s, [] => (s, [])
  | s, x :: xs =>
      ((run step (step s x).1 xs).1, (step s x).2 ++ (run step (step s x).1 xs).2)

variable (step : σ → α → σ × List β)

@[simp] theorem run_nil (s : σ) : run step s [] = (s, []) := rfl

theorem run_cons (s : σ) (x : α) (xs : List α) :
    run step s (x :: xs) =
      ((run step (step s x).1 xs).1,
        (step s x).2 ++ (run step (step s x).1 xs).2) := rfl

@[simp] theorem run_singleton (s : σ) (x : α) : run step s [x] = step s x := by
  simp [run_cons]

/-- A run over a concatenation continues from the state the first part
leaves. -/
theorem run_append (s : σ) (xs ys : List α) :
    run step s (xs ++ ys) =
      ((run step (run step s xs).1 ys).1,
        (run step s xs).2 ++ (run step (run step s xs).1 ys).2) := by
  induction xs generalizing s with
  | nil => simp
  | cons x xs ih =>
      rw [List.cons_append, run_cons, ih, run_cons]
      simp only [List.append_assoc]

/-- Invariant rule: what a step preserves, a run preserves. -/
theorem run_invariant (I : σ → Prop) (hStep : ∀ s x, I s → I (step s x).1)
    {s : σ} (hI : I s) (xs : List α) : I (run step s xs).1 := by
  induction xs generalizing s with
  | nil => exact hI
  | cons x xs ih => exact ih (hStep s x hI)

/-- Invariant rule for inputs of a kind. -/
theorem run_invariant_of_mem (I : σ → Prop) (Q : α → Prop)
    (hStep : ∀ s x, Q x → I s → I (step s x).1) {s : σ} (hI : I s) (xs : List α)
    (hQ : ∀ x ∈ xs, Q x) : I (run step s xs).1 := by
  induction xs generalizing s with
  | nil => exact hI
  | cons x xs ih =>
      exact ih (hStep s x (hQ x List.mem_cons_self) hI)
        fun y hMem => hQ y (List.mem_cons_of_mem x hMem)

/-- Invariant rule for runs whose steps are good where they stand. -/
theorem run_invariant_of_split (I : σ → Prop) (Good : σ → α → Prop)
    (hGood : ∀ s x, I s → Good s x → I (step s x).1) {s : σ} (hI : I s) (xs : List α)
    (hAll : ∀ past x later, xs = past ++ x :: later → Good (run step s past).1 x) :
    I (run step s xs).1 := by
  induction xs generalizing s with
  | nil => exact hI
  | cons x xs ih =>
      refine ih (hGood s x hI (hAll [] x xs rfl)) fun past y later hSplit => ?_
      exact hAll (x :: past) y later (by rw [hSplit, List.cons_append])

/-- Crossing rule: if every step that leads into `P` from outside emits an output
with `Q`, so does every run that leads there. -/
theorem run_crossing (I P : σ → Prop) (Q : β → Prop)
    (hStep : ∀ s x, I s → I (step s x).1 ∧
      (¬ P s → P (step s x).1 → ∃ o ∈ (step s x).2, Q o))
    {s : σ} (hI : I s) (hBefore : ¬ P s) (xs : List α)
    (hAfter : P (run step s xs).1) : ∃ o ∈ (run step s xs).2, Q o := by
  induction xs generalizing s with
  | nil => exact absurd hAfter hBefore
  | cons x xs ih =>
      obtain ⟨hNext, hCross⟩ := hStep s x hI
      rw [run_cons] at hAfter ⊢
      by_cases hIn : P (step s x).1
      · obtain ⟨o, hMem, hQ⟩ := hCross hBefore hIn
        exact ⟨o, List.mem_append_left _ hMem, hQ⟩
      · obtain ⟨o, hMem, hQ⟩ := ih hNext hIn hAfter
        exact ⟨o, List.mem_append_right _ hMem, hQ⟩

/-- The elements of a list, each with the elements before it. -/
def histories (xs : List α) : List (List α × α) := xs.inits.zip xs

@[simp] theorem histories_nil : histories ([] : List α) = [] := rfl

theorem histories_cons (x : α) (xs : List α) :
    histories (x :: xs) =
      ([], x) :: (histories xs).map fun h => (x :: h.1, h.2) := by
  unfold histories
  rw [List.inits_cons, List.zip_cons_cons, List.zip_map_left]
  rfl

theorem histories_concat (xs : List α) (x : α) :
    histories (xs ++ [x]) = histories xs ++ [(xs, x)] := by
  induction xs with
  | nil => rfl
  | cons y ys ih =>
      rw [List.cons_append, histories_cons, ih, histories_cons]
      simp

/-- What holds of every element of a list with what is before it. -/
theorem forall_split_concat (Q : List α → α → Prop) (xs : List α) (x : α) :
    (∀ past y later, xs ++ [x] = past ++ y :: later → Q past y) ↔
      (∀ past y later, xs = past ++ y :: later → Q past y) ∧ Q xs x := by
  constructor
  · intro hAll
    refine ⟨fun past y later hSplit => ?_, hAll xs x [] rfl⟩
    exact hAll past y (later ++ [x]) (by rw [hSplit]; simp)
  · rintro ⟨hOld, hNew⟩ past y later hSplit
    rcases List.eq_nil_or_concat' later with rfl | ⟨later, z, rfl⟩
    · obtain ⟨rfl, hLast⟩ := List.append_inj' hSplit rfl
      rwa [← List.singleton_inj.mp hLast]
    · rw [← List.cons_append, ← List.append_assoc] at hSplit
      exact hOld past y later (List.append_inj' hSplit rfl).1

/-- The outputs of a run, input by input: each input is answered in the state
which the inputs before it lead to. -/
theorem run_snd_eq_flatMap (s : σ) (xs : List α) :
    (run step s xs).2 =
      (histories xs).flatMap fun h => (step (run step s h.1).1 h.2).2 := by
  induction xs generalizing s with
  | nil => rfl
  | cons x xs ih =>
      rw [run_cons, ih, histories_cons, List.flatMap_cons, List.flatMap_map]
      rfl

/-- Simulation rule: if a step is, along `abs` and on the inputs `input`, a step
of another machine with the same outputs, then so is a run.  The states may
have to satisfy an invariant. -/
theorem run_simulates (step' : σ' → α' → σ' × List β)
    (abs : σ → σ') (input : α → α') (I : σ → Prop)
    (hStep : ∀ s x, I s → I (step s x).1 ∧
      step' (abs s) (input x) = (abs (step s x).1, (step s x).2))
    {s : σ} (hI : I s) (xs : List α) :
    run step' (abs s) (xs.map input) = (abs (run step s xs).1, (run step s xs).2) := by
  induction xs generalizing s with
  | nil => rfl
  | cons x xs ih =>
      obtain ⟨hNext, hEq⟩ := hStep s x hI
      rw [List.map_cons, run_cons, hEq, ih hNext, run_cons]

/-- Refinement rule: if related states take every input to related states with
related outputs, then whole runs do. -/
theorem run_refines_outputs {γ : Type*} (step' : σ' → α → σ' × List γ) (R : σ → σ' → Prop)
    (Q : β → γ → Prop)
    (hStep : ∀ s t x, R s t →
      R (step s x).1 (step' t x).1 ∧ List.Forall₂ Q (step s x).2 (step' t x).2)
    {s : σ} {t : σ'} (hR : R s t) (xs : List α) :
    R (run step s xs).1 (run step' t xs).1 ∧
      List.Forall₂ Q (run step s xs).2 (run step' t xs).2 := by
  induction xs generalizing s t with
  | nil => exact ⟨hR, List.Forall₂.nil⟩
  | cons x xs ih =>
      obtain ⟨hNext, hHead⟩ := hStep s t x hR
      obtain ⟨hLast, hTail⟩ := ih hNext
      exact ⟨hLast, List.rel_append hHead hTail⟩

/-- The same where the outputs are equal. -/
theorem run_refines (step' : σ' → α → σ' × List β) (R : σ → σ' → Prop)
    (hStep : ∀ s t x, R s t →
      R (step s x).1 (step' t x).1 ∧ (step s x).2 = (step' t x).2)
    {s : σ} {t : σ'} (hR : R s t) (xs : List α) :
    R (run step s xs).1 (run step' t xs).1 ∧ (run step s xs).2 = (run step' t xs).2 := by
  have hRun := run_refines_outputs step step' R (· = ·)
    (fun s t x h => (hStep s t x h).imp_right fun hEq => by rw [List.forall₂_eq_eq_eq, hEq])
    hR xs
  rwa [List.forall₂_eq_eq_eq] at hRun

/-- Outputs can be translated one by one. -/
theorem run_map {γ : Type w} (g : β → γ) (s : σ) (xs : List α) :
    run (fun s x => ((step s x).1, (step s x).2.map g)) s xs =
      ((run step s xs).1, (run step s xs).2.map g) := by
  induction xs generalizing s with
  | nil => rfl
  | cons x xs ih => rw [run_cons, ih, run_cons, List.map_append]

/-- Since rule: if `P` is what an opening input brings about and what then stays
until a closing one, it holds after a run exactly if the run has an opening
input with no closing one after it. -/
theorem run_since_iff (I P : σ → Prop) (Opens : σ → α → Prop) (Closes : α → Prop)
    (hStep : ∀ s x, I s → I (step s x).1 ∧
      (P (step s x).1 ↔ Opens s x ∨ P s ∧ ¬ Closes x))
    {s : σ} (hI : I s) (hStart : ¬ P s) (xs : List α) :
    P (run step s xs).1 ↔ ∃ past x later, xs = past ++ x :: later ∧
      Opens (run step s past).1 x ∧ ∀ y ∈ later, ¬ Closes y := by
  induction xs using List.reverseRecOn with
  | nil => simp [hStart]
  | append_singleton xs z ih =>
      have hBefore : I (run step s xs).1 :=
        run_invariant step I (fun s x h => (hStep s x h).1) hI xs
      rw [run_append, run_singleton, (hStep _ z hBefore).2, ih]
      constructor
      · rintro (hOpens | ⟨⟨past, x, later, rfl, hOpens, hStays⟩, hOpen⟩)
        · exact ⟨xs, z, [], rfl, hOpens, by simp⟩
        · refine ⟨past, x, later ++ [z], by simp, hOpens, fun y hMem => ?_⟩
          rcases List.mem_append.mp hMem with hMem | hMem
          · exact hStays y hMem
          · rw [List.mem_singleton.mp hMem]
            exact hOpen
      · rintro ⟨past, x, later, hSplit, hOpens, hStays⟩
        rcases List.eq_nil_or_concat' later with rfl | ⟨later, w, rfl⟩
        · obtain ⟨rfl, hLast⟩ := List.append_inj' hSplit rfl
          rw [List.singleton_inj.mp hLast]
          exact Or.inl hOpens
        · rw [← List.cons_append, ← List.append_assoc] at hSplit
          obtain ⟨rfl, hLast⟩ := List.append_inj' hSplit rfl
          obtain rfl := List.singleton_inj.mp hLast
          exact Or.inr ⟨⟨past, x, later, rfl, hOpens,
            fun y hMem => hStays y (List.mem_append_left _ hMem)⟩,
            hStays z (by simp)⟩

/-- Safety rule: if a good step keeps the invariant and any other leads into an
unsafe state at once, a run is safe throughout exactly if all its steps are
good. -/
theorem run_safe_iff (I Safe : σ → Prop) (Good : σ → α → Prop)
    (hSafe : ∀ s, I s → Safe s)
    (hGood : ∀ s x, I s → Good s x → I (step s x).1)
    (hBad : ∀ s x, I s → ¬ Good s x → ¬ Safe (step s x).1)
    {s : σ} (hI : I s) (xs : List α) :
    (∀ past later, xs = past ++ later → Safe (run step s past).1) ↔
      ∀ past x later, xs = past ++ x :: later → Good (run step s past).1 x := by
  constructor
  · intro hAll
    -- The invariant holds as long as the steps are good, by induction on the past.
    have hPast : ∀ past later, xs = past ++ later → I (run step s past).1 := by
      intro past
      induction past using List.reverseRecOn with
      | nil => exact fun _ _ => hI
      | append_singleton past x ih =>
          intro later hSplit
          rw [List.append_assoc] at hSplit
          have hBefore := ih _ hSplit
          have hAfter := hAll (past ++ [x]) later (by rw [hSplit, List.append_assoc])
          rw [run_append, run_singleton] at hAfter ⊢
          exact hGood _ _ hBefore
            (Classical.byContradiction fun hNot => hBad _ _ hBefore hNot hAfter)
    intro past x later hSplit
    have hAfter := hAll (past ++ [x]) later (by rw [hSplit]; simp)
    rw [run_append, run_singleton] at hAfter
    exact Classical.byContradiction fun hNot =>
      hBad _ _ (hPast past _ hSplit) hNot hAfter
  · intro hAll past later hSplit
    exact hSafe _ (run_invariant_of_split step I Good hGood hI past
      fun before x after hEq => hAll before x (after ++ later) (by rw [hSplit, hEq]; simp))

end StreamMachine
