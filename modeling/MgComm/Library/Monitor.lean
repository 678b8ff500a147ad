import MgComm.Library.StreamMachine

/-!
# Monitors over event traces

A monitor watches a trace of events: `next` is how an event changes what the
monitor knows, `Allowed` says which events it permits at that point.  A trace
is accepted when every event of it is permitted where it stands
(`accepts_iff_forall`).

`run_accepts_iff` is the rule for machines: if, from states that agree with
the monitor, a step emits a permitted trace exactly when it emits no bad event,
then so does a whole run.  `run_emitting_eq_iff` compares two machines over the
same states of which one emits less.
-/

namespace Monitor

universe u v w

open StreamMachine

variable {μ : Type u} {ε : Type v} (next : μ → ε → μ) (Allowed : μ → ε → Prop)

/-- Every event of the trace is permitted where it stands. -/
def Accepts : μ → List ε → Prop
  | _, [] => True
  | m, e :: es => Allowed m e ∧ Accepts (next m e) es

instance instDecidableAccepts [∀ m e, Decidable (Allowed m e)] (m : μ) (es : List ε) :
    Decidable (Accepts next Allowed m es) :=
  match es with
  | [] => isTrue trivial
  | e :: es =>
      have : Decidable (Accepts next Allowed (next m e) es) :=
        instDecidableAccepts (next m e) es
      inferInstanceAs (Decidable (Allowed m e ∧ Accepts next Allowed (next m e) es))

@[simp] theorem accepts_nil (m : μ) : Accepts next Allowed m [] := trivial

@[simp] theorem accepts_cons (m : μ) (e : ε) (es : List ε) :
    Accepts next Allowed m (e :: es) ↔
      Allowed m e ∧ Accepts next Allowed (next m e) es := Iff.rfl

theorem accepts_append (m : μ) (es es' : List ε) :
    Accepts next Allowed m (es ++ es') ↔
      Accepts next Allowed m es ∧
        Accepts next Allowed (es.foldl next m) es' := by
  induction es generalizing m with
  | nil => simp
  | cons e es ih => simp [ih, and_assoc]

/-- What is permitted may be relaxed. -/
theorem Accepts.imp {Allowed' : μ → ε → Prop} (h : ∀ m e, Allowed m e → Allowed' m e)
    {m : μ} {es : List ε} (hAccepts : Accepts next Allowed m es) :
    Accepts next Allowed' m es := by
  induction es generalizing m with
  | nil => trivial
  | cons e es ih => exact ⟨h m e hAccepts.1, ih hAccepts.2⟩

/-- Acceptance, read off the prefixes of the trace. -/
theorem accepts_iff_forall (m : μ) (es : List ε) :
    Accepts next Allowed m es ↔
      ∀ past e future, es = past ++ e :: future →
        Allowed (past.foldl next m) e := by
  induction es generalizing m with
  | nil => simp
  | cons e es ih =>
      rw [accepts_cons, ih]
      constructor
      · rintro ⟨hHead, hTail⟩ past e' future hSplit
        cases past with
        | nil =>
            obtain ⟨rfl, -⟩ := List.cons.inj hSplit
            exact hHead
        | cons p past =>
            obtain ⟨rfl, hRest⟩ := List.cons.inj hSplit
            exact hTail past e' future hRest
      · intro hAll
        refine ⟨hAll [] e es rfl, fun past e' future hSplit => ?_⟩
        exact hAll (e :: past) e' future (by rw [hSplit]; rfl)

/-- Rule for machines.  `R` relates the state of the machine to what the
monitor knows; it has to survive only steps that emit good events. -/
theorem run_accepts_iff {σ : Type u} {α : Type w} {step : σ → α → σ × List ε}
    {R : σ → μ → Prop} {Good : ε → Prop}
    (hstep : ∀ s m x, R s m →
      (Accepts next Allowed m (step s x).2 ↔ ∀ e ∈ (step s x).2, Good e) ∧
        ((∀ e ∈ (step s x).2, Good e) →
          R (step s x).1 ((step s x).2.foldl next m)))
    {s : σ} {m : μ} (hR : R s m) (xs : List α) :
    Accepts next Allowed m (run step s xs).2 ↔
      ∀ e ∈ (run step s xs).2, Good e := by
  induction xs generalizing s m with
  | nil => simp
  | cons x xs ih =>
      obtain ⟨hIff, hNext⟩ := hstep s m x hR
      rw [run_cons, accepts_append, List.forall_mem_append, hIff]
      constructor
      · rintro ⟨hGood, hRest⟩
        exact ⟨hGood, (ih (hNext hGood)).mp hRest⟩
      · rintro ⟨hGood, hRest⟩
        exact ⟨hGood, (ih (hNext hGood)).mpr hRest⟩

/-- A property of all outputs of a run, as a condition on its inputs where they
stand. -/
theorem forall_mem_run_iff {σ : Type u} {α : Type w} (step : σ → α → σ × List ε)
    (Q : ε → Prop) (s : σ) (xs : List α) :
    (∀ e ∈ (run step s xs).2, Q e) ↔
      Accepts (fun s x => (step s x).1) (fun s x => ∀ e ∈ (step s x).2, Q e) s xs := by
  induction xs generalizing s with
  | nil => simp
  | cons x xs ih => rw [run_cons, List.forall_mem_append, accepts_cons, ih]

/-! ## Machines that differ in what they emit -/

section Comparison

variable {σ : Type u} {α : Type w} {β : Type v} (advance : σ → α → σ)
variable (emit emit' : σ → α → List β)

/-- The machine that goes through the states of `advance` and emits what `emit`
says. -/
def emitting (emit : σ → α → List β) (s : σ) (x : α) : σ × List β :=
  (advance s x, emit s x)

/-- If one machine always emits a sublist of what the other emits, so does it
over whole runs. -/
theorem run_emitting_sublist (hSub : ∀ s x, (emit' s x).Sublist (emit s x))
    (s : σ) (xs : List α) :
    (run (emitting advance emit') s xs).2.Sublist
      (run (emitting advance emit) s xs).2 := by
  induction xs generalizing s with
  | nil => exact List.Sublist.refl []
  | cons x xs ih =>
      rw [run_cons, run_cons]
      exact (hSub s x).append (ih (advance s x))

/-- Then the runs are the same exactly if no step tells the machines
apart. -/
theorem run_emitting_eq_iff (hSub : ∀ s x, (emit' s x).Sublist (emit s x))
    (s : σ) (xs : List α) :
    (run (emitting advance emit) s xs).2 = (run (emitting advance emit') s xs).2 ↔
      Accepts advance (fun s x => emit s x = emit' s x) s xs := by
  induction xs generalizing s with
  | nil => simp
  | cons x xs ih =>
      have hHead := hSub s x
      have hTail := run_emitting_sublist advance emit emit' hSub (advance s x) xs
      rw [accepts_cons, ← ih]
      change emit s x ++ (run (emitting advance emit) (advance s x) xs).2 =
        emit' s x ++ (run (emitting advance emit') (advance s x) xs).2 ↔ _
      constructor
      · intro hEq
        -- A sublist of the same length is the whole list.
        have hLengths := congrArg List.length hEq
        rw [List.length_append, List.length_append] at hLengths
        have hHeads := hHead.length_le
        have hTails := hTail.length_le
        exact ⟨(hHead.eq_of_length (by omega)).symm,
          (hTail.eq_of_length (by omega)).symm⟩
      · rintro ⟨hHeads, hTails⟩
        rw [hHeads, hTails]

end Comparison

theorem accepts_and {Allowed' : μ → ε → Prop} {m : μ} {es : List ε}
    (h : Accepts next Allowed m es) (h' : Accepts next Allowed' m es) :
    Accepts next (fun m e => Allowed m e ∧ Allowed' m e) m es := by
  induction es generalizing m with
  | nil => trivial
  | cons e es ih => exact ⟨⟨h.1, h'.1⟩, ih h.2 h'.2⟩

/-- Acceptance by a weaker condition, from a state invariant. -/
theorem accepts_mono {P : μ → Prop} {Allowed' : μ → ε → Prop}
    (hStep : ∀ m e, P m → Allowed m e → Allowed' m e ∧ P (next m e))
    {m : μ} (hP : P m) {es : List ε} (h : Accepts next Allowed m es) :
    Accepts next Allowed' m es := by
  induction es generalizing m with
  | nil => trivial
  | cons e es ih =>
      obtain ⟨hHead, hNext⟩ := hStep m e hP h.1
      exact ⟨hHead, ih hNext h.2⟩

end Monitor
