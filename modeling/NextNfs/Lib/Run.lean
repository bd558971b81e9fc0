import Mathlib.Data.Option.Basic

set_option relaxedAutoImplicit false
set_option autoImplicit false

/-!
# Runs

A system is given by a partial step function: `step s a` is the state after the action `a`,
or `none` if the system cannot take it (it has crashed). This module is about what holds in
all states of a run, and how that follows from what holds of its steps.

## Main definitions

* `Run.Holds` — a property holds in every state of a run.
* `Run.Meets` — every step of a run meets a condition on the state before it and the action.

## Main results

* `Run.holds_of_step` — an invariant of the steps holds in every state of a run.
* `Run.holds_of_meets` — an invariant of the steps that meet a condition holds in every state of
  a run whose steps all do.
* `Run.meets_of_meets` — what follows from an invariant and a condition, at every step.
* `Run.meets_congr` — conditions that agree on every step agree on every run.
* `Run.holds_iff_meets`, `Run.holds_iff_meets_of_invariant` — if a step keeps the property exactly
  when it meets the condition, so does a run.
-/

namespace Run

variable {σ α : Type} (step : σ → α → Option σ)

/-- `P` holds in every state of the run of the actions from `s`. -/
def Holds (P : σ → Prop) : σ → List α → Prop
  | s, [] => P s
  | s, a :: as => P s ∧ ∀ s', step s a = some s' → Holds P s' as

/-- Every step of the run of the actions from `s` meets `C`. -/
def Meets (C : σ → α → Prop) : σ → List α → Prop
  | _, [] => True
  | s, a :: as => ∀ s', step s a = some s' → C s a ∧ Meets C s' as

variable {step} {P : σ → Prop} {C : σ → α → Prop}

/-- A run whose first step meets the condition, and whose other steps do. -/
lemma meets_cons {s s' : σ} {a : α} {as : List α} (hstep : step s a = some s') (hC : C s a)
    (h : Meets step C s' as) : Meets step C s (a :: as) := by
  intro s'' hs''
  rw [hstep] at hs''
  cases hs''
  exact ⟨hC, h⟩

/-- A property that holds in all states of a run holds in the first. -/
lemma Holds.head {s : σ} {as : List α} (h : Holds step P s as) : P s := by
  cases as with
  | nil => exact h
  | cons a as => exact h.1

/-- A property that holds in all states of a run holds in the last. -/
lemma Holds.last {s s' : σ} {as : List α} (h : Holds step P s as)
    (hrun : as.foldlM step s = some s') : P s' := by
  induction as generalizing s with
  | nil =>
    cases hrun
    exact h
  | cons a as ih =>
    obtain ⟨s₁, hstep, hrest⟩ := Option.bind_eq_some_iff.1 hrun
    exact ih (h.2 s₁ hstep) hrest

/-- If all steps of a run meet a condition, the last one does. -/
lemma Meets.last {s s' s'' : σ} {as : List α} {a : α} (h : Meets step C s (as ++ [a]))
    (hrun : as.foldlM step s = some s') (hstep : step s' a = some s'') : C s' a := by
  induction as generalizing s with
  | nil =>
    cases hrun
    exact (h s'' hstep).1
  | cons b as ih =>
    obtain ⟨s₁, hstep₁, hrest⟩ := Option.bind_eq_some_iff.1 hrun
    exact ih (h s₁ hstep₁).2 hrest

/-- A property that holds in all states of a run may be weakened. -/
lemma Holds.mono {Q : σ → Prop} (hPQ : ∀ s, P s → Q s) {s : σ} {as : List α}
    (h : Holds step P s as) : Holds step Q s as := by
  induction as generalizing s with
  | nil => exact hPQ s h
  | cons a as ih => exact ⟨hPQ s h.1, fun s' hs' => ih (h.2 s' hs')⟩

/-- What every step that meets the condition keeps holds along a run whose steps all meet
it. -/
lemma holds_of_meets
    (hstep : ∀ s a s', P s → C s a → step s a = some s' → P s')
    {s : σ} (hs : P s) {as : List α} (h : Meets step C s as) : Holds step P s as := by
  induction as generalizing s with
  | nil => exact hs
  | cons a as ih =>
    refine ⟨hs, fun s' hs' => ?_⟩
    obtain ⟨hC, hrest⟩ := h s' hs'
    exact ih (hstep s a s' hs hC hs') hrest

/-- What every step keeps holds along every run. -/
lemma holds_of_step (hstep : ∀ s a s', P s → step s a = some s' → P s') {s : σ} (hs : P s)
    (as : List α) : Holds step P s as := by
  induction as generalizing s with
  | nil => exact hs
  | cons a as ih => exact ⟨hs, fun s' hs' => ih (hstep s a s' hs hs')⟩

/-- Along a run whose steps all meet a condition, they meet every other one that follows from it
with an invariant. -/
lemma meets_of_meets {D : σ → α → Prop}
    (hstep : ∀ s a s', P s → C s a → step s a = some s' → D s a ∧ P s')
    {s : σ} (hs : P s) {as : List α} (h : Meets step C s as) : Meets step D s as := by
  induction as generalizing s with
  | nil => trivial
  | cons a as ih =>
    intro s' hs'
    obtain ⟨hC, hrest⟩ := h s' hs'
    obtain ⟨hD, hP⟩ := hstep s a s' hs hC hs'
    exact ⟨hD, ih hP hrest⟩

/-- If a step keeps the property exactly when it meets the condition, the property holds along
a run exactly when its steps all meet the condition. -/
lemma holds_iff_meets
    (hstep : ∀ s a s', P s → step s a = some s' → (P s' ↔ C s a))
    {s : σ} (hs : P s) (as : List α) : Holds step P s as ↔ Meets step C s as := by
  constructor
  · intro h
    induction as generalizing s with
    | nil => trivial
    | cons a as ih =>
      intro s' hs'
      have hP' : P s' := (h.2 s' hs').head
      exact ⟨(hstep s a s' hs hs').1 hP', ih hP' (h.2 s' hs')⟩
  · exact holds_of_meets (fun s a s' hP hC hs' => (hstep s a s' hP hs').2 hC) hs

/-- The same, if an invariant of the steps that meet the condition is needed to see it. -/
lemma holds_iff_meets_of_invariant {I : σ → Prop}
    (hI : ∀ s a s', I s → C s a → step s a = some s' → I s')
    (hstep : ∀ s a s', I s → P s → step s a = some s' → (P s' ↔ C s a))
    {s : σ} (hi : I s) (hs : P s) (as : List α) : Holds step P s as ↔ Meets step C s as := by
  induction as generalizing s with
  | nil => exact iff_of_true hs trivial
  | cons a as ih =>
    constructor
    · intro h s' hs'
      have hP' : P s' := (h.2 s' hs').head
      have hC : C s a := (hstep s a s' hi hs hs').1 hP'
      exact ⟨hC, (ih (hI s a s' hi hC hs') hP').1 (h.2 s' hs')⟩
    · intro h
      refine ⟨hs, fun s' hs' => ?_⟩
      obtain ⟨hC, hrest⟩ := h s' hs'
      have hP' : P s' := (hstep s a s' hi hs hs').2 hC
      exact (ih (hI s a s' hi hC hs') hP').2 hrest

/-- The steps of a run meet a condition exactly when they meet one that amounts to the same for
the steps the system can take. -/
lemma meets_congr {D : σ → α → Prop} (hstep : ∀ s a s', step s a = some s' → (C s a ↔ D s a))
    (s : σ) (as : List α) : Meets step C s as ↔ Meets step D s as := by
  induction as generalizing s with
  | nil => exact Iff.rfl
  | cons a as ih =>
    refine forall_congr' fun s' => forall_congr' fun hs' => ?_
    rw [hstep s a s' hs', ih s']

end Run
