/-
  Cas.Lib.Runs — runs of a labelled transition system.

  A system is a partial step function `step : σ → α → Option σ`: `none`
  when the action is not enabled.  A run is a list of actions.  Three
  rules are enough for every safety proof over it:

    • `run_invariant`       — what one step preserves, a run preserves,
    • `steps_of_guarded`    — an invariant kept by the steps that meet a
                              guard holds at every state of a guarded run,
    • `StepsMeet.imp_of_guarded` — a guard and an invariant together give
                              a property of every step.
-/
import Mathlib.Data.List.Infix

namespace Cas.Lib

variable {σ α : Type*} (step : σ → α → Option σ)

/-- Execute a list of actions; `none` when one of them is not enabled. -/
def run : σ → List α → Option σ
  | s, [] => some s
  | s, a :: as => (step s a).bind fun s' => run s' as

/-- Every step of the run meets `C`, a condition on the state before the step and the action. -/
def StepsMeet (C : σ → α → Prop) : σ → List α → Prop
  | _, [] => True
  | s, a :: as => C s a ∧ ∀ s', step s a = some s' → StepsMeet C s' as

instance StepsMeet.decidable {C : σ → α → Prop} [∀ s a, Decidable (C s a)] :
    ∀ s as, Decidable (StepsMeet step C s as)
  | _, [] => isTrue trivial
  | s, a :: as =>
    match h : step s a with
    | none => decidable_of_iff (C s a)
        ⟨fun hC => ⟨hC, fun s' hs' => by rw [h] at hs'; cases hs'⟩, fun hC => hC.1⟩
    | some s' =>
      have := StepsMeet.decidable (C := C) s' as
      decidable_of_iff (C s a ∧ StepsMeet step C s' as)
        ⟨fun hC => ⟨hC.1, fun t ht => by rw [h] at ht; cases ht; exact hC.2⟩,
          fun hC => ⟨hC.1, hC.2 s' h⟩⟩

/-- `P` holds in every state the run passes through. -/
def AlwaysOn (P : σ → Prop) (s : σ) (as : List α) : Prop :=
  ∀ pre, pre <+: as → ∀ t, run step s pre = some t → P t

@[simp] theorem run_nil (s : σ) : run step s [] = some s := rfl

theorem run_cons (s : σ) (a : α) (as : List α) :
    run step s (a :: as) = (step s a).bind fun s' => run step s' as := rfl

theorem run_append (s : σ) (as bs : List α) :
    run step s (as ++ bs) = (run step s as).bind fun t => run step t bs := by
  induction as generalizing s with
  | nil => rfl
  | cons a as ih =>
    simp only [List.cons_append, run_cons]
    cases step s a with
    | none => rfl
    | some s' => exact ih s'

variable {step}

theorem AlwaysOn.start {P : σ → Prop} {s : σ} {as : List α} (h : AlwaysOn step P s as) : P s :=
  h [] List.nil_prefix s rfl

theorem alwaysOn_cons {P : σ → Prop} {s : σ} {a : α} {as : List α} :
    AlwaysOn step P s (a :: as) ↔ P s ∧ ∀ s', step s a = some s' → AlwaysOn step P s' as := by
  constructor
  · intro h
    refine ⟨h.start, fun s' hs pre hpre t ht => h (a :: pre) ?_ t ?_⟩
    · exact List.cons_prefix_cons.mpr ⟨rfl, hpre⟩
    · rw [run_cons, hs]
      exact ht
  · rintro ⟨hs, h⟩ pre hpre t ht
    cases pre with
    | nil => cases ht; exact hs
    | cons b pre =>
      obtain ⟨rfl, hpre'⟩ := List.cons_prefix_cons.mp hpre
      rw [run_cons] at ht
      obtain ⟨s', hs', ht⟩ := Option.bind_eq_some_iff.mp ht
      exact h s' hs' pre hpre' t ht

/-- What every step preserves holds at the end of every run. -/
theorem run_invariant {I : σ → Prop} (hstep : ∀ s a s', I s → step s a = some s' → I s')
    {s t : σ} {as : List α} (hs : I s) (h : run step s as = some t) : I t := by
  induction as generalizing s with
  | nil => cases h; exact hs
  | cons a as ih =>
    rw [run_cons] at h
    obtain ⟨s', hs', ht⟩ := Option.bind_eq_some_iff.mp h
    exact ih (hstep s a s' hs hs') ht

/-- What every step meeting the guard preserves holds all along a guarded run. -/
theorem steps_of_guarded {C : σ → α → Prop} {I : σ → Prop}
    (hstep : ∀ s a s', I s → C s a → step s a = some s' → I s')
    {s : σ} {as : List α} (hs : I s) (h : StepsMeet step C s as) : AlwaysOn step I s as := by
  induction as generalizing s with
  | nil =>
    intro pre hpre t ht
    rw [List.prefix_nil.mp hpre] at ht
    cases ht
    exact hs
  | cons a as ih =>
    exact alwaysOn_cons.mpr ⟨hs, fun s' hs' => ih (hstep s a s' hs h.1 hs') (h.2 s' hs')⟩

/-- With an invariant `I` of the guarded steps at hand, the guard gives a property of every step. -/
theorem StepsMeet.imp_of_guarded {C P : σ → α → Prop} {I : σ → Prop}
    (hstep : ∀ s a s', I s → C s a → step s a = some s' → I s')
    (hP : ∀ s a, I s → C s a → P s a)
    {s : σ} {as : List α} (hs : I s) (h : StepsMeet step C s as) : StepsMeet step P s as := by
  induction as generalizing s with
  | nil => trivial
  | cons a as ih =>
    exact ⟨hP s a hs h.1, fun s' hs' => ih (hstep s a s' hs h.1 hs') (h.2 s' hs')⟩

/-- When the steps meeting `G` keep `P` exactly if they meet `C`, a run of such steps keeps `P`
exactly if all its steps meet `C`. -/
theorem alwaysOn_iff_of_guarded {C G : σ → α → Prop} {I P : σ → Prop}
    (hoff : ∀ s a, I s → step s a = none → C s a)
    (hstep : ∀ s a s', I s → P s → G s a → step s a = some s' → (P s' ↔ C s a) ∧ (P s' → I s'))
    {s : σ} {as : List α} (hs : I s) (hP : P s) (hG : StepsMeet step G s as) :
    AlwaysOn step P s as ↔ StepsMeet step C s as := by
  induction as generalizing s with
  | nil =>
    refine ⟨fun _ => trivial, fun _ pre hpre t ht => ?_⟩
    rw [List.prefix_nil.mp hpre] at ht
    cases ht
    exact hP
  | cons a as ih =>
    rw [alwaysOn_cons]
    constructor
    · intro h
      cases hs' : step s a with
      | none =>
        refine ⟨hoff s a hs hs', fun t ht => ?_⟩
        rw [hs'] at ht
        cases ht
      | some s' =>
        have hP' : P s' := (h.2 s' hs').start
        obtain ⟨hiff, hI⟩ := hstep s a s' hs hP hG.1 hs'
        refine ⟨hiff.mp hP', fun t ht => ?_⟩
        obtain rfl : s' = t := Option.some.inj (hs'.symm.trans ht)
        exact (ih (hI hP') hP' (hG.2 s' hs')).mp (h.2 s' hs')
    · intro h
      refine ⟨hP, fun t ht => ?_⟩
      obtain ⟨hiff, hI⟩ := hstep s a t hs hP hG.1 ht
      have hP' : P t := hiff.mpr h.1
      exact (ih (hI hP') hP' (hG.2 t ht)).mpr (h.2 t ht)

theorem stepsMeet_true (s : σ) (as : List α) : StepsMeet step (fun _ _ => True) s as := by
  induction as generalizing s with
  | nil => trivial
  | cons a as ih => exact ⟨trivial, fun s' _ => ih s'⟩

/-- When a step keeps `P` exactly if it meets `C`, a run keeps `P` exactly if all its steps do. -/
theorem alwaysOn_iff_stepsMeet {C : σ → α → Prop} {I P : σ → Prop}
    (hI : ∀ s a s', I s → step s a = some s' → I s')
    (hen : ∀ s a, I s → ∃ s', step s a = some s')
    (hiff : ∀ s a s', I s → P s → step s a = some s' → (P s' ↔ C s a))
    {s : σ} {as : List α} (hs : I s) (hP : P s) :
    AlwaysOn step P s as ↔ StepsMeet step C s as := by
  refine alwaysOn_iff_of_guarded (G := fun _ _ => True) ?_ ?_ hs hP (stepsMeet_true s as)
  · intro s a hs hnone
    obtain ⟨s', hs'⟩ := hen s a hs
    rw [hnone] at hs'
    cases hs'
  · intro s a s' hs hP _ hs'
    exact ⟨hiff s a s' hs hP hs', fun _ => hI s a s' hs hs'⟩

end Cas.Lib
