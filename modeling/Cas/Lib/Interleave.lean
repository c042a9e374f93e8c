/-
  Cas.Lib.Interleave — tasks that share a state.

  A protocol says what one atomic step of a task does to the shared state
  and to the task itself.  A pool is the shared state together with any
  number of tasks, each started at some point; its runs are all the
  interleavings of their steps with each other and with steps of the
  outside world.

  `pool_invariant` is the rule of interference freedom: an invariant of
  the shared state and an assertion about each task hold all along a run
  when every step keeps the invariant, establishes the assertion of the
  task that takes it, and disturbs the assertion of no other task.
-/
import Mathlib.Logic.Relation
import Cas.Lib.FiniteMap
import Cas.Lib.Runs

namespace Cas.Lib

/-- Tasks `τ` over a shared state `σ`; `ι` is what a task is started with, `ε` what one of its
steps finds outside, `δ` a step of the outside world. -/
structure Protocol (σ τ ι ε δ : Type*) where
  start : ι → τ
  advance : ε → σ → τ → Option (σ × τ)
  outside : δ → σ → Option σ

/-- The shared state and the tasks started so far. -/
structure Pool (σ τ : Type*) where
  shared : σ
  tasks : FMap ℕ τ

inductive PoolAct (ι ε δ : Type*)
  | start (i : ℕ) (x : ι)
  | advance (i : ℕ) (e : ε)
  | outside (d : δ)

/-- The task that the act starts. -/
def PoolAct.started {ι ε δ : Type*} : PoolAct ι ε δ → Option ℕ
  | .start i _ => some i
  | _ => none

namespace Protocol

variable {σ τ ι ε δ : Type*} (P : Protocol σ τ ι ε δ)

/-- One step of the pool; `none` when the step is not enabled. -/
def step (p : Pool σ τ) : PoolAct ι ε δ → Option (Pool σ τ)
  | .start i x =>
    match p.tasks.lookup i with
    | some _ => none
    | none => some { p with tasks := p.tasks.insert i (P.start x) }
  | .advance i e =>
    (p.tasks.lookup i).bind fun t =>
      (P.advance e p.shared t).map fun r => ⟨r.1, p.tasks.insert i r.2⟩
  | .outside d => (P.outside d p.shared).map fun s => { p with shared := s }

/-- Everything that one step of the pool can be. -/
theorem step_cases {p p' : Pool σ τ} {act : PoolAct ι ε δ} (h : P.step p act = some p') :
    (∃ i x, act = .start i x ∧ p.tasks.lookup i = none ∧
      p' = { p with tasks := p.tasks.insert i (P.start x) }) ∨
    (∃ i e t s' t', act = .advance i e ∧ p.tasks.lookup i = some t ∧
      P.advance e p.shared t = some (s', t') ∧ p' = ⟨s', p.tasks.insert i t'⟩) ∨
    (∃ d s', act = .outside d ∧ P.outside d p.shared = some s' ∧ p' = { p with shared := s' }) := by
  cases act with
  | start i x =>
    unfold step at h
    cases hi : p.tasks.lookup i with
    | some t => simp only [hi] at h; cases h
    | none =>
      simp only [hi] at h
      cases h
      exact Or.inl ⟨i, x, rfl, hi, rfl⟩
  | advance i e =>
    obtain ⟨t, hi, hr⟩ := Option.bind_eq_some_iff.mp h
    obtain ⟨⟨s', t'⟩, hadv, rfl⟩ := Option.map_eq_some_iff.mp hr
    exact Or.inr (Or.inl ⟨i, e, t, s', t', rfl, hi, hadv, rfl⟩)
  | outside d =>
    obtain ⟨s', hs', rfl⟩ := Option.map_eq_some_iff.mp h
    exact Or.inr (Or.inr ⟨d, s', rfl, hs', rfl⟩)

/-- A condition on the steps of tasks: on the shared state and the task before the step. -/
def Guarded (G : σ → τ → Prop) (p : Pool σ τ) : PoolAct ι ε δ → Prop
  | .advance i _ => ∀ t, p.tasks.lookup i = some t → G p.shared t
  | _ => True

instance {G : σ → τ → Prop} [∀ s t, Decidable (G s t)] (p : Pool σ τ) :
    ∀ act : PoolAct ι ε δ, Decidable (Guarded G p act)
  | .start _ _ => isTrue trivial
  | .advance i _ => inferInstanceAs (Decidable (∀ t ∈ p.tasks.lookup i, G p.shared t))
  | .outside _ => isTrue trivial

/-- The invariant of the shared state, and the assertion of every task. -/
structure Holds (I : σ → Prop) (Q : σ → τ → Prop) (p : Pool σ τ) : Prop where
  shared : I p.shared
  tasks : ∀ i t, p.tasks.lookup i = some t → Q p.shared t

/-- What a step keeps, when it disturbs no other task. -/
theorem holds_step {G : σ → τ → Prop} {I : σ → Prop} {Q : σ → τ → Prop}
    (hstart : ∀ s x, I s → Q s (P.start x))
    (hself : ∀ e s t s' t', I s → Q s t → G s t → P.advance e s t = some (s', t') →
      I s' ∧ Q s' t')
    (hother : ∀ e s t s' t' u, I s → Q s t → Q s u → G s t → P.advance e s t = some (s', t') →
      Q s' u)
    (houtside : ∀ d s s', I s → P.outside d s = some s' → I s' ∧ ∀ u, Q s u → Q s' u)
    {p p' : Pool σ τ} {a : PoolAct ι ε δ} (hp : Holds I Q p) (hg : Guarded G p a)
    (hstep : P.step p a = some p') : Holds I Q p' := by
  rcases P.step_cases hstep with ⟨i, x, rfl, -, rfl⟩ | ⟨i, e, t, s', t', rfl, hi, hadv, rfl⟩
    | ⟨d, s', rfl, hs', rfl⟩
  · refine ⟨hp.shared, fun j t ht => ?_⟩
    rw [lookup_insert_ite] at ht
    split at ht
    · cases ht
      exact hstart p.shared x hp.shared
    · exact hp.tasks j t ht
  · have hQ : Q p.shared t := hp.tasks i t hi
    have hG : G p.shared t := hg t hi
    obtain ⟨hI', hQ'⟩ := hself e p.shared t s' t' hp.shared hQ hG hadv
    refine ⟨hI', fun j u hu => ?_⟩
    rw [lookup_insert_ite] at hu
    split at hu
    · cases hu
      exact hQ'
    · exact hother e p.shared t s' t' u hp.shared hQ (hp.tasks j u hu) hG hadv
  · obtain ⟨hI', hQ'⟩ := houtside d p.shared s' hp.shared hs'
    exact ⟨hI', fun j u hu => hQ' u (hp.tasks j u hu)⟩

/-- **Interference freedom.** -/
theorem pool_invariant {G : σ → τ → Prop} {I : σ → Prop} {Q : σ → τ → Prop}
    (hstart : ∀ s x, I s → Q s (P.start x))
    (hself : ∀ e s t s' t', I s → Q s t → G s t → P.advance e s t = some (s', t') →
      I s' ∧ Q s' t')
    (hother : ∀ e s t s' t' u, I s → Q s t → Q s u → G s t → P.advance e s t = some (s', t') →
      Q s' u)
    (houtside : ∀ d s s', I s → P.outside d s = some s' → I s' ∧ ∀ u, Q s u → Q s' u)
    {p : Pool σ τ} {acts : List (PoolAct ι ε δ)} (hp : Holds I Q p)
    (h : StepsMeet P.step (Guarded G) p acts) : AlwaysOn P.step (Holds I Q) p acts :=
  steps_of_guarded (fun _ _ _ hp hg hstep =>
    P.holds_step hstart hself hother houtside hp hg hstep) hp h

/-- Up to `n` steps of one task with nothing in between. -/
def alone (e : ε) : ℕ → σ → τ → σ × τ
  | 0, s, t => (s, t)
  | n + 1, s, t =>
    match P.advance e s t with
    | none => (s, t)
    | some (s', t') => alone e n s' t'

theorem alone_succ {e : ε} {s s' : σ} {t t' : τ} (n : ℕ) (h : P.advance e s t = some (s', t')) :
    P.alone e (n + 1) s t = P.alone e n s' t' := by
  rw [alone, h]

/-- A pool without tasks. -/
def idle (s : σ) : Pool σ τ := ⟨s, ∅⟩

theorem holds_idle {I : σ → Prop} {Q : σ → τ → Prop} {s : σ} (h : I s) :
    Holds I Q (idle s : Pool σ τ) := by
  refine ⟨h, fun i t ht => ?_⟩
  have hnone : (idle s : Pool σ τ).tasks.lookup i = none := Finmap.lookup_empty i
  rw [hnone] at ht
  cases ht

/-- A run starts no task that there is already, and none twice. -/
theorem started_of_run {p p' : Pool σ τ} {acts : List (PoolAct ι ε δ)}
    (h : run P.step p acts = some p') : (acts.filterMap PoolAct.started).Nodup ∧
      ∀ i ∈ acts.filterMap PoolAct.started, p.tasks.lookup i = none := by
  induction acts generalizing p with
  | nil => exact ⟨List.nodup_nil, fun i hi => absurd hi List.not_mem_nil⟩
  | cons act acts ih =>
    rw [run_cons] at h
    obtain ⟨q, hq, hrest⟩ := Option.bind_eq_some_iff.mp h
    obtain ⟨hnodup, hnew⟩ := ih hrest
    -- what is not there after a step was not there before it
    have hback : ∀ {i j : ℕ} {t : τ}, (p.tasks.insert i t).lookup j = none →
        j ≠ i ∧ p.tasks.lookup j = none := by
      intro i j t hj
      rw [lookup_insert_ite] at hj
      split at hj
      · cases hj
      · exact ⟨‹_›, hj⟩
    rcases P.step_cases hq with ⟨i, x, rfl, hi, rfl⟩ | ⟨i, e, t, s', t', rfl, -, -, rfl⟩
      | ⟨d, s', rfl, -, rfl⟩
    · show (i :: acts.filterMap PoolAct.started).Nodup ∧ ∀ j ∈ i :: _, _
      refine ⟨List.nodup_cons.mpr ⟨fun hmem => (hback (hnew i hmem)).1 rfl, hnodup⟩, fun j hj => ?_⟩
      rcases List.mem_cons.mp hj with rfl | hj
      · exact hi
      · exact (hback (hnew j hj)).2
    · exact ⟨hnodup, fun j hj => (hback (hnew j hj)).2⟩
    · exact ⟨hnodup, hnew⟩

/-- Every task has been started. -/
theorem start_mem_of_run {s : σ} {p : Pool σ τ} {acts : List (PoolAct ι ε δ)}
    (h : run P.step (idle s) acts = some p) {i : ℕ} {t : τ} (hi : p.tasks.lookup i = some t) :
    ∃ x, PoolAct.start i x ∈ acts := by
  induction acts using List.reverseRecOn generalizing p t with
  | nil =>
    cases h
    have hnone : (idle s : Pool σ τ).tasks.lookup i = none := Finmap.lookup_empty i
    rw [hnone] at hi
    cases hi
  | append_singleton acts act ih =>
    rw [run_append] at h
    obtain ⟨q, hq, hlast⟩ := Option.bind_eq_some_iff.mp h
    rw [run_cons] at hlast
    obtain ⟨p', hp', hend⟩ := Option.bind_eq_some_iff.mp hlast
    cases hend
    have hold : ∀ {u : τ}, q.tasks.lookup i = some u → ∃ x, PoolAct.start i x ∈ acts ++ [act] := by
      intro u hu
      obtain ⟨x, hx⟩ := ih hq hu
      exact ⟨x, List.mem_append_left _ hx⟩
    rcases P.step_cases hp' with ⟨j, x, rfl, -, rfl⟩ | ⟨j, e, u, s', u', rfl, hj, -, rfl⟩
      | ⟨d, s', rfl, -, rfl⟩
    · rw [lookup_insert_ite] at hi
      split at hi
      · rename_i hij
        subst hij
        exact ⟨x, List.mem_append_right _ (List.mem_singleton_self _)⟩
      · exact hold hi
    · rw [lookup_insert_ite] at hi
      split at hi
      · rename_i hij
        subst hij
        exact hold hj
      · exact hold hi
    · exact hold hi

/-- The steps of a task with nothing in between are steps. -/
theorem alone_reaches (e : ε) (n : ℕ) (s : σ) (t : τ) :
    Relation.ReflTransGen (fun a b : σ × τ => P.advance e a.1 a.2 = some b) (s, t)
      (P.alone e n s t) := by
  induction n generalizing s t with
  | zero => exact .refl
  | succ n ih =>
    unfold alone
    cases h : P.advance e s t with
    | none => exact .refl
    | some r => exact .head h (ih r.1 r.2)

end Protocol

end Cas.Lib
