/-
  Cas.Lib.Effect — stateful code with early returns.

  A handler is an `EStateM ε σ`: it threads a state and may stop early; a
  failure keeps the state it has reached.  Three judgements over it, each
  with one rule per way of building a handler:

    • `Ensures P m Q E`   — from a state with `P`, `m` returns with `Q` or
                            fails with `E`,
    • `Agree P m m' Q E`  — two runs of (possibly different) handlers from
                            states related by `P` take the same way out,
    • `Goes P m c Q`      — straight-line code: from a state with `P`, `m`
                            returns with `Q` if `c`, and fails if not.
-/

namespace Cas.Lib

variable {ε σ α β : Type}

/-! ## §1. Running a handler. -/

/-- The value or the error, without the state. -/
def outcome : EStateM.Result ε σ α → Except ε α
  | .ok a _ => .ok a
  | .error e _ => .error e

/-- The state reached, whichever way the handler ended. -/
def endState : EStateM.Result ε σ α → σ
  | .ok _ s => s
  | .error _ s => s

/-- `let r = m`: run `m` and hand its failure on as a value. -/
def attempt (m : EStateM ε σ α) : EStateM ε σ (Except ε α) := fun s =>
  .ok (outcome (m s)) (endState (m s))

/-- `let _ = m`: run `m` and forget how it ended. -/
def ignore (m : EStateM ε σ α) : EStateM ε σ Unit := fun s => .ok () (endState (m s))

/-- Run `m` only when `c` holds. -/
def onlyIf (c : Bool) (m : EStateM ε σ Unit) : EStateM ε σ Unit := if c then m else pure ()

/-- Run `m` on the value, if there is one. -/
def forSome (o : Option α) (m : α → EStateM ε σ Unit) : EStateM ε σ Unit :=
  match o with
  | some a => m a
  | none => pure ()

/-- Run `m` on each element in turn. -/
def forEach (l : List α) (m : α → EStateM ε σ Unit) : EStateM ε σ Unit :=
  match l with
  | [] => pure ()
  | a :: l => do m a; forEach l m

theorem run_bind (m : EStateM ε σ α) (k : α → EStateM ε σ β) (s : σ) :
    (m >>= k) s = match m s with
      | .ok a s' => k a s'
      | .error e s' => .error e s' := rfl

theorem run_bind_ok {m : EStateM ε σ α} {k : α → EStateM ε σ β} {s s' : σ} {a : α}
    (h : m s = .ok a s') : (m >>= k) s = k a s' := by
  rw [run_bind, h]

theorem run_bind_error {m : EStateM ε σ α} {k : α → EStateM ε σ β} {s s' : σ} {e : ε}
    (h : m s = .error e s') : (m >>= k) s = .error e s' := by
  rw [run_bind, h]

/-- A sequence returns exactly when each part does. -/
theorem bind_eq_ok {m : EStateM ε σ α} {k : α → EStateM ε σ β} {s s' : σ} {b : β} :
    (m >>= k) s = .ok b s' ↔ ∃ a t, m s = .ok a t ∧ k a t = .ok b s' := by
  rw [run_bind]
  cases m s with
  | ok a t =>
    constructor
    · intro h
      exact ⟨a, t, rfl, h⟩
    · rintro ⟨a', t', he, h⟩
      cases he
      exact h
  | error e t => simp

theorem run_attempt (m : EStateM ε σ α) (s : σ) :
    attempt m s = .ok (outcome (m s)) (endState (m s)) := rfl

theorem run_ignore (m : EStateM ε σ α) (s : σ) : ignore m s = .ok () (endState (m s)) := rfl

/-! ## §2. One run. -/

/-- From a state with `P`, `m` returns a value with `Q` or fails in a state with `E`. -/
def Ensures (P : σ → Prop) (m : EStateM ε σ α) (Q : α → σ → Prop) (E : σ → Prop) : Prop :=
  ∀ s, P s → match m s with
    | .ok a s' => Q a s'
    | .error _ s' => E s'

/-- `m` keeps `P`, also when it fails. -/
def Keeps (P : σ → Prop) (m : EStateM ε σ α) : Prop := Ensures P m (fun _ => P) P

section Ensures

variable {P P' : σ → Prop} {Q Q' : α → σ → Prop} {R : β → σ → Prop} {E E' : σ → Prop}
  {m : EStateM ε σ α} {k : α → EStateM ε σ β}

theorem Ensures.weaken (h : Ensures P m Q E) (hP : ∀ s, P' s → P s) (hQ : ∀ a s, Q a s → Q' a s)
    (hE : ∀ s, E s → E' s) : Ensures P' m Q' E' := by
  intro s hs
  have key := h s (hP s hs)
  cases hm : m s with
  | ok a s' =>
    rw [hm] at key
    exact hQ a s' key
  | error e s' =>
    rw [hm] at key
    exact hE s' key

theorem Ensures.ret {a : α} (h : ∀ s, P s → Q a s) : Ensures P (pure a : EStateM ε σ α) Q E :=
  fun s hs => h s hs

theorem Ensures.fail {e : ε} (h : ∀ s, P s → E s) : Ensures P (throw e : EStateM ε σ α) Q E :=
  fun s hs => h s hs

theorem Ensures.bind (hm : Ensures P m Q E) (hk : ∀ a, Ensures (Q a) (k a) R E) :
    Ensures P (m >>= k) R E := by
  intro s hs
  have key := hm s hs
  rw [run_bind]
  cases h : m s with
  | ok a s' =>
    rw [h] at key
    exact hk a s' key
  | error e s' =>
    rw [h] at key
    exact key

/-- A fact that does not depend on the state moves to the context. -/
theorem Ensures.of_fact {φ : Prop} (h : φ → Ensures P m Q E) :
    Ensures (fun s => P s ∧ φ) m Q E := fun s hs => h hs.2 s hs.1

/-- After steps that keep `P`, go on from `P`. -/
theorem Ensures.after {P : σ → Prop} {m : EStateM ε σ α} {k : α → EStateM ε σ β}
    (hm : Keeps P m) (hE : ∀ s, P s → E s) (hk : ∀ a, Ensures P (k a) R E) :
    Ensures P (m >>= k) R E :=
  Ensures.bind (hm.weaken (fun _ h => h) (fun _ _ h => h) hE) hk

theorem Ensures.attempt {Q : Except ε α → σ → Prop}
    (h : Ensures P m (fun a => Q (.ok a)) fun s => ∀ e, Q (.error e) s) :
    Ensures P (attempt m) Q E := by
  intro s hs
  have key := h s hs
  unfold Cas.Lib.attempt
  cases hm : m s with
  | ok a s' =>
    rw [hm] at key
    exact key
  | error e s' =>
    rw [hm] at key
    exact key e

theorem Ensures.ignore (h : Ensures P m (fun _ => E') E') :
    Ensures P (ignore m) (fun _ => E') E := by
  intro s hs
  have key := h s hs
  unfold Cas.Lib.ignore
  cases hm : m s with
  | ok a s' =>
    rw [hm] at key
    exact key
  | error e s' =>
    rw [hm] at key
    exact key

/-- What is kept on the way is also there after a failure. -/
theorem Ensures.endState (h : Ensures P m (fun _ => E) E) {s : σ} (hs : P s) :
    E (endState (m s)) := by
  have key := h s hs
  cases hm : m s with
  | ok a s' =>
    rw [hm] at key
    exact key
  | error e s' =>
    rw [hm] at key
    exact key

theorem Keeps.ret {a : α} : Keeps P (pure a : EStateM ε σ α) := Ensures.ret fun _ h => h

theorem Keeps.fail {e : ε} : Keeps P (throw e : EStateM ε σ α) := Ensures.fail fun _ h => h

theorem Keeps.bind (hm : Keeps P m) (hk : ∀ a, Keeps P (k a)) : Keeps P (m >>= k) :=
  Ensures.bind hm hk

theorem Keeps.ignore (h : Keeps P m) : Keeps P (ignore m) := Ensures.ignore h

theorem Keeps.attempt (h : Keeps P m) : Keeps P (attempt m) :=
  Ensures.attempt (h.weaken (fun _ h => h) (fun _ _ h => h) fun _ h _ => h)

theorem Keeps.onlyIf {c : Bool} {m : EStateM ε σ Unit} (h : Keeps P m) : Keeps P (onlyIf c m) := by
  cases c with
  | true => exact h
  | false => exact Keeps.ret

theorem Keeps.forSome {o : Option β} {m : β → EStateM ε σ Unit} (h : ∀ b, Keeps P (m b)) :
    Keeps P (forSome o m) := by
  cases o with
  | some b => exact h b
  | none => exact Keeps.ret

theorem Keeps.forEach {l : List β} {m : β → EStateM ε σ Unit} (h : ∀ b, Keeps P (m b)) :
    Keeps P (forEach l m) := by
  induction l with
  | nil => exact Keeps.ret
  | cons b l ih => exact Keeps.bind (h b) fun _ => ih

end Ensures

/-! ## §3. Two runs. -/

/-- Two handlers from states related by `P`: both return related values in related states, or both
fail with the same error in related states. -/
def Agree (P : σ → σ → Prop) (m m' : EStateM ε σ α) (Q : α → α → σ → σ → Prop)
    (E : σ → σ → Prop) : Prop :=
  ∀ s s', P s s' → match m s, m' s' with
    | .ok a t, .ok a' t' => Q a a' t t'
    | .error e t, .error e' t' => e = e' ∧ E t t'
    | _, _ => False

/-- Both runs return the same value, or fail with the same error, and end related by `P`. -/
def Same (P : σ → σ → Prop) (m m' : EStateM ε σ α) : Prop :=
  Agree P m m' (fun a a' s s' => a = a' ∧ P s s') P

section Agree

variable {P P' : σ → σ → Prop} {Q Q' : α → α → σ → σ → Prop} {R : β → β → σ → σ → Prop}
  {E E' : σ → σ → Prop} {m m' : EStateM ε σ α} {k k' : α → EStateM ε σ β}

theorem Agree.weaken (h : Agree P m m' Q E) (hP : ∀ s s', P' s s' → P s s')
    (hQ : ∀ a a' s s', Q a a' s s' → Q' a a' s s') (hE : ∀ s s', E s s' → E' s s') :
    Agree P' m m' Q' E' := by
  intro s s' hs
  have key := h s s' (hP s s' hs)
  cases hm : m s <;> cases hm' : m' s' <;> rw [hm, hm'] at key
  · exact hQ _ _ _ _ key
  · exact key
  · exact key
  · exact ⟨key.1, hE _ _ key.2⟩

theorem Agree.ret {a a' : α} (h : ∀ s s', P s s' → Q a a' s s') :
    Agree P (pure a : EStateM ε σ α) (pure a') Q E := fun s s' hs => h s s' hs

theorem Agree.fail {e : ε} (h : ∀ s s', P s s' → E s s') :
    Agree P (throw e : EStateM ε σ α) (throw e) Q E := fun s s' hs => ⟨rfl, h s s' hs⟩

theorem Agree.bind (hm : Agree P m m' Q E) (hk : ∀ a a', Agree (Q a a') (k a) (k' a') R E) :
    Agree P (m >>= k) (m' >>= k') R E := by
  intro s s' hs
  have key := hm s s' hs
  rw [run_bind, run_bind]
  cases h : m s <;> cases h' : m' s' <;> rw [h, h'] at key
  · exact hk _ _ _ _ key
  · exact key.elim
  · exact key.elim
  · exact key

/-- After two runs that return the same value the continuation starts from that value twice. -/
theorem Agree.bind_eq {Q : α → σ → σ → Prop}
    (hm : Agree P m m' (fun a a' s s' => a = a' ∧ Q a s s') E)
    (hk : ∀ a, Agree (Q a) (k a) (k' a) R E) : Agree P (m >>= k) (m' >>= k') R E := by
  apply Agree.bind hm
  intro a a' s s' h
  obtain ⟨rfl, hs⟩ := h
  exact hk a s s' hs

theorem Agree.bind_same (hm : Agree P m m' (fun a a' s s' => a = a' ∧ P' s s') E)
    (hk : ∀ a, Agree P' (k a) (k' a) R E) : Agree P (m >>= k) (m' >>= k') R E :=
  Agree.bind_eq hm hk

/-- After steps that go alike, go on. -/
theorem Same.after (hm : Same P m m') (hE : ∀ s s', P s s' → E s s')
    (hk : ∀ a, Agree P (k a) (k' a) R E) : Agree P (m >>= k) (m' >>= k') R E :=
  Agree.bind_same (hm.weaken (fun _ _ h => h) (fun _ _ _ _ h => h) hE) hk

/-- A fact that does not depend on the states moves to the context. -/
theorem Agree.of_fact {φ : Prop} (h : φ → Agree P m m' Q E) :
    Agree (fun s s' => φ ∧ P s s') m m' Q E := fun s s' hs => h hs.1 s s' hs.2

/-- What the first run ensures by itself holds beside what both agree on. -/
theorem Agree.and_ensures {D : σ → Prop} {D' : α → σ → Prop} {F : σ → Prop} (h : Agree P m m' Q E)
    (hD : Ensures D m D' F) :
    Agree (fun s s' => P s s' ∧ D s) m m' (fun a a' s s' => Q a a' s s' ∧ D' a s)
      fun s s' => E s s' ∧ F s := by
  intro s s' hs
  have key := h s s' hs.1
  have own := hD s hs.2
  cases hm : m s <;> cases hm' : m' s' <;> rw [hm, hm'] at key
  · rw [hm] at own
    exact ⟨key, own⟩
  · exact key.elim
  · exact key.elim
  · rw [hm] at own
    exact ⟨key.1, key.2, own⟩

theorem Same.ret {a : α} : Same P (pure a : EStateM ε σ α) (pure a) :=
  Agree.ret fun _ _ h => ⟨rfl, h⟩

theorem Same.fail {e : ε} : Same P (throw e : EStateM ε σ α) (throw e) :=
  Agree.fail fun _ _ h => h

theorem Same.bind (hm : Same P m m') (hk : ∀ a, Same P (k a) (k' a)) :
    Same P (m >>= k) (m' >>= k') := Agree.bind_same hm hk

theorem Agree.attempt {T : σ → σ → Prop} (h : Agree P m m' (fun a a' s s' => a = a' ∧ T s s') T) :
    Agree P (attempt m) (attempt m') (fun r r' s s' => r = r' ∧ T s s') E := by
  intro s s' hs
  have key := h s s' hs
  unfold Cas.Lib.attempt
  cases hm : m s <;> cases hm' : m' s' <;> rw [hm, hm'] at key
  · exact ⟨congrArg Except.ok key.1, key.2⟩
  · exact key.elim
  · exact key.elim
  · exact ⟨congrArg Except.error key.1, key.2⟩

/-- How two attempts compare. -/
def Outcomes (Q : α → α → σ → σ → Prop) (E : σ → σ → Prop) (r r' : Except ε α) (s s' : σ) : Prop :=
  match r, r' with
  | .ok a, .ok a' => Q a a' s s'
  | .error e, .error e' => e = e' ∧ E s s'
  | _, _ => False

theorem Agree.attempts {F : σ → σ → Prop} (h : Agree P m m' Q E) :
    Agree P (Cas.Lib.attempt m) (Cas.Lib.attempt m') (Outcomes Q E) F := by
  intro s s' hs
  have key := h s s' hs
  unfold Cas.Lib.attempt
  cases hm : m s <;> cases hm' : m' s' <;> rw [hm, hm'] at key <;> exact key

/-- Go on after attempts that end alike. -/
theorem Agree.bind_attempts {F : σ → σ → Prop} {k k' : Except ε α → EStateM ε σ β}
    (h : Agree P m m' Q E) (hok : ∀ a a', Agree (Q a a') (k (.ok a)) (k' (.ok a')) R F)
    (herror : ∀ e, Agree E (k (.error e)) (k' (.error e)) R F) :
    Agree P (Cas.Lib.attempt m >>= k) (Cas.Lib.attempt m' >>= k') R F := by
  apply Agree.bind h.attempts
  intro r r'
  cases r with
  | ok a =>
    cases r' with
    | ok a' => exact hok a a'
    | error e => exact fun s s' hs => hs.elim
  | error e =>
    cases r' with
    | ok a' => exact fun s s' hs => hs.elim
    | error e' =>
      intro s s' hs
      obtain ⟨rfl, hE⟩ := hs
      exact herror e s s' hE

theorem Same.attempt (h : Same P m m') : Same P (attempt m) (attempt m') := Agree.attempt h

theorem Same.ignore (h : Same P m m') : Same P (ignore m) (ignore m') := by
  intro s s' hs
  have key := h s s' hs
  unfold Cas.Lib.ignore
  cases hm : m s <;> cases hm' : m' s' <;> rw [hm, hm'] at key
  · exact ⟨rfl, key.2⟩
  · exact key.elim
  · exact key.elim
  · exact ⟨rfl, key.2⟩

theorem Same.onlyIf {c : Bool} {m m' : EStateM ε σ Unit} (h : Same P m m') :
    Same P (onlyIf c m) (onlyIf c m') := by
  cases c with
  | true => exact h
  | false => exact Same.ret

theorem Same.forSome {o : Option β} {m m' : β → EStateM ε σ Unit} (h : ∀ b, Same P (m b) (m' b)) :
    Same P (forSome o m) (forSome o m') := by
  cases o with
  | some b => exact h b
  | none => exact Same.ret

theorem Same.forEach {l : List β} {m m' : β → EStateM ε σ Unit} (h : ∀ b, Same P (m b) (m' b)) :
    Same P (forEach l m) (forEach l m') := by
  induction l with
  | nil => exact Same.ret
  | cons b l ih => exact Same.bind (h b) fun _ => ih

/-- Two runs that agree give the same outcome. -/
theorem Same.outcome (h : Same P m m') {s s' : σ} (hs : P s s') :
    outcome (m s) = outcome (m' s') ∧ P (endState (m s)) (endState (m' s')) := by
  have key := h s s' hs
  cases hm : m s <;> cases hm' : m' s' <;> rw [hm, hm'] at key
  · exact ⟨congrArg Except.ok key.1, key.2⟩
  · exact key.elim
  · exact key.elim
  · exact ⟨congrArg Except.error key.1, key.2⟩

end Agree

/-! ## §4. Straight-line code. -/

/-- From a state with `P`, `m` returns with `Q` if `c`, and fails if not. -/
def Goes (P : σ → Prop) (m : EStateM ε σ Unit) (c : Prop) (Q : σ → Prop) : Prop :=
  ∀ s, P s → (c → ∃ s', m s = .ok () s' ∧ Q s') ∧ (¬ c → ∃ e s', m s = .error e s')

section Goes

variable {P P' Q R : σ → Prop} {m k : EStateM ε σ Unit} {c c' : Prop}

theorem Goes.ret : Goes P (pure () : EStateM ε σ Unit) True P :=
  fun s hs => ⟨fun _ => ⟨s, rfl, hs⟩, fun h => absurd trivial h⟩

theorem Goes.fail {x : ε} : Goes P (throw x : EStateM ε σ Unit) False Q :=
  fun s _ => ⟨False.elim, fun _ => ⟨x, s, rfl⟩⟩

theorem Goes.weaken (h : Goes P m c Q) (hP : ∀ s, P' s → P s) (hc : c ↔ c')
    (hQ : ∀ s, Q s → R s) : Goes P' m c' R := by
  intro s hs
  obtain ⟨hok, herror⟩ := h s (hP s hs)
  refine ⟨fun h => ?_, fun h => herror fun hc' => h (hc.mp hc')⟩
  obtain ⟨s', hm, hQ'⟩ := hok (hc.mpr h)
  exact ⟨s', hm, hQ s' hQ'⟩

/-- A sequence returns when each part does. -/
theorem Goes.bind (hm : Goes P m c Q) (hk : Goes Q k c' R) :
    Goes P (m >>= fun _ => k) (c ∧ c') R := by
  intro s hs
  obtain ⟨hok, herror⟩ := hm s hs
  by_cases hc : c
  · obtain ⟨t, ht, hQ⟩ := hok hc
    obtain ⟨hok', herror'⟩ := hk t hQ
    refine ⟨fun h => ?_, fun h => ?_⟩
    · obtain ⟨s', hs', hR⟩ := hok' h.2
      exact ⟨s', (run_bind_ok ht).trans hs', hR⟩
    · obtain ⟨e, s', hs'⟩ := herror' fun hc' => h ⟨hc, hc'⟩
      exact ⟨e, s', (run_bind_ok ht).trans hs'⟩
  · obtain ⟨e, t, ht⟩ := herror hc
    exact ⟨fun h => absurd h.1 hc, fun _ => ⟨e, t, run_bind_error ht⟩⟩

/-- A loop, with an invariant that knows the elements already handled. -/
theorem Goes.forEach {I : List β → σ → Prop} {m : β → EStateM ε σ Unit} {c : β → Prop}
    {l : List β} (h : ∀ before, ∀ b ∈ l, Goes (I before) (m b) (c b) (I (before ++ [b])))
    (before : List β) : Goes (I before) (forEach l m) (∀ b ∈ l, c b) (I (before ++ l)) := by
  induction l generalizing before with
  | nil =>
    rw [List.append_nil]
    exact Goes.ret.weaken (fun _ hs => hs) (by simp) fun _ hs => hs
  | cons b l ih =>
    have hrest := ih (fun before a ha => h before a (List.mem_cons_of_mem _ ha)) (before ++ [b])
    rw [List.append_assoc] at hrest
    exact ((h before b List.mem_cons_self).bind hrest).weaken (fun _ hs => hs)
      List.forall_mem_cons.symm fun _ hs => hs

theorem Goes.onlyIf {b : Bool} (h : Goes P m c P) : Goes P (onlyIf b m) (b = true → c) P := by
  cases b with
  | true => exact h.weaken (fun _ hs => hs) (by simp) fun _ hs => hs
  | false => exact Goes.ret.weaken (fun _ hs => hs) (by simp) fun _ hs => hs

theorem Goes.returns_iff (h : Goes P m c Q) {s : σ} (hs : P s) :
    (∃ s', m s = .ok () s') ↔ c := by
  obtain ⟨hok, herror⟩ := h s hs
  constructor
  · rintro ⟨s', hm⟩
    refine Classical.byContradiction fun hc => ?_
    obtain ⟨e, t, ht⟩ := herror hc
    rw [ht] at hm
    cases hm
  · intro hc
    obtain ⟨s', hm, -⟩ := hok hc
    exact ⟨s', hm⟩

/-- What holds whenever it returns. -/
theorem Goes.holds (h : Goes P m c Q) {s s' : σ} (hs : P s) (hm : m s = .ok () s') : Q s' := by
  obtain ⟨hok, -⟩ := h s hs
  obtain ⟨t, ht, hQ⟩ := hok ((h.returns_iff hs).mp ⟨s', hm⟩)
  rw [hm] at ht
  cases ht
  exact hQ

end Goes

end Cas.Lib
