/-
  Cas.Lib.Prefix — sequences ordered by "is a prefix of".

  A tree-shaped name space is a set of finite sequences closed under
  prefixes.  The lemmas here are about one sequence below another, the
  list of all prefixes of a sequence, and the change of prefix
  (`rebase`) that a subtree move applies to every name below its root.
-/
import Mathlib.Data.List.Infix
import Cas.Lib.FiniteMap

namespace Cas.Lib

variable {α : Type*}

/-! ## §1. Strictly below. -/

/-- `q` lies strictly below `p`. -/
def Below (p q : List α) : Prop := p <+: q ∧ q ≠ p

instance [DecidableEq α] (p q : List α) : Decidable (Below p q) :=
  inferInstanceAs (Decidable (_ ∧ _))

theorem below_iff_length {p q : List α} : Below p q ↔ p <+: q ∧ p.length < q.length := by
  constructor
  · rintro ⟨h, hne⟩
    exact ⟨h, lt_of_le_of_ne h.length_le fun e => hne (h.eq_of_length e).symm⟩
  · rintro ⟨h, hlt⟩
    exact ⟨h, fun e => absurd hlt (by simp [e])⟩

/-- Two prefixes of one sequence of equal length are equal. -/
theorem prefix_eq_of_length {p q r : List α} (hp : p <+: r) (hq : q <+: r)
    (hl : p.length = q.length) : p = q := by
  rw [List.prefix_iff_eq_take.mp hp, List.prefix_iff_eq_take.mp hq, hl]

/-- The children of `p` are the sequences one element longer. -/
theorem child_iff {p q : List α} :
    (∃ a, q = p ++ [a]) ↔ p <+: q ∧ q.length = p.length + 1 := by
  constructor
  · rintro ⟨a, rfl⟩
    exact ⟨List.prefix_append p [a], by simp⟩
  · rintro ⟨⟨t, rfl⟩, hl⟩
    obtain ⟨a, rfl⟩ : ∃ a, t = [a] := List.length_eq_one_iff.mp (by simpa using hl)
    exact ⟨a, rfl⟩

/-- A prefix of `p ++ [a]` is the whole or a prefix of `p`. -/
theorem prefix_snoc_iff {p q : List α} {a : α} : q <+: p ++ [a] ↔ q = p ++ [a] ∨ q <+: p :=
  List.prefix_concat_iff

/-! ## §2. All prefixes, longest first. -/

/-- The prefixes of `p`, from `p` itself to the empty sequence. -/
def ancestors (p : List α) : List (List α) := p.inits.reverse

theorem enumerates_ancestors (p : List α) : Enumerates (ancestors p) fun q => q <+: p := by
  refine ⟨List.nodup_reverse.mpr ?_, fun q => by simp [ancestors]⟩
  induction p with
  | nil => simp
  | cons a p ih =>
    simp only [List.inits_cons, List.nodup_cons, List.mem_map, not_exists, not_and]
    exact ⟨fun q _ => by simp, ih.map fun x y h => by simpa using h⟩

/-- Shortest first: the order in which an insertion walks down. -/
theorem ancestors_snoc (p : List α) (a : α) :
    (ancestors (p ++ [a])).reverse = (ancestors p).reverse ++ [p ++ [a]] := by
  simp [ancestors, List.inits_append]

/-! ## §3. Moving a subtree: change of prefix. -/

/-- Replace the prefix `src` of `q` by `dst`. -/
def rebase (src dst q : List α) : List α := dst ++ q.drop src.length

@[simp] theorem rebase_append (src dst r : List α) : rebase src dst (src ++ r) = dst ++ r := by
  simp [rebase]

@[simp] theorem rebase_self_left (src dst : List α) : rebase src dst src = dst := by
  simp [rebase]

theorem rebase_same {src q : List α} (h : src <+: q) : rebase src src q = q := by
  obtain ⟨r, rfl⟩ := h
  simp

theorem prefix_rebase (src dst q : List α) : dst <+: rebase src dst q :=
  List.prefix_append dst _

/-- Moving back undoes the move. -/
theorem rebase_rebase {src dst q : List α} (h : src <+: q) :
    rebase dst src (rebase src dst q) = q := by
  obtain ⟨r, rfl⟩ := h
  simp

end Cas.Lib
