/-
  Cas.Lib.PrefixTree — prefix-closed sets of sequences.

  `Descriptive.tree A` is Mathlib's type of prefix-closed sets: closure is
  part of the value.  Here are the three operations a tree-shaped name
  space needs — add a node with all its ancestors, drop a subtree, move a
  subtree — each returning a prefix-closed set again.
-/
import Mathlib.SetTheory.Descriptive.Tree
import Cas.Lib.Prefix

namespace Cas.Lib

open Descriptive

variable {A : Type*}

namespace PrefixTree

/-- Add `p` and all its ancestors. -/
def insert (S : tree A) (p : List A) : tree A :=
  ⟨{q | q ∈ S ∨ q <+: p}, fun q a h => by
    rcases h with h | h
    · exact Or.inl (Tree.mem_of_append h)
    · exact Or.inr ((List.prefix_append q [a]).trans h)⟩

/-- Drop `p` and everything below it. -/
def remove (S : tree A) (p : List A) : tree A :=
  ⟨{q | q ∈ S ∧ ¬ p <+: q}, fun q a h =>
    ⟨Tree.mem_of_append h.1, fun hp => h.2 (hp.trans (List.prefix_append q [a]))⟩⟩

/-- Move the subtree at `src` to `dst`: drop it, then add every moved node with its ancestors. -/
def move (S : tree A) (src dst : List A) : tree A :=
  ⟨{q | (q ∈ S ∧ ¬ src <+: q) ∨ ∃ p ∈ S, src <+: p ∧ q <+: rebase src dst p}, fun q a h => by
    rcases h with h | ⟨p, hp, hsrc, hq⟩
    · exact Or.inl ((remove S src).prop h)
    · exact Or.inr ⟨p, hp, hsrc, (List.prefix_append q [a]).trans hq⟩⟩

@[simp] theorem mem_insert {S : tree A} {p q : List A} : q ∈ insert S p ↔ q ∈ S ∨ q <+: p :=
  Iff.rfl

@[simp] theorem mem_remove {S : tree A} {p q : List A} : q ∈ remove S p ↔ q ∈ S ∧ ¬ p <+: q :=
  Iff.rfl

theorem mem_move {S : tree A} {src dst q : List A} :
    q ∈ move S src dst
      ↔ (q ∈ S ∧ ¬ src <+: q) ∨ ∃ p ∈ S, src <+: p ∧ q <+: rebase src dst p :=
  Iff.rfl

/-- Adding a list of nodes. -/
theorem mem_foldl_insert {B : Type*} (f : B → List A) (ps : List B) (q : List A) :
    ∀ S : tree A, q ∈ ps.foldl (fun S p => insert S (f p)) S ↔ q ∈ S ∨ ∃ p ∈ ps, q <+: f p := by
  induction ps with
  | nil => intro S; simp
  | cons p ps ih =>
    intro S
    rw [List.foldl_cons, ih, mem_insert, List.exists_mem_cons_iff, or_assoc]

@[simp] theorem notMem_bot (q : List A) : q ∉ (⊥ : tree A) := fun h => h.elim

/-- Dropping one node of a subtree first does not change what dropping the subtree leaves. -/
theorem remove_remove {S : tree A} {p v : List A} (h : p <+: v) :
    remove (remove S v) p = remove S p := by
  ext q
  simp only [mem_remove, and_assoc, and_congr_right_iff, and_iff_right_iff_imp]
  intro _ hp hv
  exact hp (h.trans hv)

/-- With nothing at or below `p` there is nothing to drop. -/
theorem remove_eq_self {S : tree A} {p : List A} (h : ∀ q ∈ S, ¬ p <+: q) : remove S p = S := by
  ext q
  simp only [mem_remove, and_iff_left_iff_imp]
  exact h q

/-- A node that is there already adds nothing. -/
theorem insert_eq_self {S : tree A} {p : List A} (h : p ∈ S) : insert S p = S := by
  ext q
  simp only [mem_insert, or_iff_left_iff_imp]
  exact fun hq => Tree.mem_of_prefix hq h

/-- Adding the parent first changes nothing. -/
theorem insert_insert {S : tree A} {p q : List A} (h : p <+: q) :
    insert (insert S p) q = insert S q := by
  ext r
  have hr : r <+: p → r <+: q := fun hr => hr.trans h
  simp only [mem_insert]
  tauto

end PrefixTree

end Cas.Lib
