/-
  Cas.Syncing.PathSet — the closure table is a prefix-closed set of paths.

  `TreeOp` is one update of a `PathTree`, `TreeOp.onSet` the same update
  of a prefix-closed set.  After any sequence of updates of a new table
  all its queries are answered from the set (`treeAnswers_run`); the
  closure of the set under ancestors is part of its type.
-/
import Cas.Syncing.ClosureRep

namespace Cas.Syncing

open Cas.Lib Descriptive

/-! ## §1. Updates. -/

/-- One update of a table; `from_paths` replaces it. -/
inductive TreeOp
  | insert (path : FsPath)
  | remove (path : FsPath)
  | clear
  | fromPaths (paths : List FsPath)
  deriving DecidableEq

def TreeOp.apply (t : PathTree) : TreeOp → PathTree
  | .insert path => t.insert path
  | .remove path => (t.remove path).2
  | .clear => t.clear
  | .fromPaths paths => PathTree.fromPaths paths

/-- The same update of a set. -/
def TreeOp.onSet (S : tree Name) : TreeOp → tree Name
  | .insert path => PrefixTree.insert S path
  | .remove path => PrefixTree.remove S path
  | .clear => ⊥
  | .fromPaths paths => paths.foldl PrefixTree.insert ⊥

def tableAfter (ops : List TreeOp) : PathTree := ops.foldl TreeOp.apply PathTree.new

def setAfter (ops : List TreeOp) : tree Name := ops.foldl TreeOp.onSet ⊥

/-! ## §2. Every update is the set operation. -/

/-- `from_paths` inserts in an order of its own; the set does not depend on the order. -/
theorem rep_fromPaths (paths : List FsPath) :
    (PathTree.fromPaths paths).Rep (paths.foldl PrefixTree.insert ⊥) := by
  have hperm : (paths.insertionSort fun p q => FsPath.depth p ≤ FsPath.depth q).Perm paths :=
    List.perm_insertionSort _ _
  have hfold := PathTree.rep_foldl_insert id
    (paths.insertionSort fun p q => FsPath.depth p ≤ FsPath.depth q) PathTree.rep_new
  have hset : (paths.insertionSort fun p q => FsPath.depth p ≤ FsPath.depth q).foldl
      (fun S p => PrefixTree.insert S (id p)) ⊥ = paths.foldl PrefixTree.insert ⊥ := by
    ext q
    rw [PrefixTree.mem_foldl_insert]
    show _ ↔ q ∈ paths.foldl (fun S p => PrefixTree.insert S (id p)) ⊥
    rw [PrefixTree.mem_foldl_insert]
    apply or_congr Iff.rfl
    apply exists_congr
    intro p
    rw [hperm.mem_iff]
  rw [hset] at hfold
  exact hfold

/-- **One update.** -/
theorem rep_apply {t : PathTree} {S : tree Name} (h : t.Rep S) (op : TreeOp) :
    (op.apply t).Rep (op.onSet S) := by
  cases op with
  | insert path => exact PathTree.rep_insert h path
  | remove path => exact (PathTree.rep_remove h path).1
  | clear => exact PathTree.rep_new
  | fromPaths paths => exact rep_fromPaths paths

theorem rep_foldl_apply (ops : List TreeOp) :
    ∀ {t : PathTree} {S : tree Name}, t.Rep S →
      (ops.foldl TreeOp.apply t).Rep (ops.foldl TreeOp.onSet S) := by
  induction ops with
  | nil => intro t S h; exact h
  | cons op ops ih => intro t S h; exact ih (rep_apply h op)

/-! ## §3. Every query is answered from the set. -/

/-- What the table answers when it stands for the set `S`. -/
structure TreeAnswers (t : PathTree) (S : tree Name) : Prop where
  contains : ∀ p, t.contains p = true ↔ p ∈ S
  children : ∀ p, Enumerates (t.childrenOf p) fun c => c ∈ S ∧ FsPath.parent c = some p
  descendants : ∀ p, Enumerates (t.descendantsOf p) fun d => d ∈ S ∧ Below p d
  ancestors : ∀ p, Enumerates (t.ancestorsOf p) fun a => p ∈ S ∧ Below a p
  subtree : ∀ p, Enumerates (t.subtreePaths p) fun d => d ∈ S ∧ p <+: d
  /-- What `remove` would return. -/
  removed : ∀ p, Enumerates (t.remove p).1 fun d => d ∈ S ∧ p <+: d
  rows : ∀ order, Enumerates (t.rows order) fun row =>
    (row.descendant ∈ S ∧ row.ancestor <+: row.descendant) ∧
      row.distance = row.descendant.depth - row.ancestor.depth

theorem treeAnswers_of_rep {t : PathTree} {S : tree Name} (h : t.Rep S) : TreeAnswers t S where
  contains := PathTree.contains_iff h
  children p := by
    refine (PathTree.enumerates_childrenOf h p).congr fun c => ?_
    rw [FsPath.parent_eq_some_iff]
  descendants := PathTree.enumerates_descendantsOf h
  ancestors := PathTree.enumerates_ancestorsOf h
  subtree := PathTree.enumerates_subtreePaths h
  removed p := (PathTree.rep_remove h p).2
  rows := PathTree.enumerates_rows h

/-- What the updates do to the set, member by member. -/
theorem mem_setAfter_snoc (ops : List TreeOp) (op : TreeOp) (q : FsPath) :
    q ∈ setAfter (ops ++ [op]) ↔
      match op with
      | .insert p => q ∈ setAfter ops ∨ q <+: p
      | .remove p => q ∈ setAfter ops ∧ ¬ p <+: q
      | .clear => False
      | .fromPaths ps => ∃ p ∈ ps, q <+: p := by
  unfold setAfter
  rw [List.foldl_append]
  cases op with
  | insert p => exact PrefixTree.mem_insert
  | remove p => exact PrefixTree.mem_remove
  | clear => exact iff_of_false (PrefixTree.notMem_bot q) id
  | fromPaths ps =>
    show q ∈ ps.foldl (fun S p => PrefixTree.insert S (id p)) ⊥ ↔ _
    rw [PrefixTree.mem_foldl_insert]
    exact or_iff_right (PrefixTree.notMem_bot q)

/-- **The closure table refines a prefix-closed set.** From the empty table every update changes
the set as its name says, and after every sequence of updates all queries answer from the set. -/
theorem pathTree_refines_set :
    (∀ q, q ∉ setAfter []) ∧
    (∀ ops p q, q ∈ setAfter (ops ++ [.insert p]) ↔ q ∈ setAfter ops ∨ q <+: p) ∧
    (∀ ops p q, q ∈ setAfter (ops ++ [.remove p]) ↔ q ∈ setAfter ops ∧ ¬ p <+: q) ∧
    (∀ ops q, q ∉ setAfter (ops ++ [.clear])) ∧
    (∀ ops ps q, q ∈ setAfter (ops ++ [.fromPaths ps]) ↔ ∃ p ∈ ps, q <+: p) ∧
    ∀ ops, TreeAnswers (tableAfter ops) (setAfter ops) := by
  refine ⟨PrefixTree.notMem_bot, ?_, ?_, ?_, ?_, fun ops => ?_⟩
  · intro ops p q
    exact mem_setAfter_snoc ops (.insert p) q
  · intro ops p q
    exact mem_setAfter_snoc ops (.remove p) q
  · intro ops q h
    exact (mem_setAfter_snoc ops .clear q).mp h
  · intro ops ps q
    exact mem_setAfter_snoc ops (.fromPaths ps) q
  · exact treeAnswers_of_rep (rep_foldl_apply ops PathTree.rep_new)

example : (tableAfter [.insert [.a, .b], .insert [.a, .c], .remove [.a, .b]]).childrenOf [.a]
    = [[.a, .c]] := by decide

end Cas.Syncing
