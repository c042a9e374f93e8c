/-
  Cas.Syncing.ClosureRep — what the closure table means.

  A `PathTree` represents a prefix-closed set of paths: `Rep t S` says
  that the three maps hold exactly the rows of the reachability relation
  of `S`, each once.  Every update of the table is the set operation of
  the same name (`rep_insert`, `rep_remove`), every query lists a set
  (`enumerates_childrenOf`, …), and writing the rows out and reading them
  back gives a table of the same set (`rep_fromRows`).

  The proofs go through `Rows t R`, the same statement for an arbitrary
  relation `R`: pushing a row extends `R`, removing a leaf restricts it.
-/
import Mathlib.Data.List.Sort
import Cas.Lib.PrefixTree
import Cas.Syncing.Closure

namespace Cas.Syncing

open Cas.Lib Descriptive

namespace PathTree

/-! ## §1. Tables of an arbitrary relation. -/

/-- The table holds the row `(a, d)` exactly for `R a d`, once in every index. -/
structure Rows (t : PathTree) (R : FsPath → FsPath → Prop) : Prop where
  noEmptyAncestor : NoEmpty t.byAncestor
  noEmptyDescendant : NoEmpty t.byDescendant
  noEmptyParent : NoEmpty t.byParent
  ancestor : ∀ a, Enumerates (mapAt t.byAncestor a) fun row =>
    R a row.1 ∧ row.2 = row.1.length - a.length
  descendant : ∀ d, Enumerates (mapAt t.byDescendant d) fun row =>
    R row.1 d ∧ row.2 = d.length - row.1.length
  parent : ∀ p, Enumerates (mapAt t.byParent p) fun c => R p c ∧ c.length - p.length = 1

theorem Rows.congr {t : PathTree} {R R' : FsPath → FsPath → Prop} (h : Rows t R)
    (hR : ∀ a d, R a d ↔ R' a d) : Rows t R' := by
  have hRR : R = R' := by
    funext a d
    exact propext (hR a d)
  rwa [← hRR]

theorem rows_new : Rows new fun _ _ => False where
  noEmptyAncestor := NoEmpty.empty
  noEmptyDescendant := NoEmpty.empty
  noEmptyParent := NoEmpty.empty
  ancestor _ := by simpa [new] using Enumerates.nil fun _ => by simp
  descendant _ := by simpa [new] using Enumerates.nil fun _ => by simp
  parent _ := by simpa [new] using Enumerates.nil fun _ => by simp

/-- Pushing one new row into one index. -/
private theorem enumerates_push {K V : Type*} [DecidableEq K] {m : FMap K (List V)}
    {P : K → V → Prop} (h : ∀ k, Enumerates (mapAt m k) (P k)) {k₀ : K} {v : V}
    (hv : ¬ P k₀ v) (k : K) :
    Enumerates (mapAt (pushAt m k₀ v) k) fun x => P k x ∨ (k = k₀ ∧ x = v) := by
  rw [mapAt_pushAt]
  by_cases hk : k = k₀
  · subst hk
    simpa using (h k).snoc hv
  · simpa [hk] using h k

theorem Rows.insertRow {t : PathTree} {R : FsPath → FsPath → Prop} (h : Rows t R)
    {a d : FsPath} {n : Nat} (hn : ¬ R a d) (hd : n = d.length - a.length) :
    Rows (t.insertRow a d n) fun x y => R x y ∨ (x = a ∧ y = d) where
  noEmptyAncestor := h.noEmptyAncestor.pushAt _ _
  noEmptyDescendant := h.noEmptyDescendant.pushAt _ _
  noEmptyParent := by
    show NoEmpty (if n = 1 then pushAt t.byParent a d else t.byParent)
    split
    · exact h.noEmptyParent.pushAt _ _
    · exact h.noEmptyParent
  ancestor x := by
    refine (enumerates_push h.ancestor (v := (d, n)) (fun hr => hn hr.1) x).congr fun row => ?_
    constructor
    · rintro (hr | ⟨rfl, rfl⟩)
      · exact ⟨Or.inl hr.1, hr.2⟩
      · exact ⟨Or.inr ⟨rfl, rfl⟩, hd⟩
    · rintro ⟨hr | ⟨rfl, rfl⟩, hl⟩
      · exact Or.inl ⟨hr, hl⟩
      · exact Or.inr ⟨rfl, Prod.ext rfl (hl.trans hd.symm)⟩
  descendant y := by
    refine (enumerates_push h.descendant (v := (a, n)) (fun hr => hn hr.1) y).congr fun row => ?_
    constructor
    · rintro (hr | ⟨rfl, rfl⟩)
      · exact ⟨Or.inl hr.1, hr.2⟩
      · exact ⟨Or.inr ⟨rfl, rfl⟩, hd⟩
    · rintro ⟨hr | ⟨rfl, rfl⟩, hl⟩
      · exact Or.inl ⟨hr, hl⟩
      · exact Or.inr ⟨rfl, Prod.ext rfl (hl.trans hd.symm)⟩
  parent p := by
    show Enumerates (mapAt (if n = 1 then pushAt t.byParent a d else t.byParent) p) _
    by_cases h1 : n = 1
    · rw [if_pos h1]
      refine (enumerates_push h.parent (v := d) (fun hr => hn hr.1) p).congr fun c => ?_
      constructor
      · rintro (hr | ⟨rfl, rfl⟩)
        · exact ⟨Or.inl hr.1, hr.2⟩
        · exact ⟨Or.inr ⟨rfl, rfl⟩, hd.symm.trans h1⟩
      · rintro ⟨hr | hr, hl⟩
        · exact Or.inl ⟨hr, hl⟩
        · exact Or.inr hr
    · rw [if_neg h1]
      refine (h.parent p).congr fun c => ?_
      constructor
      · exact fun hr => ⟨Or.inl hr.1, hr.2⟩
      · rintro ⟨hr | ⟨rfl, rfl⟩, hl⟩
        · exact ⟨hr, hl⟩
        · exact absurd (hd.trans hl) h1

/-- Pushing a list of distinct new rows adds exactly these. -/
theorem Rows.foldl_insertRow (rs : List ClosureRow) :
    ∀ {t : PathTree} {R : FsPath → FsPath → Prop}, Rows t R →
      (rs.map fun r => (r.ancestor, r.descendant)).Nodup →
      (∀ r ∈ rs, ¬ R r.ancestor r.descendant ∧
        r.distance = r.descendant.length - r.ancestor.length) →
      Rows (rs.foldl (fun t r => t.insertRow r.ancestor r.descendant r.distance) t)
        fun x y => R x y ∨ ∃ r ∈ rs, x = r.ancestor ∧ y = r.descendant := by
  induction rs with
  | nil => intro t R h _ _; exact h.congr fun a d => by simp
  | cons r rs ih =>
    intro t R h hnd hrs
    obtain ⟨hr, hrs'⟩ := List.forall_mem_cons.mp hrs
    rw [List.map_cons, List.nodup_cons] at hnd
    have hstep := h.insertRow hr.1 hr.2
    refine (ih hstep hnd.2 fun r' hr' => ⟨?_, (hrs' r' hr').2⟩).congr fun a d => ?_
    · rintro (hR | ⟨ha, hd⟩)
      · exact (hrs' r' hr').1 hR
      · exact hnd.1 (List.mem_map.mpr ⟨r', hr', Prod.ext ha hd⟩)
    · simp only [List.mem_cons, exists_eq_or_imp, or_assoc]

/-! ## §2. Removing the rows of a leaf. -/

private theorem mapAt_foldl_detach (v : FsPath) (as : List FsPath) :
    ∀ (t : PathTree) (x : FsPath),
      mapAt (as.foldl (detach v) t).byAncestor x
          = (if x ∈ as then (mapAt t.byAncestor x).filter fun row => decide (row.1 ≠ v)
             else mapAt t.byAncestor x)
        ∧ mapAt (as.foldl (detach v) t).byParent x
          = (if x ∈ as then (mapAt t.byParent x).filter fun d => decide (d ≠ v)
             else mapAt t.byParent x)
        ∧ (as.foldl (detach v) t).byDescendant = t.byDescendant := by
  induction as with
  | nil => intro t x; simp
  | cons a as ih =>
    intro t x
    obtain ⟨h1, h2, h3⟩ := ih (detach v t a) x
    rw [List.foldl_cons]
    refine ⟨?_, ?_, h3⟩
    · rw [h1]
      simp only [detach, mapAt_retainAt]
      by_cases hx : x = a <;> by_cases hm : x ∈ as <;> simp [hx, hm, List.filter_filter]
    · rw [h2]
      simp only [detach, mapAt_retainAt]
      by_cases hx : x = a <;> by_cases hm : x ∈ as <;> simp [hx, hm, List.filter_filter]

private theorem noEmpty_foldl_detach (v : FsPath) (as : List FsPath) :
    ∀ t : PathTree, NoEmpty t.byAncestor → NoEmpty t.byParent →
      NoEmpty (as.foldl (detach v) t).byAncestor ∧ NoEmpty (as.foldl (detach v) t).byParent := by
  induction as with
  | nil => intro t h1 h2; exact ⟨h1, h2⟩
  | cons a as ih =>
    intro t h1 h2
    exact ih (detach v t a) (h1.retainAt _ _) (h2.retainAt _ _)

/-- Removing `v`, when no other path has `v` as its ancestor, drops exactly the rows of `v`. -/
theorem Rows.removeOne {t : PathTree} {R : FsPath → FsPath → Prop} (h : Rows t R) {v : FsPath}
    (hleaf : ∀ d, R v d → d = v) : Rows (t.removeOne v) fun a d => R a d ∧ d ≠ v := by
  set as := (mapAt t.byDescendant v).map Prod.fst with has
  set t₀ : PathTree := { t with byDescendant := t.byDescendant.erase v } with ht₀
  have hfold : (mapAt t.byDescendant v).foldl (fun t row => detach v t row.1) t₀
      = as.foldl (detach v) t₀ := by rw [has, List.foldl_map]
  have hmem : ∀ a, a ∈ as ↔ R a v := by
    intro a
    rw [has, List.mem_map]
    constructor
    · rintro ⟨row, hrow, rfl⟩
      exact (((h.descendant v).2 row).mp hrow).1
    · intro ha
      exact ⟨(a, v.length - a.length), ((h.descendant v).2 _).mpr ⟨ha, rfl⟩, rfl⟩
  obtain ⟨hne1, hne2⟩ := noEmpty_foldl_detach v as t₀ h.noEmptyAncestor h.noEmptyParent
  have hshape : t.removeOne v = { as.foldl (detach v) t₀ with
      byAncestor := (as.foldl (detach v) t₀).byAncestor.erase v
      byParent := (as.foldl (detach v) t₀).byParent.erase v } := by
    rw [← hfold]
    rfl
  rw [hshape]
  have hdesc : (as.foldl (detach v) t₀).byDescendant = t.byDescendant.erase v :=
    (mapAt_foldl_detach v as t₀ v).2.2
  refine ⟨hne1.erase v, ?_, hne2.erase v, ?_, ?_, ?_⟩
  · show NoEmpty (as.foldl (detach v) t₀).byDescendant
    rw [hdesc]
    exact h.noEmptyDescendant.erase v
  · intro a
    show Enumerates (mapAt ((as.foldl (detach v) t₀).byAncestor.erase v) a) _
    rw [mapAt_erase]
    by_cases ha : a = v
    · rw [if_pos ha]
      refine Enumerates.nil fun row hr => hr.1.2 ?_
      exact hleaf row.1 (ha ▸ hr.1.1)
    · rw [if_neg ha, (mapAt_foldl_detach v as t₀ a).1]
      -- outside the ancestors of `v` the filter finds nothing to drop
      by_cases hav : a ∈ as
      · rw [if_pos hav]
        refine ((h.ancestor a).filter _).congr fun row => ?_
        simp only [ne_eq, decide_eq_true_eq]
        tauto
      · rw [if_neg hav]
        refine (h.ancestor a).congr fun row => ?_
        have hne : R a row.1 → row.1 ≠ v := fun hr e => hav ((hmem a).mpr (e ▸ hr))
        tauto
  · intro d
    show Enumerates (mapAt (as.foldl (detach v) t₀).byDescendant d) _
    rw [hdesc, mapAt_erase]
    by_cases hd : d = v
    · rw [if_pos hd]
      exact Enumerates.nil fun row hr => hr.1.2 hd
    · rw [if_neg hd]
      refine (h.descendant d).congr fun row => ?_
      tauto
  · intro p
    show Enumerates (mapAt ((as.foldl (detach v) t₀).byParent.erase v) p) _
    rw [mapAt_erase]
    by_cases hp : p = v
    · rw [if_pos hp]
      refine Enumerates.nil fun c hr => hr.1.2 ?_
      exact hleaf c (hp ▸ hr.1.1)
    · rw [if_neg hp, (mapAt_foldl_detach v as t₀ p).2.1]
      by_cases hpv : p ∈ as
      · rw [if_pos hpv]
        refine ((h.parent p).filter _).congr fun c => ?_
        simp only [ne_eq, decide_eq_true_eq]
        tauto
      · rw [if_neg hpv]
        refine (h.parent p).congr fun c => ?_
        have hne : R p c → c ≠ v := fun hr e => hpv ((hmem p).mpr (e ▸ hr))
        tauto

/-! ## §3. Tables of a prefix-closed set. -/

/-- `t` represents the prefix-closed set `S`. -/
def Rep (t : PathTree) (S : tree Name) : Prop := Rows t fun a d => d ∈ S ∧ a <+: d

theorem rep_new : Rep new ⊥ :=
  rows_new.congr fun a d => by simp

section Queries

variable {t : PathTree} {S : tree Name}

theorem contains_iff (h : Rep t S) (p : FsPath) : t.contains p = true ↔ p ∈ S := by
  have hd := h.descendant p
  rw [contains, Option.isSome_iff_ne_none, ne_eq, lookup_eq_none_iff h.noEmptyDescendant,
    hd.eq_nil_iff, not_forall_not]
  constructor
  · rintro ⟨row, hr⟩
    exact hr.1.1
  · intro hp
    exact ⟨(p, p.length - p.length), ⟨hp, List.prefix_rfl⟩, rfl⟩

theorem enumerates_childrenOf (h : Rep t S) (p : FsPath) :
    Enumerates (t.childrenOf p) fun c => c ∈ S ∧ ∃ n, c = p ++ [n] := by
  refine (h.parent p).congr fun c => ?_
  rw [child_iff, and_assoc, and_congr_right_iff, and_congr_right_iff]
  intro _ hpc
  have := hpc.length_le
  omega

theorem enumerates_descendantsOf (h : Rep t S) (p : FsPath) :
    Enumerates (t.descendantsOf p) fun d => d ∈ S ∧ Below p d := by
  refine (((h.ancestor p).filter _).map ?_).congr fun d => ?_
  · rintro ⟨d, n⟩ ⟨d', n'⟩ ⟨⟨-, hn⟩, -⟩ ⟨⟨-, hn'⟩, -⟩ (rfl : d = d')
    exact Prod.ext rfl (hn.trans hn'.symm)
  · simp only [below_iff_length, decide_eq_true_eq]
    constructor
    · rintro ⟨row, ⟨⟨⟨hS, hp⟩, hn⟩, hpos⟩, rfl⟩
      exact ⟨hS, hp, by omega⟩
    · rintro ⟨hS, hp, hl⟩
      exact ⟨(d, d.length - p.length), ⟨⟨⟨hS, hp⟩, rfl⟩, by show 0 < _; omega⟩, rfl⟩

theorem enumerates_ancestorsOf (h : Rep t S) (p : FsPath) :
    Enumerates (t.ancestorsOf p) fun a => p ∈ S ∧ Below a p := by
  refine (((h.descendant p).filter _).map ?_).congr fun a => ?_
  · rintro ⟨d, n⟩ ⟨d', n'⟩ ⟨⟨-, hn⟩, -⟩ ⟨⟨-, hn'⟩, -⟩ (rfl : d = d')
    exact Prod.ext rfl (hn.trans hn'.symm)
  · simp only [below_iff_length, decide_eq_true_eq]
    constructor
    · rintro ⟨row, ⟨⟨⟨hS, hp⟩, hn⟩, hpos⟩, rfl⟩
      exact ⟨hS, hp, by omega⟩
    · rintro ⟨hS, hp, hl⟩
      exact ⟨(a, p.length - a.length), ⟨⟨⟨hS, hp⟩, rfl⟩, by show 0 < _; omega⟩, rfl⟩

theorem enumerates_subtreePaths (h : Rep t S) (p : FsPath) :
    Enumerates (t.subtreePaths p) fun d => d ∈ S ∧ p <+: d := by
  unfold subtreePaths
  by_cases hp : p ∈ S
  · rw [if_pos ((contains_iff h p).mpr hp)]
    have hd := enumerates_descendantsOf h p
    refine ⟨List.nodup_cons.mpr ⟨fun hm => ((hd.2 p).mp hm).2.2 rfl, hd.1⟩, fun d => ?_⟩
    rw [List.mem_cons, hd.2 d]
    constructor
    · rintro (rfl | ⟨hS, hb⟩)
      · exact ⟨hp, List.prefix_rfl⟩
      · exact ⟨hS, hb.1⟩
    · rintro ⟨hS, hb⟩
      by_cases he : d = p
      · exact Or.inl he
      · exact Or.inr ⟨hS, hb, he⟩
  · rw [if_neg (fun hc => hp ((contains_iff h p).mp hc))]
    exact Enumerates.nil fun d hd => hp (Tree.mem_of_prefix hd.2 hd.1)

theorem enumerates_rows (h : Rep t S) (order : IterOrder FsPath) :
    Enumerates (t.rows order) fun r =>
      (r.descendant ∈ S ∧ r.ancestor <+: r.descendant) ∧
        r.distance = r.descendant.length - r.ancestor.length := by
  have hkeys := order.enumerates t.byAncestor.keys
  constructor
  · unfold rows
    rw [List.nodup_flatMap]
    refine ⟨fun a _ => ?_, hkeys.1.imp fun {a b} hab => ?_⟩
    · refine (h.ancestor a).1.map ?_
      rintro ⟨d, n⟩ ⟨d', n'⟩ hr
      simpa using hr
    · rw [Function.onFun, List.disjoint_left]
      rintro r hra hrb
      obtain ⟨_, _, rfl⟩ := List.mem_map.mp hra
      obtain ⟨_, _, hr⟩ := List.mem_map.mp hrb
      exact hab (congrArg ClosureRow.ancestor hr).symm
  · rintro ⟨a, d, n⟩
    simp only [rows, List.mem_flatMap, List.mem_map, ClosureRow.mk.injEq]
    constructor
    · rintro ⟨a', -, row, hrow, rfl, rfl, rfl⟩
      exact ((h.ancestor a').2 row).mp hrow
    · intro hr
      have hrow : (d, n) ∈ mapAt t.byAncestor a := ((h.ancestor a).2 (d, n)).mpr hr
      refine ⟨a, (hkeys.2 a).mpr ?_, (d, n), hrow, rfl, rfl, rfl⟩
      show a ∈ t.byAncestor.keys
      rw [Finmap.mem_keys, ← Finmap.lookup_isSome, Option.isSome_iff_ne_none, ne_eq,
        lookup_eq_none_iff h.noEmptyAncestor]
      exact List.ne_nil_of_mem hrow

end Queries

/-! ## §4. Updates are set operations. -/

/-- One prefix, whose strict prefixes are there already. -/
theorem rep_insertPrefix {t : PathTree} {S : tree Name} (h : Rep t S) {p : FsPath}
    (hp : ∀ q, Below q p → q ∈ S) : Rep (t.insertPrefix p) (PrefixTree.insert S p) := by
  unfold insertPrefix
  by_cases hc : p ∈ S
  · rw [if_pos ((contains_iff h p).mpr hc), PrefixTree.insert_eq_self hc]
    exact h
  · rw [if_neg (fun e => hc ((contains_iff h p).mp e))]
    have hanc := enumerates_ancestors p
    set rs : List ClosureRow :=
      (ancestors p).map fun a => ⟨a, p, p.depth - FsPath.depth a⟩ with hrs
    have hfold : (ancestorsWithDistance p).foldl (fun t row => t.insertRow row.1 p row.2) t
        = rs.foldl (fun t r => t.insertRow r.ancestor r.descendant r.distance) t := by
      rw [hrs, ancestorsWithDistance, List.foldl_map, List.foldl_map]
    rw [hfold]
    have hmem : ∀ r, r ∈ rs ↔ r.ancestor <+: p ∧ r.descendant = p ∧
        r.distance = p.length - r.ancestor.length := by
      rintro ⟨a, d, n⟩
      rw [hrs, List.mem_map]
      constructor
      · rintro ⟨a', ha', he⟩
        cases he
        exact ⟨(hanc.2 _).mp ha', rfl, rfl⟩
      · rintro ⟨ha, hd, hn⟩
        obtain rfl : d = p := hd
        obtain rfl : n = d.length - a.length := hn
        exact ⟨a, (hanc.2 a).mpr ha, rfl⟩
    refine (Rows.foldl_insertRow rs h ?_ fun r hr => ?_).congr fun a d => ?_
    · rw [hrs, List.map_map]
      exact hanc.1.map fun a b e => congrArg Prod.fst e
    · obtain ⟨_, hd, hn⟩ := (hmem r).mp hr
      exact ⟨fun e => hc (hd ▸ e.1), by rw [hn, hd]⟩
    · rw [PrefixTree.mem_insert]
      constructor
      · rintro (⟨hS, ha⟩ | ⟨r, hr, rfl, rfl⟩)
        · exact ⟨Or.inl hS, ha⟩
        · obtain ⟨ha, hd, -⟩ := (hmem r).mp hr
          exact ⟨Or.inr (hd ▸ List.prefix_rfl), hd ▸ ha⟩
      · rintro ⟨hS | hdp, ha⟩
        · exact Or.inl ⟨hS, ha⟩
        · by_cases he : d = p
          · subst he
            exact Or.inr ⟨⟨a, d, d.length - a.length⟩, (hmem _).mpr ⟨ha, rfl, rfl⟩, rfl, rfl⟩
          · exact Or.inl ⟨hp d ⟨hdp, fun e => he e.symm⟩, ha⟩

theorem insert_snoc (t : PathTree) (p : FsPath) (n : Name) :
    t.insert (p ++ [n]) = (t.insert p).insertPrefix (p ++ [n]) := by
  unfold insert
  rw [ancestors_snoc, List.foldl_append]
  rfl

/-- `insert` adds the path and all its ancestors. -/
theorem rep_insert {t : PathTree} {S : tree Name} (h : Rep t S) (p : FsPath) :
    Rep (t.insert p) (PrefixTree.insert S p) := by
  induction p using List.reverseRecOn with
  | nil =>
    have h0 : t.insert [] = t.insertPrefix [] := rfl
    rw [h0]
    exact rep_insertPrefix h fun q hq => absurd (List.prefix_nil.mp hq.1) hq.2.symm
  | append_singleton p n ih =>
    rw [insert_snoc, ← PrefixTree.insert_insert (List.prefix_append p [n])]
    refine rep_insertPrefix ih fun q hq => ?_
    rcases prefix_snoc_iff.mp hq.1 with e | e
    · exact absurd e.symm hq.2
    · exact Or.inr e

theorem rep_foldl_insert (f : FsPath → FsPath) (ps : List FsPath) :
    ∀ {t : PathTree} {S : tree Name}, Rep t S →
      Rep (ps.foldl (fun t p => t.insert (f p)) t)
        (ps.foldl (fun S p => PrefixTree.insert S (f p)) S) := by
  induction ps with
  | nil => intro t S h; exact h
  | cons p ps ih => intro t S h; exact ih (rep_insert h (f p))

/-- Removing a leaf. -/
theorem rep_removeOne {t : PathTree} {S : tree Name} (h : Rep t S) {v : FsPath}
    (hleaf : ∀ d ∈ S, v <+: d → d = v) : Rep (t.removeOne v) (PrefixTree.remove S v) := by
  refine (Rows.removeOne h fun d hd => hleaf d hd.1 hd.2).congr fun a d => ?_
  rw [PrefixTree.mem_remove]
  have hd : d ∈ S → (d ≠ v ↔ ¬ v <+: d) := by
    intro hS
    refine not_congr ⟨fun e => e ▸ List.prefix_rfl, fun e => hleaf d hS e⟩
  tauto

/-- Removing a subtree deepest first: every victim is a leaf when its turn comes. -/
theorem rep_foldl_removeOne (p : FsPath) (victims : List FsPath) :
    ∀ {t : PathTree} {S : tree Name}, Rep t S →
      Enumerates victims (fun q => q ∈ S ∧ p <+: q) →
      victims.Pairwise (fun q r => r.length ≤ q.length) →
      Rep (victims.foldl removeOne t) (PrefixTree.remove S p) := by
  induction victims with
  | nil =>
    intro t S h hl _
    rw [PrefixTree.remove_eq_self fun q hq hpq => by simpa using (hl.2 q).mpr ⟨hq, hpq⟩]
    exact h
  | cons v vs ih =>
    intro t S h hl hsort
    obtain ⟨hnd, hmem⟩ := hl
    rw [List.nodup_cons] at hnd
    rw [List.pairwise_cons] at hsort
    have hv : v ∈ S ∧ p <+: v := (hmem v).mp List.mem_cons_self
    have hleaf : ∀ d ∈ S, v <+: d → d = v := by
      intro d hd hvd
      rcases List.mem_cons.mp ((hmem d).mpr ⟨hd, hv.2.trans hvd⟩) with e | hin
      · exact e
      · exact (hvd.eq_of_length (Nat.le_antisymm hvd.length_le (hsort.1 d hin))).symm
    rw [List.foldl_cons, ← PrefixTree.remove_remove (S := S) hv.2]
    refine ih (rep_removeOne h hleaf) ⟨hnd.2, fun q => ?_⟩ hsort.2
    show q ∈ vs ↔ q ∈ PrefixTree.remove S v ∧ p <+: q
    rw [PrefixTree.mem_remove]
    constructor
    · intro hq
      obtain ⟨hqS, hpq⟩ := (hmem q).mp (List.mem_cons_of_mem v hq)
      exact ⟨⟨hqS, fun hvq => hnd.1 (hleaf q hqS hvq ▸ hq)⟩, hpq⟩
    · rintro ⟨⟨hqS, hvq⟩, hpq⟩
      rcases List.mem_cons.mp ((hmem q).mpr ⟨hqS, hpq⟩) with e | hin
      · exact absurd (e ▸ List.prefix_rfl) hvq
      · exact hin

private theorem removalOrder_perm (t : PathTree) (p : FsPath) :
    (t.removalOrder p).Perm (t.subtreePaths p) := List.perm_insertionSort _ _

private theorem removalOrder_sorted (t : PathTree) (p : FsPath) :
    (t.removalOrder p).Pairwise fun q r => r.length ≤ q.length :=
  haveI : Std.Total fun q r : FsPath => r.length ≤ q.length :=
    ⟨fun q r => Nat.le_total r.length q.length⟩
  haveI : IsTrans FsPath fun q r => r.length ≤ q.length :=
    ⟨fun _ _ _ h h' => h'.trans h⟩
  List.pairwise_insertionSort _ _

/-- `remove` drops the path and everything below it, and returns what it dropped. -/
theorem rep_remove {t : PathTree} {S : tree Name} (h : Rep t S) (p : FsPath) :
    Rep (t.remove p).2 (PrefixTree.remove S p) ∧
      Enumerates (t.remove p).1 fun q => q ∈ S ∧ p <+: q := by
  unfold remove
  by_cases hp : p ∈ S
  · rw [if_pos ((contains_iff h p).mpr hp)]
    have hl := (enumerates_subtreePaths h p).perm (removalOrder_perm t p)
    exact ⟨rep_foldl_removeOne p _ h hl (removalOrder_sorted t p), hl⟩
  · rw [if_neg (fun e => hp ((contains_iff h p).mp e))]
    have hno : ∀ q ∈ S, ¬ p <+: q := fun q hq hpq => hp (Tree.mem_of_prefix hpq hq)
    rw [PrefixTree.remove_eq_self hno]
    exact ⟨h, Enumerates.nil fun q hq => hno q hq.1 hq.2⟩

/-- Writing the rows and reading them back gives a table of the same set, whatever the
iteration order. -/
theorem rep_fromRows {t : PathTree} {S : tree Name} (h : Rep t S) (order : IterOrder FsPath) :
    Rep (fromRows (t.rows order)) S := by
  have hrows := enumerates_rows h order
  refine (Rows.foldl_insertRow _ rows_new ?_ fun r hr => ⟨id, ((hrows.2 r).mp hr).2⟩).congr
    fun a d => ?_
  · refine hrows.1.map_on ?_
    rintro ⟨a, d, n⟩ hr ⟨a', d', n'⟩ hr' he
    obtain ⟨rfl, rfl⟩ : a = a' ∧ d = d' := by simpa using he
    have hn := ((hrows.2 _).mp hr).2
    have hn' := ((hrows.2 _).mp hr').2
    exact congrArg (ClosureRow.mk a d) (hn.trans hn'.symm)
  · constructor
    · rintro (hF | ⟨r, hr, rfl, rfl⟩)
      · exact hF.elim
      · exact ((hrows.2 r).mp hr).1
    · intro had
      exact Or.inr ⟨⟨a, d, d.length - a.length⟩, (hrows.2 _).mpr ⟨had, rfl⟩, rfl, rfl⟩

end PathTree

end Cas.Syncing
