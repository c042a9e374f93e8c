/-
  Cas.Syncing.Moves — `RenameTree`.

  The request walks a list of the source's subtree twice: it moves the
  entries of the map one after another, and then takes the subtree out of
  the closure table and inserts every path at its new place.  While
  neither path lies inside the other no move touches what another one has
  moved.

  Main results:
    • `lookup_moves_target`, `lookup_moves_source` — the map after the
      first loop,
    • `renameTree_rebases` — `RenameTree` rebases the subtree in map and
      table alike.
-/
import Cas.Syncing.Coherence

namespace Cas.Syncing

open Cas.Lib Descriptive

/-! ## §1. Moving entries one after another. -/

/-- Two paths, neither inside the other. -/
structure Apart (src dst : FsPath) : Prop where
  left : ¬ src <+: dst
  right : ¬ dst <+: src

section Moves

variable {src dst : FsPath} (h : Apart src dst)

include h

theorem Apart.not_both {p : FsPath} (hs : src <+: p) : ¬ dst <+: p := by
  intro hd
  rcases List.prefix_or_prefix_of_prefix hs hd with hp | hp
  · exact h.left hp
  · exact h.right hp

theorem Apart.ne (r r' : FsPath) : src ++ r ≠ dst ++ r' := by
  intro e
  apply h.not_both (List.prefix_append src r)
  rw [e]
  exact List.prefix_append dst r'

/-- One move, seen from a path at or below the source. -/
theorem lookup_moveEntry_source (m : FuseMap) {old k : FsPath} (hold : src <+: old)
    (hk : src <+: k) :
    (ServerState.moveEntry src dst m old).lookup k = if k = old then none else m.lookup k := by
  unfold ServerState.moveEntry
  cases he : m.lookup old with
  | none =>
    by_cases hko : k = old
    · rw [if_pos hko, hko]
      exact he
    · rw [if_neg hko]
  | some e =>
    have hne : k ≠ ServerState.movedPath src dst old := by
      rw [movedPath_below hold]
      intro heq
      apply h.not_both hk
      rw [heq]
      exact prefix_rebase src dst old
    show ((m.erase old).insert _ e).lookup k = _
    rw [lookup_insert_ite, if_neg hne, lookup_erase_ite]

/-- One move, seen from a path at or below the destination. -/
theorem lookup_moveEntry_target (m : FuseMap) {old : FsPath} (hold : src <+: old) (r : FsPath) :
    (ServerState.moveEntry src dst m old).lookup (dst ++ r)
      = if old = src ++ r ∧ (m.lookup (src ++ r)).isSome then m.lookup (src ++ r)
        else m.lookup (dst ++ r) := by
  unfold ServerState.moveEntry
  cases he : m.lookup old with
  | none =>
    rw [if_neg]
    intro hc
    rw [← hc.1, he] at hc
    cases hc.2
  | some e =>
    show ((m.erase old).insert _ e).lookup (dst ++ r) = _
    rw [lookup_insert_ite, movedPath_below hold, lookup_erase_ite]
    obtain ⟨t, rfl⟩ := hold
    rw [rebase_append, if_neg (h.ne t r).symm]
    by_cases hrt : r = t
    · subst hrt
      rw [if_pos rfl, he, if_pos ⟨rfl, rfl⟩]
    · rw [if_neg (by simpa using hrt), if_neg (by simpa using fun e => absurd e.symm hrt)]

omit h in
/-- One move, seen from anywhere else. -/
theorem lookup_moveEntry_elsewhere (m : FuseMap) {old k : FsPath} (hold : src <+: old)
    (hs : ¬ src <+: k) (hd : ¬ dst <+: k) :
    (ServerState.moveEntry src dst m old).lookup k = m.lookup k := by
  unfold ServerState.moveEntry
  cases he : m.lookup old with
  | none => rfl
  | some e =>
    have hne : k ≠ ServerState.movedPath src dst old := by
      rw [movedPath_below hold]
      intro heq
      apply hd
      rw [heq]
      exact prefix_rebase src dst old
    have hko : k ≠ old := by
      intro heq
      exact hs (heq ▸ hold)
    show ((m.erase old).insert _ e).lookup k = _
    rw [lookup_insert_ite, if_neg hne, lookup_erase_ite, if_neg hko]

theorem lookup_moves_source (olds : List FsPath) (holds : ∀ old ∈ olds, src <+: old)
    {k : FsPath} (hk : src <+: k) : ∀ m : FuseMap,
      (olds.foldl (ServerState.moveEntry src dst) m).lookup k
        = if k ∈ olds then none else m.lookup k := by
  induction olds with
  | nil => intro m; simp
  | cons old olds ih =>
    intro m
    obtain ⟨hold, hrest⟩ := List.forall_mem_cons.mp holds
    rw [List.foldl_cons, ih hrest, lookup_moveEntry_source h m hold hk]
    by_cases hko : k = old
    · simp [hko]
    · simp [hko]

/-- The entries of the listed paths arrive below the destination; what was there stays where no
entry arrives. -/
theorem lookup_moves_target (olds : List FsPath) (holds : ∀ old ∈ olds, src <+: old)
    (hnodup : olds.Nodup) (r : FsPath) : ∀ m : FuseMap,
      (olds.foldl (ServerState.moveEntry src dst) m).lookup (dst ++ r)
        = if src ++ r ∈ olds ∧ (m.lookup (src ++ r)).isSome then m.lookup (src ++ r)
          else m.lookup (dst ++ r) := by
  induction olds with
  | nil => intro m; simp
  | cons old olds ih =>
    intro m
    obtain ⟨hold, hrest⟩ := List.forall_mem_cons.mp holds
    obtain ⟨hnot, hnodup'⟩ := List.nodup_cons.mp hnodup
    rw [List.foldl_cons, ih hrest hnodup', lookup_moveEntry_target h m hold,
      lookup_moveEntry_source h m hold (List.prefix_append src r)]
    by_cases hro : src ++ r = old
    · -- the entry has left for its new place, and no later move touches either
      subst hro
      simp [hnot]
    · have hro' : ¬ old = src ++ r := fun e => hro e.symm
      simp [hro, hro']

omit h in
theorem lookup_moves_elsewhere (olds : List FsPath) (holds : ∀ old ∈ olds, src <+: old)
    {k : FsPath} (hs : ¬ src <+: k) (hd : ¬ dst <+: k) : ∀ m : FuseMap,
      (olds.foldl (ServerState.moveEntry src dst) m).lookup k = m.lookup k := by
  induction olds with
  | nil => intro m; rfl
  | cons old olds ih =>
    intro m
    obtain ⟨hold, hrest⟩ := List.forall_mem_cons.mp holds
    rw [List.foldl_cons, ih hrest, lookup_moveEntry_elsewhere m hold hs hd]

end Moves

/-! ## §2. RenameTree. -/

/-- The subtree at `src` has moved to `dst`, in the map and in the set `S` of the table. -/
structure Rebased (s : Server) (S : tree Name) (src dst : FsPath) (s' : Server) : Prop where
  target : ∀ r, s'.state.fuseMap.lookup (dst ++ r)
    = match s.state.fuseMap.lookup (src ++ r) with
      | some entry => some entry
      | none => s.state.fuseMap.lookup (dst ++ r)
  source : ∀ r, s'.state.fuseMap.lookup (src ++ r) = none
  elsewhere : ∀ p, ¬ src <+: p → ¬ dst <+: p →
    s'.state.fuseMap.lookup p = s.state.fuseMap.lookup p
  table : ∃ S', s'.state.TreeRep S' ∧ KeysIn s'.state.fuseMap S' ∧
    ∀ q, q ∈ S' ↔ (q ∈ S ∧ ¬ src <+: q) ∨ ∃ r, src ++ r ∈ S ∧ q <+: dst ++ r

section RenameTree

variable {s : Server} {S : tree Name} (hrep : s.state.TreeRep S) (hkeys : KeysIn s.state.fuseMap S)
  (src dst : FsPath)

include hrep hkeys

/-- Every entry of the subtree is on the list. -/
theorem mem_subtreePaths_of_lookup {r : FsPath} {entry : FuseEntry}
    (h : s.state.fuseMap.lookup (src ++ r) = some entry) :
    src ++ r ∈ s.state.pathTree.subtreePaths src := by
  have hkey : src ++ r ∈ s.state.fuseMap := Finmap.mem_of_lookup_eq_some h
  exact ((PathTree.enumerates_subtreePaths hrep src).2 _).mpr
    ⟨hkeys _ hkey, List.prefix_append src r⟩

theorem rebased_renameTree (h : Apart src dst) : Rebased s S src dst (s.renameTree src dst).2 := by
  have hsub := PathTree.enumerates_subtreePaths hrep src
  have hbelow : ∀ old ∈ s.state.pathTree.subtreePaths src, src <+: old :=
    fun old hold => ((hsub.2 old).mp hold).2
  refine ⟨?_, ?_, ?_, PrefixTree.move S src dst, ?_, ?_, ?_⟩
  · intro r
    have hmoved := lookup_moves_target h _ hbelow hsub.1 r s.state.fuseMap
    refine hmoved.trans ?_
    cases hentry : s.state.fuseMap.lookup (src ++ r) with
    | none => exact if_neg fun hc => by cases hc.2
    | some entry => exact if_pos ⟨mem_subtreePaths_of_lookup hrep hkeys src hentry, rfl⟩
  · intro r
    have hleft := lookup_moves_source h _ hbelow (List.prefix_append src r) s.state.fuseMap
    refine hleft.trans ?_
    cases hentry : s.state.fuseMap.lookup (src ++ r) with
    | none => exact ite_self _
    | some entry => exact if_pos (mem_subtreePaths_of_lookup hrep hkeys src hentry)
  · exact fun p hs hd => lookup_moves_elsewhere _ hbelow hs hd s.state.fuseMap
  · exact treeRep_renameTree (s := { s.state with fuseMap := _ }) hrep src dst
  · exact keysIn_renameTree hkeys hsub
  · intro q
    rw [PrefixTree.mem_move]
    apply or_congr Iff.rfl
    constructor
    · intro hq
      obtain ⟨p, hp, ⟨r, rfl⟩, hq⟩ := hq
      rw [rebase_append] at hq
      exact ⟨r, hp, hq⟩
    · intro hq
      obtain ⟨r, hp, hq⟩ := hq
      exact ⟨src ++ r, hp, List.prefix_append src r, by rwa [rebase_append]⟩

omit hrep hkeys in
/-- A move onto itself puts the entry back. -/
theorem moveEntry_self (m : FuseMap) {old : FsPath} (hold : src <+: old) :
    ServerState.moveEntry src src m old = m := by
  unfold ServerState.moveEntry
  cases he : m.lookup old with
  | none => rfl
  | some entry =>
    apply Finmap.ext_lookup
    intro k
    show ((m.erase old).insert _ entry).lookup k = m.lookup k
    rw [movedPath_below hold, rebase_same hold, lookup_insert_ite, lookup_erase_ite]
    split
    · next heq => rw [heq, he]
    · rfl

omit hrep hkeys in
theorem foldl_moveEntry_self (olds : List FsPath) (holds : ∀ old ∈ olds, src <+: old) :
    ∀ m : FuseMap, olds.foldl (ServerState.moveEntry src src) m = m := by
  induction olds with
  | nil => exact fun m => rfl
  | cons old olds ih =>
    intro m
    obtain ⟨hold, hrest⟩ := List.forall_mem_cons.mp holds
    rw [List.foldl_cons, moveEntry_self src m hold, ih hrest]

omit hrep hkeys in
theorem move_self (S : tree Name) : PrefixTree.move S src src = S := by
  ext q
  rw [PrefixTree.mem_move]
  constructor
  · intro hq
    obtain ⟨hq, -⟩ | ⟨p, hp, hsrc, hq⟩ := hq
    · exact hq
    · rw [rebase_same hsrc] at hq
      exact Tree.mem_of_prefix hq hp
  · intro hq
    by_cases hsrc : src <+: q
    · exact Or.inr ⟨q, hq, hsrc, by rw [rebase_same hsrc]⟩
    · exact Or.inl ⟨hq, hsrc⟩

omit hkeys in
/-- Only the rows of the table may be in another order. -/
theorem renameTree_self : ∃ table, table.Rep S ∧
    (s.renameTree src src).2 = s.withState { s.state with pathTree := table } := by
  have hsub := PathTree.enumerates_subtreePaths hrep src
  have hmap := foldl_moveEntry_self src _ (fun old hold => ((hsub.2 old).mp hold).2) s.state.fuseMap
  have htable := treeRep_renameTree hrep src src
  rw [move_self src S] at htable
  refine ⟨_, htable, ?_⟩
  let olds := s.state.pathTree.subtreePaths src
  show s.withState ({ s.state with
    fuseMap := olds.foldl (ServerState.moveEntry src src) s.state.fuseMap }.renameTree src src) = _
  rw [hmap]
  rfl

/-- **RenameTree**, for two paths neither of which lies inside the other, and for one path. -/
theorem renameTree_rebases (env : DispatchEnv) :
    (Apart src dst → Rebased s S src dst (dispatch env s (.renameTree src dst)).2) ∧
    ∃ table, table.Rep S ∧
      (dispatch env s (.renameTree src src)).2 = s.withState { s.state with pathTree := table } :=
  ⟨rebased_renameTree hrep hkeys src dst, renameTree_self hrep src⟩

end RenameTree

/-- A server with two entries, one below the other. -/
def nestedServer : Server :=
  (dispatch .quiet (dispatch .quiet (Server.init "") (.putDir [.a] .zero)).2
    (.putDir [.a, .b] .zero)).2

theorem renameTree_rebases_nested :
    Rebased nestedServer (PrefixTree.insert (PrefixTree.insert ⊥ [.a]) [.a, .b]) [.a] [.b, .c]
      (dispatch .quiet nestedServer (.renameTree [.a] [.b, .c])).2 := by
  have hrep : nestedServer.state.TreeRep (PrefixTree.insert (PrefixTree.insert ⊥ [.a]) [.a, .b]) :=
    PathTree.rep_insert (PathTree.rep_insert PathTree.rep_new _) _
  have hkeys : KeysIn nestedServer.state.fuseMap
      (PrefixTree.insert (PrefixTree.insert ⊥ [.a]) [.a, .b]) :=
    keysIn_insert (keysIn_insert (fun k hk => absurd hk Finmap.notMem_empty) _ _) _ _
  exact (renameTree_rebases hrep hkeys [.a] [.b, .c] .quiet).1 ⟨by decide, by decide⟩

end Cas.Syncing
