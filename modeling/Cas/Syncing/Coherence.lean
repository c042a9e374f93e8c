/-
  Cas.Syncing.Coherence — the map of entries and the closure table.

  The server keeps the paths twice: as keys of `fuse_map` and as nodes of
  `path_tree`.  A listing walks the table and looks every child up in the
  map, so it is complete only while every key is a node.  Most requests
  keep it so.  `DeleteFile` and `RenameFile` change one key of the map
  but a whole subtree of the table: `KeepsCoherent` is the exact
  condition under which they do.
-/
import Cas.Lib.Runs
import Cas.Syncing.ClosureRep
import Cas.Syncing.Server

namespace Cas.Syncing

open Cas.Lib Descriptive

/-! ## §1. The table always represents a prefix-closed set. -/

/-- The table represents `S`. -/
def ServerState.TreeRep (s : ServerState) (S : tree Name) : Prop := s.pathTree.Rep S

theorem movedPath_below {src dst p : FsPath} (h : src <+: p) :
    ServerState.movedPath src dst p = rebase src dst p := if_pos h

/-- `rename_tree` moves a subtree of the set. -/
theorem treeRep_renameTree {s : ServerState} {S : tree Name} (h : s.TreeRep S)
    (src dst : FsPath) : (s.renameTree src dst).TreeRep (PrefixTree.move S src dst) := by
  have hsub := PathTree.enumerates_subtreePaths h src
  have hfold := PathTree.rep_foldl_insert (ServerState.movedPath src dst)
    (s.pathTree.subtreePaths src) (PathTree.rep_remove h src).1
  have hset : (s.pathTree.subtreePaths src).foldl
      (fun S p => PrefixTree.insert S (ServerState.movedPath src dst p)) (PrefixTree.remove S src)
        = PrefixTree.move S src dst := by
    ext q
    rw [PrefixTree.mem_foldl_insert, PrefixTree.mem_move, PrefixTree.mem_remove]
    apply or_congr Iff.rfl
    apply exists_congr
    intro p
    rw [hsub.2 p, and_assoc]
    apply and_congr Iff.rfl
    apply and_congr_right
    intro hp
    rw [movedPath_below hp]
  rw [hset] at hfold
  exact hfold

theorem treeRep_publish {s : ServerState} {S : tree Name} (h : s.TreeRep S) (path : FsPath)
    (entry : FuseEntry) : (s.publish path entry).TreeRep (PrefixTree.insert S path) :=
  PathTree.rep_insert h path

/-- What `EnsureFileObject` does to map and table: nothing, or it publishes an object entry. -/
theorem ensureObject_mapTree (s : Server) (path : FsPath) (md : FileMetadata)
    (alloc : ObjectStore → Except String UInt64 × ObjectStore) :
    let s' := (s.ensureObject path md alloc).2
    (s'.state.fuseMap = s.state.fuseMap ∧ s'.state.pathTree = s.state.pathTree) ∨
      ∃ id, s'.state.fuseMap = s.state.fuseMap.insert path (.ofObject md id) ∧
        s'.state.pathTree = s.state.pathTree.insert path := by
  unfold Server.ensureObject
  cases (s.state.fuseMap.lookup path).bind FuseEntry.reusableObject with
  | some id => exact Or.inr ⟨id, rfl, rfl⟩
  | none =>
    cases alloc s.objects with
    | mk r store =>
      cases r with
      | ok id => exact Or.inr ⟨id, rfl, rfl⟩
      | error err => exact Or.inl ⟨rfl, rfl⟩

/-- Every key of `m` is in `S`. -/
def KeysIn (m : FuseMap) (S : tree Name) : Prop := ∀ k, k ∈ m → k ∈ S

theorem keysIn_insert {m : FuseMap} {S : tree Name} (h : KeysIn m S) (path : FsPath)
    (entry : FuseEntry) : KeysIn (m.insert path entry) (PrefixTree.insert S path) := by
  intro k hk
  rcases Finmap.mem_insert.mp hk with rfl | hk
  · exact Or.inr List.prefix_rfl
  · exact Or.inl (h k hk)

/-! ## §2. The three requests that act on a subtree. -/

/-- `DeleteFile` keeps every key a node iff no key lies strictly below the path. -/
theorem keysIn_delete_iff {m : FuseMap} {S : tree Name} (h : KeysIn m S) (path : FsPath) :
    KeysIn (m.erase path) (PrefixTree.remove S path) ↔ ∀ k ∈ m, ¬ Below path k := by
  constructor
  · intro hafter k hk hbelow
    have hmem : k ∈ m.erase path := Finmap.mem_erase.mpr ⟨hbelow.2, hk⟩
    exact (hafter k hmem).2 hbelow.1
  · intro hno k hk
    obtain ⟨hne, hk⟩ := Finmap.mem_erase.mp hk
    exact ⟨h k hk, fun hp => hno k hk ⟨hp, hne⟩⟩

/-- `RenameFile` keeps every key a node iff each key strictly below the source is the
destination or a prefix of a path that moves. -/
theorem keysIn_renameFile_iff {m : FuseMap} {S : tree Name} (h : KeysIn m S) {src dst : FsPath}
    (hsrc : src ∈ m) (entry : FuseEntry) :
    KeysIn ((m.erase src).insert dst entry) (PrefixTree.move S src dst)
      ↔ ∀ k ∈ m, Below src k → k ≠ dst → ∃ q ∈ S, src <+: q ∧ k <+: rebase src dst q := by
  have hdst : dst ∈ PrefixTree.move S src dst := by
    refine Or.inr ⟨src, h src hsrc, List.prefix_rfl, ?_⟩
    rw [rebase_self_left]
  constructor
  · intro hafter k hk hbelow hne
    have hmem : k ∈ (m.erase src).insert dst entry :=
      Finmap.mem_insert.mpr (Or.inr (Finmap.mem_erase.mpr ⟨hbelow.2, hk⟩))
    rcases PrefixTree.mem_move.mp (hafter k hmem) with hk' | hk'
    · exact absurd hbelow.1 hk'.2
    · exact hk'
  · intro hmoved k hk
    rcases Finmap.mem_insert.mp hk with rfl | hk
    · exact hdst
    · obtain ⟨hne, hk⟩ := Finmap.mem_erase.mp hk
      by_cases hd : k = dst
      · rw [hd]
        exact hdst
      · by_cases hp : src <+: k
        · exact Or.inr (hmoved k hk ⟨hp, hne⟩ hd)
        · exact Or.inl ⟨h k hk, hp⟩

/-- One step of the loop of `RenameTree`. -/
theorem mem_moveEntry {src dst old k : FsPath} {m : FuseMap}
    (h : k ∈ ServerState.moveEntry src dst m old) :
    (k ∈ m ∧ k ≠ old) ∨ k = ServerState.movedPath src dst old := by
  unfold ServerState.moveEntry at h
  cases he : m.lookup old with
  | none =>
    rw [he] at h
    have hne : k ≠ old := by
      intro e
      rw [e, ← Finmap.lookup_isSome, he] at h
      cases h
    exact Or.inl ⟨h, hne⟩
  | some entry =>
    rw [he] at h
    rcases Finmap.mem_insert.mp h with hk | hk
    · exact Or.inr hk
    · obtain ⟨hne, hk⟩ := Finmap.mem_erase.mp hk
      exact Or.inl ⟨hk, hne⟩

/-- A key after the loop was outside the list of old paths, or is the new place of one of them. -/
theorem mem_foldl_moveEntry (src dst : FsPath) (olds : List FsPath) :
    ∀ (m : FuseMap) (k : FsPath), k ∈ olds.foldl (ServerState.moveEntry src dst) m →
      (k ∈ m ∧ k ∉ olds) ∨ ∃ old ∈ olds, k = ServerState.movedPath src dst old := by
  induction olds with
  | nil => intro m k hk; exact Or.inl ⟨hk, List.not_mem_nil⟩
  | cons old olds ih =>
    intro m k hk
    rcases ih (ServerState.moveEntry src dst m old) k hk with ⟨hk, hnot⟩ | ⟨old', hold, hk⟩
    · rcases mem_moveEntry hk with ⟨hk, hne⟩ | hk
      · exact Or.inl ⟨hk, fun hk' => (List.mem_cons.mp hk').elim hne hnot⟩
      · exact Or.inr ⟨old, List.mem_cons_self, hk⟩
    · exact Or.inr ⟨old', List.mem_cons_of_mem old hold, hk⟩

/-- `RenameTree` moves map and table alike. -/
theorem keysIn_renameTree {m : FuseMap} {S : tree Name} (h : KeysIn m S) {src dst : FsPath}
    {olds : List FsPath} (holds : Enumerates olds fun q => q ∈ S ∧ src <+: q) :
    KeysIn (olds.foldl (ServerState.moveEntry src dst) m) (PrefixTree.move S src dst) := by
  intro k hk
  rcases mem_foldl_moveEntry src dst olds m k hk with ⟨hk, hnot⟩ | ⟨old, hold, rfl⟩
  · exact Or.inl ⟨h k hk, fun hp => hnot ((holds.2 k).mpr ⟨h k hk, hp⟩)⟩
  · obtain ⟨hS, hp⟩ := (holds.2 old).mp hold
    refine Or.inr ⟨old, hS, hp, ?_⟩
    rw [movedPath_below hp]

/-! ## §3. Coherence. -/

/-- `ReadDirAll` lists every entry of every directory, each once. -/
def ListsExactly (s : Server) : Prop :=
  ∀ env d, ∃ entries, (dispatch env s (.readDirAll d)).1 = .dirEntries entries ∧
    Enumerates entries fun pe =>
      s.state.fuseMap.lookup pe.1 = some pe.2 ∧ FsPath.parent pe.1 = some d

/-- Listings are exact, and every key of the map is a node of the table. -/
structure Coherent (s : Server) : Prop where
  lists : ListsExactly s
  nodes : ∀ k, k ∈ s.state.fuseMap → s.state.pathTree.contains k = true

theorem listsExactly_of_keysIn {s : Server} {S : tree Name} (hrep : s.state.TreeRep S)
    (hkeys : KeysIn s.state.fuseMap S) : ListsExactly s := by
  intro env d
  refine ⟨_, rfl, ?_⟩
  refine ((PathTree.enumerates_childrenOf hrep d).filterMap_pair _).congr fun pe => ?_
  rw [FsPath.parent_eq_some_iff]
  constructor
  · intro h
    exact ⟨h.2, h.1.2⟩
  · intro h
    have hk : pe.1 ∈ s.state.fuseMap := Finmap.lookup_isSome.mp (by rw [h.1]; rfl)
    exact ⟨⟨hkeys pe.1 hk, h.2⟩, h.1⟩

theorem coherent_iff_keysIn {s : Server} {S : tree Name} (hrep : s.state.TreeRep S) :
    Coherent s ↔ KeysIn s.state.fuseMap S := by
  constructor
  · intro h k hk
    exact (PathTree.contains_iff hrep k).mp (h.nodes k hk)
  · intro h
    exact ⟨listsExactly_of_keysIn hrep h, fun k hk => (PathTree.contains_iff hrep k).mpr (h k hk)⟩

/-- When a request keeps a coherent server coherent: a condition on the request and the state
before it. -/
def KeepsCoherent (s : Server) : Request → Prop
  | .deleteFile path => ∀ k ∈ s.state.fuseMap, ¬ Below path k
  | .renameFile src dst => src ∈ s.state.fuseMap →
      ∀ k ∈ s.state.fuseMap, Below src k → k ≠ dst →
        ∃ q ∈ s.state.pathTree.subtreePaths src, k <+: rebase src dst q
  | _ => True

/-! ## §4. One request. -/

/-- After a request that left `s'`, the table represents a set again; and a map that was inside
the set is inside it iff `C`. -/
def KeepsKeysIff (s : Server) (S : tree Name) (s' : Server) (C : Prop) : Prop :=
  ∃ S', s'.state.TreeRep S' ∧
    (KeysIn s.state.fuseMap S → (KeysIn s'.state.fuseMap S' ↔ C))

section OneRequest

variable {s : Server} {S : tree Name} (hrep : s.state.TreeRep S)
include hrep

theorem keepsKeys_same {s' : Server} (hm : s'.state.fuseMap = s.state.fuseMap)
    (ht : s'.state.pathTree = s.state.pathTree) : KeepsKeysIff s S s' True := by
  refine ⟨S, ?_, fun hk => iff_true_intro ?_⟩
  · unfold ServerState.TreeRep
    rw [ht]
    exact hrep
  · rw [hm]
    exact hk

theorem keepsKeys_publish {s' : Server} {path : FsPath} {entry : FuseEntry}
    (hm : s'.state.fuseMap = s.state.fuseMap.insert path entry)
    (ht : s'.state.pathTree = s.state.pathTree.insert path) : KeepsKeysIff s S s' True := by
  refine ⟨PrefixTree.insert S path, ?_, fun hk => iff_true_intro ?_⟩
  · unfold ServerState.TreeRep
    rw [ht]
    exact PathTree.rep_insert hrep path
  · rw [hm]
    exact keysIn_insert hk path entry

theorem keepsKeys_ensureObject (path : FsPath) (md : FileMetadata)
    (alloc : ObjectStore → Except String UInt64 × ObjectStore) :
    KeepsKeysIff s S (s.ensureObject path md alloc).2 True := by
  rcases ensureObject_mapTree s path md alloc with ⟨hm, ht⟩ | ⟨id, hm, ht⟩
  · exact keepsKeys_same hrep hm ht
  · exact keepsKeys_publish hrep hm ht

theorem keepsKeys_putFileMeta (path : FsPath) (md : FileMetadata) :
    KeepsKeysIff s S (s.putFileMeta path md).2 True := by
  unfold Server.putFileMeta
  cases he : s.state.fuseMap.lookup path with
  | none => exact keepsKeys_same hrep rfl rfl
  | some entry =>
    refine ⟨S, hrep, fun hk => iff_true_intro ?_⟩
    intro k hmem
    rcases Finmap.mem_insert.mp hmem with rfl | hmem
    · exact hk k (Finmap.lookup_isSome.mp (by rw [he]; rfl))
    · exact hk k hmem

theorem keepsKeys_deleteWhiteout (path : FsPath) :
    KeepsKeysIff s S (s.deleteWhiteout path).2 True := by
  unfold Server.deleteWhiteout
  cases s.state.fuseMap.lookup path with
  | none => exact keepsKeys_same hrep rfl rfl
  | some existing =>
    by_cases hw : existing.entryType = .whiteout
    · simp only [if_pos hw]
      refine ⟨S, hrep, fun hk => iff_true_intro ?_⟩
      intro k hmem
      exact hk k (Finmap.mem_erase.mp hmem).2
    · simp only [if_neg hw]
      exact keepsKeys_same hrep rfl rfl

theorem keepsKeys_renameFile (src dst : FsPath) :
    KeepsKeysIff s S (s.renameFile src dst).2 (KeepsCoherent s (.renameFile src dst)) := by
  unfold Server.renameFile KeepsCoherent
  cases he : s.state.fuseMap.lookup src with
  | none =>
    have hno : src ∉ s.state.fuseMap := Finmap.lookup_eq_none.mp he
    exact ⟨S, hrep, fun hk => ⟨fun _ h => absurd h hno, fun _ => hk⟩⟩
  | some entry =>
    have hsrc : src ∈ s.state.fuseMap := Finmap.lookup_isSome.mp (by rw [he]; rfl)
    have hsub := PathTree.enumerates_subtreePaths hrep src
    refine ⟨_, treeRep_renameTree (s := { s.state with fuseMap := _ }) hrep src dst, fun hk => ?_⟩
    refine (keysIn_renameFile_iff hk hsrc entry).trans ?_
    constructor
    · intro h _ k hkm hbelow hne
      obtain ⟨q, hq, hp, hkq⟩ := h k hkm hbelow hne
      exact ⟨q, (hsub.2 q).mpr ⟨hq, hp⟩, hkq⟩
    · intro h k hkm hbelow hne
      obtain ⟨q, hq, hkq⟩ := h hsrc k hkm hbelow hne
      exact ⟨q, ((hsub.2 q).mp hq).1, ((hsub.2 q).mp hq).2, hkq⟩

theorem keepsKeys_getObjectPath (id : UInt64) :
    KeepsKeysIff s S (s.getObjectPath id).2 True := by
  unfold Server.getObjectPath
  split <;> exact keepsKeys_same hrep rfl rfl

theorem keepsKeys_flushRequest (io : FlushIo) (order : IterOrder FsPath) :
    KeepsKeysIff s S (s.flushRequest io order).2 True := by
  have hstate := flushRequest_state s io order
  exact keepsKeys_same hrep (congrArg _ hstate) (congrArg _ hstate)

/-- **One request.** A coherent map stays inside the set of the table iff the request meets the
condition. -/
theorem keepsKeys_dispatch (env : DispatchEnv) (req : Request) :
    KeepsKeysIff s S (dispatch env s req).2 (KeepsCoherent s req) := by
  cases req with
  | ensureFileObject path md => exact keepsKeys_ensureObject hrep path md _
  | ensureFileObjectFromReal path md => exact keepsKeys_ensureObject hrep path md _
  | getObjectPath id => exact keepsKeys_getObjectPath hrep id
  | upsertFileEntry path objectId md => exact keepsKeys_publish hrep rfl rfl
  | putFileMeta path md => exact keepsKeys_putFileMeta hrep path md
  | getFileMeta path => exact keepsKeys_same hrep rfl rfl
  | getEntry path => exact keepsKeys_same hrep rfl rfl
  | deleteFile path =>
    exact ⟨_, (PathTree.rep_remove hrep path).1, fun hk => keysIn_delete_iff hk path⟩
  | renameFile src dst => exact keepsKeys_renameFile hrep src dst
  | putDir path md => exact keepsKeys_publish hrep rfl rfl
  | putSymlink path target md => exact keepsKeys_publish hrep rfl rfl
  | putWhiteout path => exact keepsKeys_publish hrep rfl rfl
  | deleteWhiteout path => exact keepsKeys_deleteWhiteout hrep path
  | readDirAll path => exact keepsKeys_same hrep rfl rfl
  | listWhiteoutUnder path => exact keepsKeys_same hrep rfl rfl
  | renameTree src dst =>
    refine ⟨_, treeRep_renameTree (s := { s.state with fuseMap := _ }) hrep src dst,
      fun hk => iff_true_intro ?_⟩
    exact keysIn_renameTree hk (PathTree.enumerates_subtreePaths hrep src)
  | logAccess path operation pid => exact keepsKeys_same hrep rfl rfl
  | flush => exact keepsKeys_flushRequest hrep env.flushIo env.order

end OneRequest

/-! ## §5. Whole runs. -/

/-- Requests answered one at a time, each in its own environment. -/
def serve (s : Server) (a : DispatchEnv × Request) : Option Server := some (dispatch a.1 s a.2).2

theorem coherent_init (shmName : String) : Coherent (Server.init shmName) := by
  have hrep : (Server.init shmName).state.TreeRep ⊥ := PathTree.rep_new
  rw [coherent_iff_keysIn hrep]
  intro k hk
  exact absurd hk Finmap.notMem_empty

/-- **Map/tree coherence, exactly.** From the empty server every listing is exact and every key is
a node, in every state of a run, iff each request of the run meets its condition. -/
theorem coherent_run_iff (shmName : String) (reqs : List (DispatchEnv × Request)) :
    AlwaysOn serve Coherent (Server.init shmName) reqs
      ↔ StepsMeet serve (fun s a => KeepsCoherent s a.2) (Server.init shmName) reqs := by
  apply alwaysOn_iff_stepsMeet (I := fun s => ∃ S, s.state.TreeRep S)
  · intro s a s' hI hs
    obtain ⟨S, hrep⟩ := hI
    obtain ⟨S', hrep', -⟩ := keepsKeys_dispatch hrep a.1 a.2
    cases hs
    exact ⟨S', hrep'⟩
  · intro s a _
    exact ⟨_, rfl⟩
  · intro s a s' hI hP hs
    obtain ⟨S, hrep⟩ := hI
    obtain ⟨S', hrep', hiff⟩ := keepsKeys_dispatch hrep a.1 a.2
    cases hs
    rw [coherent_iff_keysIn hrep']
    exact hiff ((coherent_iff_keysIn hrep).mp hP)
  · exact ⟨⊥, PathTree.rep_new⟩
  · exact coherent_init shmName

/-- Two nested directories, then `DeleteFile` of the outer one: the inner entry stays in the map,
no listing shows it, and the table has lost it. -/
theorem not_coherent_deleteFile_subtree :
    let reqs := [Request.putDir [.a] .zero, .putDir [.a, .b] .zero, .deleteFile [.a]].map
      fun req => (DispatchEnv.quiet, req)
    (run serve (Server.init "") reqs).map
        (fun s => (s.state.fuseMap.lookup [.a, .b], s.readDirAll [.a]))
      = some (some (.ofDir .zero), [])
    ∧ ¬ AlwaysOn serve Coherent (Server.init "") reqs := by
  refine ⟨by decide, fun h => ?_⟩
  have hend := (h _ List.prefix_rfl _ rfl).nodes [.a, .b] (by decide)
  exact absurd hend (by decide)

end Cas.Syncing
