/-
  Cas.Syncing.Reload — a server and the one that a restart makes of it.

  A restart writes the map and the rows of the table and reads them back:
  the new table represents the same set, but lists it in another order.
  Servers that differ in nothing else answer every request alike and stay
  alike (`interchangeable_dispatch`), a `RenameTree` of a path into its own
  subtree apart, which moves entries in the order of the table.
-/
import Cas.Syncing.Moves
import Cas.Syncing.RoundTrip

namespace Cas.Syncing

open Cas.Lib Descriptive

/-! ## §1. Servers that differ in the order of their rows. -/

/-- The same state but for the order of the rows, and the same objects. -/
def Interchangeable (s s' : Server) : Prop :=
  s.state.abiVersion = SUPPORTED_ABI_VERSION ∧ ∃ pathTree metadataBin dataBin S,
    s' = ⟨{ s.state with pathTree }, { s.storage with metadataBin, dataBin }⟩ ∧
      s.state.TreeRep S ∧ pathTree.Rep S

theorem Interchangeable.refl {s : Server} (h : Loadable s) : Interchangeable s s := by
  obtain ⟨habi, S, hrep⟩ := h
  exact ⟨habi, _, _, _, S, rfl, hrep, hrep⟩

theorem Interchangeable.symm {s s' : Server} (h : Interchangeable s s') : Interchangeable s' s := by
  obtain ⟨habi, tree, md, data, S, rfl, hrep, hrep'⟩ := h
  exact ⟨habi, _, _, _, S, rfl, hrep', hrep⟩

/-- A restart, in any iteration orders. -/
theorem Interchangeable.restart {s s' : Server} (h : Interchangeable s s')
    (order order' : IterOrder FsPath) :
    ∃ t, s'.restart order order' = some t ∧ Interchangeable s t := by
  obtain ⟨habi, tree, md, data, S, rfl, hrep, hrep'⟩ := h
  refine ⟨_, restart_eq ?_ order order', habi, _, _, _, S, rfl, hrep, ?_⟩
  · exact habi
  · exact PathTree.rep_fromRows hrep' order

/-- Replies that list the same. -/
def SameResponse (r r' : Response) : Prop :=
  r = r' ∨ (∃ es es', r = .dirEntries es ∧ r' = .dirEntries es' ∧ es.Perm es') ∨
    ∃ ps ps', r = .whiteoutPaths ps ∧ r' = .whiteoutPaths ps' ∧ ps.Perm ps'

/-- A `RenameTree` moves a path elsewhere, or onto itself. -/
def Orderly : Request → Prop
  | .renameTree src dst => Apart src dst ∨ src = dst
  | _ => True

/-! ## §2. Moving a subtree in another order. -/

section Moves

variable {src dst : FsPath} {olds olds' : List FsPath}

/-- The moves of a subtree commute. -/
theorem foldl_moveEntry_perm (h : Apart src dst ∨ src = dst) (hperm : olds.Perm olds')
    (hbelow : ∀ old ∈ olds, src <+: old) (hnodup : olds.Nodup) (m : FuseMap) :
    olds'.foldl (ServerState.moveEntry src dst) m = olds.foldl (ServerState.moveEntry src dst) m := by
  have hbelow' : ∀ old ∈ olds', src <+: old := fun old hold => hbelow old (hperm.mem_iff.mpr hold)
  rcases h with h | rfl
  · -- key by key: below the source, below the target, elsewhere
    apply Finmap.ext_lookup
    intro k
    by_cases hs : src <+: k
    · rw [lookup_moves_source h olds' hbelow' hs, lookup_moves_source h olds hbelow hs]
      simp only [hperm.mem_iff]
    · by_cases hd : dst <+: k
      · obtain ⟨r, rfl⟩ := hd
        rw [lookup_moves_target h olds' hbelow' (hperm.nodup_iff.mp hnodup),
          lookup_moves_target h olds hbelow hnodup]
        simp only [hperm.mem_iff]
      · rw [lookup_moves_elsewhere olds' hbelow' hs hd, lookup_moves_elsewhere olds hbelow hs hd]
  · rw [foldl_moveEntry_self src olds' hbelow', foldl_moveEntry_self src olds hbelow]

end Moves

/-- Two lists of the same things. -/
theorem perm_of_enumerates {α : Type} {l l' : List α} {P : α → Prop} (h : Enumerates l P)
    (h' : Enumerates l' P) : l.Perm l' :=
  (List.perm_ext_iff_of_nodup h.1 h'.1).mpr fun a => (h.2 a).trans (h'.2 a).symm

/-! ## §3. Requests. -/

section Dispatch

variable {s s' : Server} (h : Interchangeable s s')

include h

theorem interchangeable_publish (path : FsPath) (entry : FuseEntry) :
    Interchangeable (s.withState (s.state.publish path entry))
      (s'.withState (s'.state.publish path entry)) := by
  obtain ⟨habi, tree, md, data, S, rfl, hrep, hrep'⟩ := h
  exact ⟨habi, _, _, _, _, rfl, treeRep_publish hrep path entry, PathTree.rep_insert hrep' path⟩

theorem interchangeable_ensureObject (path : FsPath) (md : FileMetadata)
    (alloc : ObjectStore → Except String UInt64 × ObjectStore) :
    (s.ensureObject path md alloc).1 = (s'.ensureObject path md alloc).1 ∧
      Interchangeable (s.ensureObject path md alloc).2 (s'.ensureObject path md alloc).2 := by
  have hpublish := fun t t' (ht : Interchangeable t t') => interchangeable_publish ht path
  obtain ⟨habi, tree, md', data, S, rfl, hrep, hrep'⟩ := h
  unfold Server.ensureObject
  simp only
  -- the ids and the objects are the same, so the same id is reused or allocated
  cases (s.state.fuseMap.lookup path).bind FuseEntry.reusableObject with
  | some id => exact ⟨rfl, hpublish _ _ ⟨habi, _, _, _, S, rfl, hrep, hrep'⟩ _⟩
  | none =>
    simp only [Server.objects]
    rcases alloc ⟨s.state.nextId, s.storage.objects⟩ with ⟨r, store⟩
    cases r with
    | ok id => exact ⟨rfl, hpublish (s.withObjects store) _ ⟨habi, _, _, _, S, rfl, hrep, hrep'⟩ _⟩
    | error err => exact ⟨rfl, habi, _, _, _, S, rfl, hrep, hrep'⟩

theorem interchangeable_getObjectPath (id : UInt64) :
    (s.getObjectPath id).1 = (s'.getObjectPath id).1 ∧
      Interchangeable (s.getObjectPath id).2 (s'.getObjectPath id).2 := by
  have hobjects : s'.objects = s.objects := by
    obtain ⟨-, tree, md, data, S, rfl, -, -⟩ := h
    rfl
  unfold Server.getObjectPath
  rw [hobjects]
  by_cases hex : s.objects.exists id = true
  · rw [if_pos hex, if_pos hex]
    exact ⟨rfl, h⟩
  · rw [if_neg hex, if_neg hex]
    exact ⟨rfl, h⟩

theorem perm_readDirAll (path : FsPath) : (s.readDirAll path).Perm (s'.readDirAll path) := by
  obtain ⟨habi, tree, md, data, S, rfl, hrep, hrep'⟩ := h
  exact (perm_of_enumerates (PathTree.enumerates_childrenOf hrep path)
    (PathTree.enumerates_childrenOf hrep' path)).filterMap _

theorem interchangeable_renameTree {src dst : FsPath} (hreq : Apart src dst ∨ src = dst) :
    Interchangeable (s.renameTree src dst).2 (s'.renameTree src dst).2 := by
  obtain ⟨habi, tree, md, data, S, rfl, hrep, hrep'⟩ := h
  -- both tables list the subtree, each in its order
  have hsub := PathTree.enumerates_subtreePaths hrep src
  have hmoves := foldl_moveEntry_perm hreq
    (perm_of_enumerates hsub (PathTree.enumerates_subtreePaths hrep' src))
    (fun old hold => ((hsub.2 old).mp hold).2) hsub.1 s.state.fuseMap
  refine ⟨habi, _, md, data, _, ?_, treeRep_renameTree (s := { s.state with fuseMap := _ }) hrep src dst,
    treeRep_renameTree (s := { s.state with pathTree := tree }) hrep' src dst⟩
  unfold Server.renameTree
  simp only [hmoves]
  rfl

/-- **One request**: the same answer, and servers that are interchangeable again. -/
theorem interchangeable_dispatch (env : DispatchEnv) {req : Request} (hreq : Orderly req) :
    SameResponse (dispatch env s req).1 (dispatch env s' req).1 ∧
      Interchangeable (dispatch env s req).2 (dispatch env s' req).2 := by
  have hensure := interchangeable_ensureObject h
  have hpublish := interchangeable_publish h
  have hrename := fun src dst (happ : Apart src dst ∨ src = dst) =>
    interchangeable_renameTree h happ
  have hobject := interchangeable_getObjectPath h
  have hlist := perm_readDirAll h
  have hself := h
  obtain ⟨habi, tree, md', data, S, rfl, hrep, hrep'⟩ := h
  cases req with
  | ensureFileObject path md => exact ⟨.inl (hensure path md _).1, (hensure path md _).2⟩
  | ensureFileObjectFromReal path md => exact ⟨.inl (hensure path md _).1, (hensure path md _).2⟩
  | getObjectPath id => exact ⟨.inl (hobject id).1, (hobject id).2⟩
  | upsertFileEntry path id md => exact ⟨.inl rfl, hpublish path _⟩
  | putFileMeta path md =>
    simp only [dispatch, Server.putFileMeta]
    cases s.state.fuseMap.lookup path with
    | none => exact ⟨.inl rfl, hself⟩
    | some entry => exact ⟨.inl rfl, habi, _, _, _, S, rfl, hrep, hrep'⟩
  | getFileMeta path => exact ⟨.inl rfl, hself⟩
  | getEntry path => exact ⟨.inl rfl, hself⟩
  | deleteFile path =>
    refine ⟨.inl rfl, habi, _, _, _, _, rfl, (PathTree.rep_remove hrep path).1, ?_⟩
    exact (PathTree.rep_remove hrep' path).1
  | renameFile src dst =>
    simp only [dispatch, Server.renameFile]
    cases s.state.fuseMap.lookup src with
    | none => exact ⟨.inl rfl, hself⟩
    | some entry =>
      refine ⟨.inl rfl, habi, _, _, _, _, rfl,
        treeRep_renameTree (s := { s.state with fuseMap := _ }) hrep src dst, ?_⟩
      exact treeRep_renameTree (s := { s.state with pathTree := tree }) hrep' src dst
  | putDir path md => exact ⟨.inl rfl, hpublish path _⟩
  | putSymlink path target md => exact ⟨.inl rfl, hpublish path _⟩
  | putWhiteout path => exact ⟨.inl rfl, hpublish path _⟩
  | deleteWhiteout path =>
    simp only [dispatch, Server.deleteWhiteout]
    cases s.state.fuseMap.lookup path with
    | none => exact ⟨.inl rfl, hself⟩
    | some existing =>
      by_cases hw : existing.entryType = .whiteout
      · simp only [if_pos hw]
        exact ⟨.inl rfl, habi, _, _, _, S, rfl, hrep, hrep'⟩
      · simp only [if_neg hw]
        exact ⟨.inl rfl, hself⟩
  | readDirAll path => exact ⟨.inr (.inl ⟨_, _, rfl, rfl, hlist path⟩), hself⟩
  | listWhiteoutUnder path =>
    refine ⟨.inr (.inr ⟨_, _, rfl, rfl, ?_⟩), hself⟩
    exact (perm_of_enumerates (PathTree.enumerates_descendantsOf hrep path)
      (PathTree.enumerates_descendantsOf hrep' path)).filter _
  | renameTree src dst => exact ⟨.inl rfl, hrename src dst hreq⟩
  | logAccess path operation pid => exact ⟨.inl rfl, hself⟩
  | flush =>
    -- the files on disk may differ; no request reads them
    simp only [dispatch, Server.flushRequest, Server.flushState, flush]
    cases env.flushIo <;> exact ⟨.inl rfl, habi, _, _, _, S, rfl, hrep, hrep'⟩

end Dispatch

end Cas.Syncing
