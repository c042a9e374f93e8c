/-
  Cas.Cli.Clean — `cas init`, `cas clean` and `cas purge`, cut short
  anywhere (`cli/clean.rs`, `cli/purge.rs`, `prepare_context` in
  `cli/run.rs`).

  A command is a list of effects on `.sandbox`; a crash or an I/O error
  leaves those of a prefix.  `remove_dir_all` goes through `data` in any
  order, so a clean that is cut short may leave the entries without the
  metadata that says which ids they use up.  What keeps the next daemon
  from handing out the ids of its entries again is the name of the shared
  memory segment, which is then empty and cannot be opened
  (`ids_stay_fresh`).
-/
import Cas.Syncing.Crash
import Cas.Syncing.Integrity

namespace Cas.Cli

open Cas.Lib Cas.Syncing

/-! ## §1. The sandbox directory. -/

/-- `.sandbox/data`: the state files and the object files. -/
structure SandboxDir where
  raw : RawFiles
  objects : FMap ObjectPath Bytes

def SandboxDir.empty : SandboxDir := ⟨fun _ => none, ∅⟩

/-- One thing that `remove_dir_all` removes. -/
inductive Removal
  | stateFile (file : StateFile)
  | object (path : ObjectPath)

inductive DirEffect
  | remove (r : Removal)
  /-- The rest of `data`, and `data` itself. -/
  | removeData
  /-- `create_dir_all` of `data/objects`. -/
  | makeDirs
  | flush (e : FlushEffect)
  | removeSandbox

/-- What an effect makes of `.sandbox`, if it exists. -/
def DirEffect.apply (s : Option SandboxDir) : DirEffect → Option SandboxDir
  | .remove (.stateFile file) => s.map fun d => { d with raw := Function.update d.raw file none }
  | .remove (.object path) => s.map fun d => { d with objects := d.objects.erase path }
  | .removeData => s.map fun _ => SandboxDir.empty
  -- also where there is no `.sandbox` yet
  | .makeDirs => some (s.getD SandboxDir.empty)
  | .flush e => s.map fun d => { d with raw := e.apply d.raw }
  | .removeSandbox => none

/-- What `init_sandbox` writes. -/
def initial (shmName : String) : Snapshot :=
  { Snapshot.fresh with
    md := { shmName, abiVersion := SUPPORTED_ABI_VERSION, nextId := 1 }
    abi := rfl }

def initSandboxEffects (fmt : Formats) (shmName : String) : List DirEffect :=
  .makeDirs :: (flushEffects fmt (initial shmName)).map .flush

/-- `cmd_clean`, past the check for a daemon; `removal` is the order in which `data` goes. -/
def cmdClean (fmt : Formats) (s : Option SandboxDir) (removal : List Removal) (suffix : String) :
    List DirEffect :=
  match s with
  | none => initSandboxEffects fmt ("/cas-" ++ suffix)
  | some _ => removal.map .remove ++ .removeData :: initSandboxEffects fmt ("/cas-" ++ suffix)

def cmdPurge (removal : List Removal) : List DirEffect := removal.map .remove ++ [.removeSandbox]

/-! ## §2. Commands. -/

/-- A project: its sandbox, if there is one, and the daemon that serves it, if one runs. -/
structure Site where
  sandbox : Option SandboxDir
  daemon : Option Server

def Site.untouched : Site := ⟨none, none⟩

inductive Command
  /-- The first `done` effects of `cas clean`; `cas init` is a forced one. -/
  | clean (force : Bool) (removal : List Removal) (suffix : String) (done : ℕ)
  | purge (removal : List Removal) (done : ℕ)
  /-- A `cas run` gets a daemon up. -/
  | start (order : IterOrder FsPath)
  | request (env : DispatchEnv) (req : Request)
  /-- The first `done` effects of a flush: an error on the way is logged and nothing else. -/
  | flush (entryOrder rowOrder : IterOrder FsPath) (done : ℕ)
  | exit

/-- What a flush of the daemon writes; a daemon has loaded the supported version. -/
def snapshotOf (s : Server) (entryOrder rowOrder : IterOrder FsPath) : Option Snapshot :=
  if h : s.state.abiVersion = SUPPORTED_ABI_VERSION then
    some ⟨s.state.snapshot, s.state.fuseMap, s.state.pathTree, entryOrder, rowOrder, h⟩
  else none

theorem snapshotOf_eq {s : Server} {entryOrder rowOrder : IterOrder FsPath} {snap : Snapshot}
    (h : snapshotOf s entryOrder rowOrder = some snap) :
    snap.fuseMap = s.state.fuseMap ∧ snap.md.nextId = s.state.nextId := by
  unfold snapshotOf at h
  split at h
  · cases h
    exact ⟨rfl, rfl⟩
  · cases h

/-- No FUSE operation sends these. -/
def neverSent : Request → Prop
  | .upsertFileEntry _ _ _ | .flush => True
  | _ => False

instance : DecidablePred neverSent := fun req => by
  cases req <;> unfold neverSent <;> infer_instance

/-- One command at a time; `none` when it is not enabled.  Only a `cas clean` without `--force`
looks for a daemon, and it finds one that listens on its socket; the other commands are not
enabled while a daemon runs, and no command while it comes up or goes down. -/
def commandStep (fmt : Formats) (s : Site) : Command → Option Site
  | .clean force removal suffix done =>
    match s.daemon with
    | some _ => if force then none else some s
    | none =>
      some { s with
        sandbox := ((cmdClean fmt s.sandbox removal suffix).take done).foldl DirEffect.apply
          s.sandbox }
  | .purge removal done =>
    match s.daemon with
    | some _ => none
    | none =>
      some { s with
        sandbox := ((cmdPurge removal).take done).foldl DirEffect.apply s.sandbox }
  | .start order =>
    match s.daemon with
    | some _ => none
    | none => s.sandbox.bind fun d =>
      match buildServerState (d.raw.storage fmt d.objects) order with
      | .error _ => none
      | .ok state =>
        -- `shm_open` has no segment of the empty name, neither to open nor to create
        if state.shmName = "" then none
        else some { s with daemon := some ⟨state, d.raw.storage fmt d.objects⟩ }
  | .request env req =>
    if neverSent req then none
    else s.daemon.map fun server => { s with daemon := some (dispatch env server req).2 }
  | .flush entryOrder rowOrder done =>
    -- the objects are on disk since their requests: a flush writes the two state files
    s.daemon.bind fun server => (snapshotOf server entryOrder rowOrder).map fun snap =>
      { s with sandbox := s.sandbox.map fun d =>
          ⟨((flushEffects fmt snap).take done).foldl FlushEffect.apply d.raw,
            server.storage.objects⟩ }
  | .exit => s.daemon.map fun _ => { s with daemon := none }

/-! ## §3. What a load finds. -/

section Load

variable (fmt : Formats) {raw : RawFiles} {objects : FMap ObjectPath Bytes}

/-- The map that `data.bin` holds, in either format. -/
def DataBin.held : DataBin → Option FuseMap
  | .syncState fuseMap _ => some fuseMap
  | .fuseMapOnly fuseMap => some fuseMap
  | .corrupt => none

/-- The map that a load finds. -/
def mapIn (raw : RawFiles) : Option FuseMap :=
  match raw .dataBin with
  | none => some ∅
  | some bytes => DataBin.held (DataBin.ofBytes fmt bytes)

/-- The metadata that a load finds. -/
def metaIn (raw : RawFiles) : Except DiskError SandboxMeta := loadMeta (raw.storage fmt ∅)

theorem load_ok {order : IterOrder FsPath} {md : SandboxMeta} {m : FuseMap} {tree : PathTree}
    (h : load (raw.storage fmt objects) order = .ok (md, m, tree)) :
    metaIn fmt raw = .ok md ∧ mapIn fmt raw = some m := by
  have hmeta : loadMeta (raw.storage fmt objects) = metaIn fmt raw := rfl
  unfold load at h
  rw [hmeta] at h
  cases hm : metaIn fmt raw with
  | error err =>
    rw [hm] at h
    cases h
  | ok md' =>
    rw [hm] at h
    unfold loadMap RawFiles.storage at h
    unfold mapIn
    cases hd : raw .dataBin with
    | none =>
      simp only [hd, Option.map_none] at h
      cases h
      exact ⟨rfl, rfl⟩
    | some bytes =>
      simp only [hd, Option.map_some] at h
      simp only
      cases hb : DataBin.ofBytes fmt bytes <;> simp only [hb] at h <;> cases h <;>
        exact ⟨rfl, rfl⟩

/-- Every id in the map on disk is below the next one, or no daemon can be started from it. -/
def Fresh (raw : RawFiles) : Prop :=
  ∀ md m, metaIn fmt raw = .ok md → md.shmName ≠ "" → mapIn fmt raw = some m →
    IdsBelow m md.nextId

/-- Every id in the map on disk is below `nextId`. -/
def DiskBelow (raw : RawFiles) (nextId : UInt64) : Prop :=
  ∀ m, mapIn fmt raw = some m → IdsBelow m nextId

theorem idsBelow_empty (nextId : UInt64) : IdsBelow ∅ nextId := by
  intro p e id h
  rw [Finmap.lookup_empty] at h
  cases h

/-! ## §4. Effects on the state files. -/

theorem metaIn_data (bytes : Option Bytes) :
    metaIn fmt (Function.update raw .dataBin bytes) = metaIn fmt raw := rfl

variable {fmt}

/-- Without its metadata the map starts no daemon; without the map there are no ids. -/
theorem fresh_remove (raw : RawFiles) (file : StateFile) :
    Fresh fmt (Function.update raw file none) := by
  intro md m hmd hname hm
  cases file with
  | metadataBin =>
    -- the default metadata names no segment
    obtain rfl : _ = md := Except.ok.inj hmd
    exact absurd rfl hname
  | dataBin =>
    obtain rfl : ∅ = m := Option.some.inj hm
    exact idsBelow_empty md.nextId

variable {s : Snapshot}

/-- A `metadata.bin` that decodes is complete. -/
theorem metaIn_cut {j : ℕ} {md : SandboxMeta} (h : metaIn fmt (Function.update raw .metadataBin
    (some ((s.metaData fmt).take j))) = .ok md) : md = s.md := by
  have hbin : metaIn fmt (Function.update raw .metadataBin (some ((s.metaData fmt).take j)))
      = loadMeta ⟨some (MetadataBin.ofBytes fmt ((s.metaData fmt).take j)), none, ∅⟩ := rfl
  rw [hbin] at h
  by_cases hj : j < (s.metaData fmt).length
  · rw [ofBytes_metaData_cut fmt s hj] at h
    cases h
  · rw [List.take_of_length_le (by omega), ofBytes_metaData, loadMeta_ok s.abi] at h
    exact (Except.ok.inj h).symm

/-- A `data.bin` whose map decodes holds the map that was written. -/
theorem mapIn_cut {j : ℕ} {m : FuseMap} (h : mapIn fmt (Function.update raw .dataBin
    (some ((s.mapData fmt).take j))) = some m) : m = s.fuseMap := by
  have hbin : mapIn fmt (Function.update raw .dataBin (some ((s.mapData fmt).take j)))
      = DataBin.held (DataBin.ofBytes fmt ((s.mapData fmt).take j)) := rfl
  rw [hbin] at h
  by_cases hj : j < (fmt.fuseMap.encode s.entries).length
  · rw [ofBytes_mapData_cut fmt s hj] at h
    cases h
  · rcases ofBytes_mapData_kept fmt s (Nat.le_of_not_lt hj) with ⟨rows, hrows⟩ | honly
    · rw [hrows] at h
      exact (Option.some.inj h).symm
    · rw [honly] at h
      exact (Option.some.inj h).symm

/-- What a prefix of a flush leaves: nothing yet, a prefix of `metadata.bin` over the old map, or
the new `metadata.bin` and a prefix of `data.bin`. -/
theorem flush_prefix (fmt : Formats) (s : Snapshot) (raw : RawFiles) (k : ℕ) :
    ((flushEffects fmt s).take k).foldl FlushEffect.apply raw = raw ∨
    (∃ j, ((flushEffects fmt s).take k).foldl FlushEffect.apply raw
      = Function.update raw .metadataBin (some ((s.metaData fmt).take j))) ∨
    ∃ j, ((flushEffects fmt s).take k).foldl FlushEffect.apply raw
      = Function.update (Function.update raw .metadataBin (some (s.metaData fmt))) .dataBin
        (some ((s.mapData fmt).take j)) := by
  rw [flushEffects, List.take_append, List.foldl_append, foldl_writeFile, foldl_writeFile,
    length_writeFile]
  -- `metadata.bin` is written first and takes its length and two steps
  by_cases h0 : k = 0
  · left
    rw [if_pos (by omega), if_pos h0]
  · right
    rw [if_neg h0]
    by_cases hk : k - ((s.metaData fmt).length + 2) = 0
    · left
      rw [if_pos hk]
      exact ⟨_, rfl⟩
    · right
      rw [if_neg hk, List.take_of_length_le (by omega : (s.metaData fmt).length ≤ k - 1)]
      exact ⟨_, rfl⟩

theorem fresh_none : Fresh fmt fun _ => none := by
  intro md m hmd hname hm
  obtain rfl : _ = md := Except.ok.inj hmd
  exact absurd rfl hname

/-- **A flush, cut short anywhere**, over a map with ids below its `next_id`. -/
theorem Fresh.flush (h : Fresh fmt raw) (hold : DiskBelow fmt raw s.md.nextId)
    (hnew : IdsBelow s.fuseMap s.md.nextId) (k : ℕ) :
    Fresh fmt (((flushEffects fmt s).take k).foldl FlushEffect.apply raw) ∧
      DiskBelow fmt (((flushEffects fmt s).take k).foldl FlushEffect.apply raw) s.md.nextId := by
  rcases flush_prefix fmt s raw k with he | ⟨j, he⟩ | ⟨j, he⟩
  · rw [he]
    exact ⟨h, hold⟩
  · rw [he]
    -- the new `next_id`, if it can be read, is over the ids of the old map
    refine ⟨fun md m hmd _ hm => ?_, hold⟩
    rw [metaIn_cut hmd]
    exact hold m hm
  · rw [he]
    refine ⟨fun md m hmd _ hm => ?_, fun m hm => ?_⟩
    · rw [metaIn_data] at hmd
      have hfull : metaIn fmt (Function.update raw .metadataBin
          (some ((s.metaData fmt).take (s.metaData fmt).length))) = .ok md := by
        rw [List.take_length]
        exact hmd
      rw [metaIn_cut hfull, mapIn_cut hm]
      exact hnew
    · rw [mapIn_cut hm]
      exact hnew

end Load

/-! ## §5. Commands that are cut short. -/

section Commands

variable {fmt : Formats} {s : Option SandboxDir}

def FreshDir (fmt : Formats) (s : Option SandboxDir) : Prop := ∀ d ∈ s, Fresh fmt d.raw

theorem FreshDir.remove (h : FreshDir fmt s) (r : Removal) :
    FreshDir fmt (DirEffect.apply s (.remove r)) := by
  intro d hd
  cases r with
  | stateFile file =>
    obtain ⟨d', hd', rfl⟩ := Option.map_eq_some_iff.mp hd
    exact fresh_remove d'.raw file
  | object path =>
    obtain ⟨d', hd', rfl⟩ := Option.map_eq_some_iff.mp hd
    exact h d' hd'

/-- Some of `data` is gone. -/
theorem FreshDir.removals (h : FreshDir fmt s) (removal : List Removal) :
    FreshDir fmt ((removal.map DirEffect.remove).foldl DirEffect.apply s) := by
  induction removal generalizing s with
  | nil => exact h
  | cons r removal ih => exact ih (h.remove r)

theorem foldl_flush (effects : List FlushEffect) (d : SandboxDir) :
    (effects.map DirEffect.flush).foldl DirEffect.apply (some d)
      = some { d with raw := effects.foldl FlushEffect.apply d.raw } := by
  induction effects generalizing d with
  | nil => rfl
  | cons e effects ih => exact ih { d with raw := e.apply d.raw }

/-- Where there is no sandbox, or nothing in it. -/
theorem makeDirs_eq (hs : ∀ d ∈ s, d = SandboxDir.empty) :
    DirEffect.apply s .makeDirs = some SandboxDir.empty := by
  show some (s.getD SandboxDir.empty) = _
  cases s with
  | none => rfl
  | some d => rw [Option.getD_some, hs d rfl]

/-- `init_sandbox` starts from nothing. -/
theorem freshDir_init (hs : ∀ d ∈ s, d = SandboxDir.empty) (suffix : String) (k : ℕ) :
    FreshDir fmt (((initSandboxEffects fmt suffix).take k).foldl DirEffect.apply s) := by
  have hbegun : FreshDir fmt s := by
    intro d hd
    rw [hs d hd]
    exact fresh_none
  cases k with
  | zero => exact hbegun
  | succ k =>
    intro d hd
    unfold initSandboxEffects at hd
    rw [List.take_succ_cons, List.foldl_cons, makeDirs_eq hs, ← List.map_take, foldl_flush] at hd
    cases hd
    refine (fresh_none.flush (fun m hm => ?_) (idsBelow_empty _) k).1
    obtain rfl : ∅ = m := Option.some.inj hm
    exact idsBelow_empty _

/-- **A clean, cut short anywhere.** -/
theorem FreshDir.clean (h : FreshDir fmt s) (removal : List Removal) (suffix : String) (k : ℕ) :
    FreshDir fmt (((cmdClean fmt s removal suffix).take k).foldl DirEffect.apply s) := by
  cases s with
  | none => exact freshDir_init (fun d hd => by cases hd) ("/cas-" ++ suffix) k
  | some d =>
    unfold cmdClean
    rw [List.take_append, List.foldl_append, ← List.map_take]
    have hgone := h.removals (removal.take k)
    -- the first effect after the removals is that nothing is left
    cases k - (removal.map DirEffect.remove).length with
    | zero => exact hgone
    | succ j =>
      rw [List.take_succ_cons, List.foldl_cons]
      refine freshDir_init (fun d' hd' => ?_) ("/cas-" ++ suffix) j
      obtain ⟨_, -, rfl⟩ := Option.map_eq_some_iff.mp hd'
      rfl

/-- **A purge, cut short anywhere.** -/
theorem FreshDir.purge (h : FreshDir fmt s) (removal : List Removal) (k : ℕ) :
    FreshDir fmt (((cmdPurge removal).take k).foldl DirEffect.apply s) := by
  unfold cmdPurge
  rw [List.take_append, List.foldl_append, ← List.map_take]
  have hgone := h.removals (removal.take k)
  cases k - (removal.map DirEffect.remove).length with
  | zero => exact hgone
  | succ j =>
    rw [List.take_succ_cons, List.take_nil]
    intro d hd
    cases hd

end Commands

/-! ## §6. The daemon. -/

section Daemon

variable {m m' : FuseMap} {nextId nextId' : UInt64}

theorem idsBelow_mono (h : IdsBelow m nextId) (hle : nextId ≤ nextId') : IdsBelow m nextId' := by
  intro p e id he hid
  have hlt := UInt64.lt_iff_toNat_lt.mp (h p e id he hid)
  rw [UInt64.le_iff_toNat_le] at hle
  rw [UInt64.lt_iff_toNat_lt]
  omega

theorem idsBelow_reshuffle (h : IdsBelow m nextId) (hr : Reshuffles m m') :
    IdsBelow m' nextId := by
  intro p e id he hid
  obtain ⟨origin, -, horigin⟩ := hr
  obtain ⟨f, hf, hsame⟩ := horigin p e he
  exact h (origin p) f id hf (hsame.2.1.trans hid)

theorem idsBelow_insert (h : IdsBelow m nextId) (path : FsPath) {e : FuseEntry}
    (he : ∀ id, e.objectId = some id → id < nextId) : IdsBelow (m.insert path e) nextId := by
  intro p f id hf hid
  rw [lookup_insert_ite] at hf
  split at hf
  · cases hf
    exact he id hid
  · exact h p f id hf hid

/-- Ids below the next one again, and none that was used comes back. -/
def Steps (s s' : Server) : Prop := BelowNext s' ∧ s.state.nextId ≤ s'.state.nextId

variable {s : Server}

theorem steps_ensureObject (h : BelowNext s) (path : FsPath) (md : FileMetadata)
    {alloc : ObjectStore → Except String UInt64 × ObjectStore} {data : Option Bytes}
    (halloc : s.objects.Allocates data (alloc s.objects))
    (hroom : ((s.state.fuseMap.lookup path).bind (·.reusableObject)).isNone = true →
      s.state.nextId.toNat + 1 < 2 ^ 64) :
    Steps s (s.ensureObject path md alloc).2 := by
  unfold Server.ensureObject
  cases hr : (s.state.fuseMap.lookup path).bind (·.reusableObject) with
  | some id =>
    obtain ⟨e, he, hid⟩ := Option.bind_eq_some_iff.mp hr
    obtain ⟨ht, hi, hl⟩ := reusableObject_eq_some hid
    refine ⟨idsBelow_insert h path fun id' hid' => ?_, UInt64.le_refl _⟩
    cases hid'
    exact h path e id he hi
  | none =>
    have hlt : s.state.nextId < s.state.nextId + 1 := by
      rw [UInt64.lt_iff_toNat_lt, UInt64.toNat_add]
      have hsmall := hroom (by rw [hr]; rfl)
      rw [Nat.mod_eq_of_lt (by simpa using hsmall)]
      simp
    have hle : s.state.nextId ≤ s.state.nextId + 1 := UInt64.le_of_lt hlt
    have hburn : (alloc s.objects).2.nextId = s.state.nextId + 1 := halloc.burns
    rcases hres : alloc s.objects with ⟨r, store⟩
    rw [hres] at hburn
    have hnext : store.nextId = s.state.nextId + 1 := hburn
    cases r with
    | error err =>
      -- a copy that fails has used up its id all the same
      refine ⟨?_, ?_⟩
      · show IdsBelow s.state.fuseMap store.nextId
        rw [hnext]
        exact idsBelow_mono h hle
      · show s.state.nextId ≤ store.nextId
        rw [hnext]
        exact hle
    | ok id =>
      obtain ⟨hid, -⟩ := halloc.onOk id (by rw [hres])
      refine ⟨?_, ?_⟩
      · show IdsBelow (s.state.fuseMap.insert path (.ofObject md id)) store.nextId
        rw [hnext]
        refine idsBelow_insert (idsBelow_mono h hle) path fun id' hid' => ?_
        cases hid'
        rw [hid]
        exact hlt
      · show s.state.nextId ≤ store.nextId
        rw [hnext]
        exact hle

theorem Steps.same {m : FuseMap} (h : IdsBelow m s.state.nextId) {s' : Server}
    (hmap : s'.state.fuseMap = m) (hnext : s'.state.nextId = s.state.nextId) : Steps s s' := by
  unfold Steps
  rw [hnext]
  refine ⟨?_, UInt64.le_refl _⟩
  show IdsBelow s'.state.fuseMap s'.state.nextId
  rw [hmap, hnext]
  exact h

/-- **One request.** -/
theorem steps_dispatch (h : BelowNext s) (env : DispatchEnv) {req : Request}
    (hreq : ¬ neverSent req)
    (hroom : s.allocates req = true → s.state.nextId.toNat + 1 < 2 ^ 64) :
    Steps s (dispatch env s req).2 := by
  have hbelow : IdsBelow s.state.fuseMap s.state.nextId := h
  have hplain : ∀ path (e : FuseEntry), e.objectId = none →
      IdsBelow (s.state.fuseMap.insert path e) s.state.nextId := by
    intro path e he
    refine idsBelow_insert hbelow path fun id hid => ?_
    rw [he] at hid
    cases hid
  have hstill : Steps s s := .same hbelow rfl rfl
  cases req with
  | ensureFileObject path md =>
    exact steps_ensureObject h path md (ObjectStore.allocates_put _ _ _) hroom
  | ensureFileObjectFromReal path md =>
    exact steps_ensureObject h path md (ObjectStore.allocates_putCopyFrom _ _ _) hroom
  | getObjectPath id =>
    simp only [dispatch, Server.getObjectPath]
    split <;> exact hstill
  | upsertFileEntry path id md => exact absurd trivial hreq
  | putFileMeta path md =>
    simp only [dispatch, Server.putFileMeta]
    cases he : s.state.fuseMap.lookup path with
    | none => exact hstill
    | some e =>
      have hsame : SameObject e { e with metadata := md } := ⟨rfl, rfl, rfl⟩
      exact .same (idsBelow_reshuffle hbelow (reshuffles_setMeta he hsame)) rfl rfl
  | deleteFile path => exact .same (idsBelow_reshuffle hbelow (reshuffles_erase _ path)) rfl rfl
  | renameFile src dst =>
    simp only [dispatch, Server.renameFile]
    cases he : s.state.fuseMap.lookup src with
    | none => exact hstill
    | some e => exact .same (idsBelow_reshuffle hbelow (reshuffles_move he dst)) rfl rfl
  | putDir path md => exact .same (hplain path _ rfl) rfl rfl
  | putSymlink path target md => exact .same (hplain path _ rfl) rfl rfl
  | putWhiteout path => exact .same (hplain path _ rfl) rfl rfl
  | deleteWhiteout path =>
    simp only [dispatch, Server.deleteWhiteout]
    cases he : s.state.fuseMap.lookup path with
    | none => exact hstill
    | some e =>
      by_cases hw : e.entryType = .whiteout
      · simp only [if_pos hw]
        exact .same (idsBelow_reshuffle hbelow (reshuffles_erase _ path)) rfl rfl
      · simp only [if_neg hw]
        exact hstill
  | renameTree src dst =>
    exact .same (idsBelow_reshuffle hbelow (reshuffles_foldl_moveEntry src dst _ _)) rfl rfl
  | flush => exact absurd trivial hreq
  | getFileMeta path => exact hstill
  | getEntry path => exact hstill
  | readDirAll path => exact hstill
  | listWhiteoutUnder path => exact hstill
  | logAccess path operation pid => exact hstill

end Daemon

/-! ## §7. Whole runs. -/

/-- The counter of ids does not wrap. -/
def RoomLeft (s : Site) : Command → Prop
  | .request _ req => ∀ server ∈ s.daemon, server.allocates req = true →
    server.state.nextId.toNat + 1 < 2 ^ 64
  | _ => True

instance (s : Site) : DecidablePred (RoomLeft s) := fun command => by
  cases command <;> unfold RoomLeft <;> infer_instance

/-- No daemon holds an entry whose id it, or one that is started from the disk, hands out again. -/
structure Site.Ok (fmt : Formats) (s : Site) : Prop where
  sandbox : FreshDir fmt s.sandbox
  daemon : ∀ server ∈ s.daemon, BelowNext server ∧
    ∀ d ∈ s.sandbox, DiskBelow fmt d.raw server.state.nextId

section Runs

variable {fmt : Formats} {s s' : Site}

theorem ok_untouched : Site.untouched.Ok fmt where
  sandbox d hd := by cases hd
  daemon server hserver := by cases hserver

theorem DiskBelow.mono {raw : RawFiles} {nextId nextId' : UInt64} (h : DiskBelow fmt raw nextId)
    (hle : nextId ≤ nextId') : DiskBelow fmt raw nextId' := fun m hm => idsBelow_mono (h m hm) hle

/-- A command while no daemon runs. -/
theorem Site.Ok.idle {sandbox : Option SandboxDir} (h : FreshDir fmt sandbox) :
    Site.Ok fmt ⟨sandbox, none⟩ where
  sandbox := h
  daemon server hserver := by cases hserver

/-- A daemon starts from what a load finds. -/
theorem Site.Ok.start (h : s.Ok fmt) {d : SandboxDir} (hdir : s.sandbox = some d)
    {order : IterOrder FsPath} {state : ServerState}
    (hbuild : buildServerState (d.raw.storage fmt d.objects) order = .ok state)
    (hname : state.shmName ≠ "") (storage : Storage) :
    Site.Ok fmt { s with daemon := some ⟨state, storage⟩ } := by
  have hfresh := h.sandbox d hdir
  unfold buildServerState at hbuild
  cases hload : load (d.raw.storage fmt d.objects) order with
  | error err =>
    rw [hload] at hbuild
    cases hbuild
  | ok r =>
    obtain ⟨md, m, tree⟩ := r
    rw [hload] at hbuild
    cases hbuild
    obtain ⟨hmeta, hmap⟩ := load_ok fmt hload
    -- the only use of the name: with an empty one `Fresh` promises nothing
    have hids : IdsBelow m md.nextId := hfresh md m hmeta hname hmap
    refine ⟨h.sandbox, fun server hserver => ?_⟩
    cases hserver
    refine ⟨hids, fun d' hd' m' hm' => ?_⟩
    rw [hdir] at hd'
    cases hd'
    rw [hmap] at hm'
    cases hm'
    exact hids

/-- **One command**, cut short or not. -/
theorem ok_step (command : Command) (h : s.Ok fmt) (hroom : RoomLeft s command)
    (hstep : commandStep fmt s command = some s') : s'.Ok fmt := by
  unfold commandStep at hstep
  cases command with
  | clean force removal suffix done =>
    cases hd : s.daemon with
    | some server =>
      simp only [hd] at hstep
      cases force with
      | true => cases hstep
      | false =>
        cases hstep
        exact h
    | none =>
      simp only [hd] at hstep
      cases hstep
      exact Site.Ok.idle (h.sandbox.clean removal suffix done)
  | purge removal done =>
    cases hd : s.daemon with
    | some server =>
      simp only [hd] at hstep
      cases hstep
    | none =>
      simp only [hd] at hstep
      cases hstep
      exact Site.Ok.idle (h.sandbox.purge removal done)
  | start order =>
    cases hd : s.daemon with
    | some server =>
      simp only [hd] at hstep
      cases hstep
    | none =>
      simp only [hd] at hstep
      obtain ⟨d, hdir, hstep⟩ := Option.bind_eq_some_iff.mp hstep
      cases hbuild : buildServerState (d.raw.storage fmt d.objects) order with
      | error err =>
        simp only [hbuild] at hstep
        cases hstep
      | ok state =>
        simp only [hbuild] at hstep
        by_cases hname : state.shmName = ""
        · rw [if_pos hname] at hstep
          cases hstep
        · rw [if_neg hname] at hstep
          cases hstep
          exact h.start hdir hbuild hname _
  | request env req =>
    simp only at hstep
    by_cases hreq : neverSent req
    · rw [if_pos hreq] at hstep
      cases hstep
    · rw [if_neg hreq] at hstep
      obtain ⟨server, hserver, rfl⟩ := Option.map_eq_some_iff.mp hstep
      obtain ⟨hbelow, hdisk⟩ := h.daemon server hserver
      obtain ⟨hnext, hle⟩ := steps_dispatch hbelow env hreq (hroom server hserver)
      refine ⟨h.sandbox, fun server' hserver' => ?_⟩
      cases hserver'
      exact ⟨hnext, fun d hd => (hdisk d hd).mono hle⟩
  | flush entryOrder rowOrder done =>
    obtain ⟨server, hserver, hstep⟩ := Option.bind_eq_some_iff.mp hstep
    obtain ⟨snap, hsnap, rfl⟩ := Option.map_eq_some_iff.mp hstep
    obtain ⟨hbelow, hdisk⟩ := h.daemon server hserver
    obtain ⟨hmap, hnext⟩ := snapshotOf_eq hsnap
    have hnew : IdsBelow snap.fuseMap snap.md.nextId := by
      rw [hmap, hnext]
      exact hbelow
    have hkept : ∀ d ∈ s.sandbox, _ := fun d hd =>
      (h.sandbox d hd).flush (hnext ▸ hdisk d hd) hnew done
    refine ⟨fun d hd => ?_, fun server' hserver' => ?_⟩
    · obtain ⟨d', hd', rfl⟩ := Option.map_eq_some_iff.mp hd
      exact (hkept d' hd').1
    · have hsame : server' ∈ s.daemon := hserver'
      rw [hserver] at hsame
      cases hsame
      refine ⟨hbelow, fun d hd => ?_⟩
      obtain ⟨d', hd', rfl⟩ := Option.map_eq_some_iff.mp hd
      rw [← hnext]
      exact (hkept d' hd').2
  | exit =>
    obtain ⟨server, -, rfl⟩ := Option.map_eq_some_iff.mp hstep
    exact ⟨h.sandbox, fun server' hserver' => by cases hserver'⟩

/-- A daemon serves `/a`; the clean after it is stopped once the metadata is gone, and a second one
goes through. -/
def cleanedTwice : List Command :=
  [.clean true [] "x" 100, .start .sorted,
   .request .quiet (.ensureFileObject [Name.a] .zero), .flush .sorted .sorted 100, .exit,
   .clean false [.stateFile .metadataBin] "y" 1,
   .clean false [.stateFile .dataBin] "y" 100, .start .sorted,
   .request .quiet (.ensureFileObject [Name.b] .zero)]

end Runs

/-! ## §8. A clean that goes through. -/

/-- A flush that goes through leaves what it wrote, whatever was there. -/
theorem flush_all (fmt : Formats) (s : Snapshot) (raw : RawFiles) :
    (flushEffects fmt s).foldl FlushEffect.apply raw = completed fmt s := by
  have hwrite : ∀ file bytes (raw : RawFiles), (writeFile file bytes).foldl FlushEffect.apply raw
      = Function.update raw file (some bytes) := by
    intro file bytes raw
    have hall := foldl_writeFile file bytes raw (writeFile file bytes).length
    rw [List.take_length, length_writeFile, if_neg (by omega)] at hall
    rw [hall, List.take_of_length_le (by omega)]
  rw [flushEffects, List.foldl_append, hwrite, hwrite]
  funext file
  cases file <;> rfl

/-- `.sandbox` after `init_sandbox`. -/
def SandboxDir.initial (fmt : Formats) (shmName : String) : SandboxDir :=
  ⟨completed fmt (Cli.initial shmName), ∅⟩

/-- The daemon that starts from it: no entries, ids from 1. -/
def initialServer (fmt : Formats) (shmName : String) : Server where
  state :=
    { nextId := 1, fuseMap := ∅, pathTree := PathTree.fromRows (PathTree.new.rows .sorted)
      shmName, abiVersion := SUPPORTED_ABI_VERSION }
  storage := (completed fmt (initial shmName)).storage fmt ∅

theorem initSandbox_all (fmt : Formats) (shmName : String) {s : Option SandboxDir}
    (hs : ∀ d ∈ s, d = SandboxDir.empty) :
    (initSandboxEffects fmt shmName).foldl DirEffect.apply s = some (.initial fmt shmName) := by
  unfold initSandboxEffects
  rw [List.foldl_cons, makeDirs_eq hs, foldl_flush, flush_all]
  rfl

theorem cmdClean_all (fmt : Formats) (s : Option SandboxDir) (removal : List Removal)
    (suffix : String) : (cmdClean fmt s removal suffix).foldl DirEffect.apply s
      = some (.initial fmt ("/cas-" ++ suffix)) := by
  cases s with
  | none => exact initSandbox_all fmt _ fun d hd => by cases hd
  | some d =>
    unfold cmdClean
    rw [List.foldl_append, List.foldl_cons]
    apply initSandbox_all
    intro d' hd'
    obtain ⟨_, -, rfl⟩ := Option.map_eq_some_iff.mp hd'
    rfl

theorem start_initial (fmt : Formats) {shmName : String} (hname : shmName ≠ "")
    (order : IterOrder FsPath) :
    commandStep fmt ⟨some (.initial fmt shmName), none⟩ (.start order)
      = some ⟨some (.initial fmt shmName), some (initialServer fmt shmName)⟩ := by
  have hload : load ((completed fmt (initial shmName)).storage fmt ∅) order
      = .ok ((initial shmName).md, ∅, PathTree.fromRows (PathTree.new.rows .sorted)) := by
    have hstored := storage_completed fmt (initial shmName) ⟨none, none, ∅⟩
    rw [hstored]
    exact load_flush _ _ _ _ _ _ rfl
  have hbuild : buildServerState ((completed fmt (initial shmName)).storage fmt ∅) order
      = .ok (initialServer fmt shmName).state := by
    unfold buildServerState
    rw [hload]
    rfl
  unfold commandStep
  simp only [Option.bind_some, SandboxDir.initial, hbuild]
  rw [if_neg (show ¬ (initialServer fmt shmName).state.shmName = "" from hname)]
  rfl

/-- **A complete clean heals any sandbox**, torn, half cleaned or of another version: the next
daemon starts, with no entries and with ids from 1. -/
theorem clean_heals (fmt : Formats) (sandbox : Option SandboxDir) (force : Bool)
    (removal : List Removal) (suffix : String) {done : ℕ}
    (hdone : (cmdClean fmt sandbox removal suffix).length ≤ done) (order : IterOrder FsPath) :
    run (commandStep fmt) ⟨sandbox, none⟩ [.clean force removal suffix done, .start order]
      = some ⟨some (.initial fmt ("/cas-" ++ suffix)),
          some (initialServer fmt ("/cas-" ++ suffix))⟩ := by
  have hname : "/cas-" ++ suffix ≠ "" := by
    intro h
    have hlen := congrArg String.length h
    simp at hlen
  have hclean : commandStep fmt ⟨sandbox, none⟩ (.clean force removal suffix done)
      = some ⟨some (.initial fmt ("/cas-" ++ suffix)), none⟩ := by
    unfold commandStep
    simp only [List.take_of_length_le hdone, cmdClean_all]
  rw [run_cons, hclean, Option.bind_some, run_cons, start_initial fmt hname, Option.bind_some,
    run_nil]

end Cas.Cli
