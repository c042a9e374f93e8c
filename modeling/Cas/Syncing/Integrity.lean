/-
  Cas.Syncing.Integrity — object ids are never shared, never dangling.

  `n` allocations use up the ids `1 … n`.  The invariant `IdsUpTo n` says
  that every id in the map is one of these, that no two paths hold the
  same one, and that its file exists.  Requests either move entries
  around without copying one (`Reshuffles`), publish an entry without an
  object, or publish the id just allocated.
-/
import Cas.Lib.Runs
import Cas.Syncing.Server

namespace Cas.Syncing

open Cas.Lib

/-! ## §1. The invariant. -/

/-- An object id exactly for a `File`, a link target exactly for a `Symlink`. -/
def FuseEntry.WellShaped (e : FuseEntry) : Prop :=
  (e.objectId.isSome ↔ e.entryType = .file) ∧ (e.symlinkTarget.isSome ↔ e.entryType = .symlink)

theorem wellShaped_ofObject (md : FileMetadata) (id : UInt64) :
    (FuseEntry.ofObject md id).WellShaped := by
  simp [FuseEntry.WellShaped, FuseEntry.ofObject]

theorem wellShaped_ofDir (md : FileMetadata) : (FuseEntry.ofDir md).WellShaped := by
  simp [FuseEntry.WellShaped, FuseEntry.ofDir]

theorem wellShaped_ofSymlink (target : List UInt8) (md : FileMetadata) :
    (FuseEntry.ofSymlink target md).WellShaped := by
  simp [FuseEntry.WellShaped, FuseEntry.ofSymlink]

theorem wellShaped_whiteout : FuseEntry.whiteout.WellShaped := by
  simp [FuseEntry.WellShaped, FuseEntry.whiteout]

/-- The ids in the map are among `1 … n`, each at one path only, each with its file. -/
structure IdsUpTo (n : Nat) (fuseMap : FuseMap) (files : FMap ObjectPath Bytes) : Prop where
  shape : ∀ p e, fuseMap.lookup p = some e → e.WellShaped
  range : ∀ p e id, fuseMap.lookup p = some e → e.objectId = some id →
    1 ≤ id.toNat ∧ id.toNat ≤ n
  stored : ∀ p e id, fuseMap.lookup p = some e → e.objectId = some id →
    (files.lookup (objectPath id)).isSome
  distinct : ∀ p q e f id, fuseMap.lookup p = some e → fuseMap.lookup q = some f →
    e.objectId = some id → f.objectId = some id → p = q

theorem idsUpTo_empty (n : Nat) (files : FMap ObjectPath Bytes) : IdsUpTo n ∅ files where
  shape p e h := by rw [Finmap.lookup_empty] at h; cases h
  range p e id h := by rw [Finmap.lookup_empty] at h; cases h
  stored p e id h := by rw [Finmap.lookup_empty] at h; cases h
  distinct p q e f id h := by rw [Finmap.lookup_empty] at h; cases h

/-! ## §2. Requests that move entries around. -/

/-- The two entries differ in their metadata only. -/
def SameObject (e f : FuseEntry) : Prop :=
  e.entryType = f.entryType ∧ e.objectId = f.objectId ∧ e.symlinkTarget = f.symlinkTarget

/-- Every entry of `m'` comes from an entry of `m`, different ones from different ones. -/
def Reshuffles (m m' : FuseMap) : Prop :=
  ∃ origin : FsPath → FsPath,
    (∀ p q, p ∈ m' → q ∈ m' → origin p = origin q → p = q) ∧
    ∀ p e', m'.lookup p = some e' → ∃ e, m.lookup (origin p) = some e ∧ SameObject e e'

theorem Reshuffles.refl (m : FuseMap) : Reshuffles m m :=
  ⟨id, fun _ _ _ _ h => h, fun _ e h => ⟨e, h, rfl, rfl, rfl⟩⟩

theorem Reshuffles.trans {m₁ m₂ m₃ : FuseMap} (h : Reshuffles m₁ m₂) (h' : Reshuffles m₂ m₃) :
    Reshuffles m₁ m₃ := by
  obtain ⟨o, hinj, ho⟩ := h
  obtain ⟨o', hinj', ho'⟩ := h'
  have hmem : ∀ p, p ∈ m₃ → o' p ∈ m₂ := by
    intro p hp
    obtain ⟨e, he⟩ := Finmap.mem_iff.mp hp
    obtain ⟨e₂, he₂, -⟩ := ho' p e he
    exact Finmap.mem_iff.mpr ⟨e₂, he₂⟩
  refine ⟨o ∘ o', fun p q hp hq h => ?_, fun p e he => ?_⟩
  · exact hinj' p q hp hq (hinj _ _ (hmem p hp) (hmem q hq) h)
  · obtain ⟨e₂, he₂, hs₂⟩ := ho' p e he
    obtain ⟨e₁, he₁, hs₁⟩ := ho (o' p) e₂ he₂
    exact ⟨e₁, he₁, hs₁.1.trans hs₂.1, hs₁.2.1.trans hs₂.2.1, hs₁.2.2.trans hs₂.2.2⟩

theorem reshuffles_erase (m : FuseMap) (path : FsPath) : Reshuffles m (m.erase path) := by
  refine ⟨id, fun _ _ _ _ h => h, fun p e he => ⟨e, ?_, rfl, rfl, rfl⟩⟩
  rw [lookup_erase_ite] at he
  split at he
  · cases he
  · exact he

/-- Writing an entry back with other metadata. -/
theorem reshuffles_setMeta {m : FuseMap} {path : FsPath} {e e' : FuseEntry}
    (he : m.lookup path = some e) (hs : SameObject e e') : Reshuffles m (m.insert path e') := by
  refine ⟨id, fun _ _ _ _ h => h, fun p f hf => ?_⟩
  rw [lookup_insert_ite] at hf
  split at hf
  · next hp =>
    cases hf
    exact ⟨e, by rw [hp]; exact he, hs⟩
  · exact ⟨f, hf, rfl, rfl, rfl⟩

/-- Moving one entry, over whatever was at its new place. -/
theorem reshuffles_move {m : FuseMap} {src : FsPath} {e : FuseEntry} (he : m.lookup src = some e)
    (dst : FsPath) : Reshuffles m ((m.erase src).insert dst e) := by
  refine ⟨fun p => if p = dst then src else p, fun p q hp hq h => ?_, fun p f hf => ?_⟩
  · have hother : ∀ r, r ∈ (m.erase src).insert dst e → r ≠ dst → r ≠ src := by
      intro r hr hne
      rcases Finmap.mem_insert.mp hr with h' | h'
      · exact absurd h' hne
      · exact (Finmap.mem_erase.mp h').1
    by_cases h1 : p = dst
    · by_cases h2 : q = dst
      · rw [h1, h2]
      · simp only [h1, h2, if_true, if_false] at h
        exact absurd h.symm (hother q hq h2)
    · by_cases h2 : q = dst
      · simp only [h1, h2, if_true, if_false] at h
        exact absurd h (hother p hp h1)
      · simpa only [h1, h2, if_false] using h
  · rw [lookup_insert_ite] at hf
    split at hf
    · next hp =>
      cases hf
      refine ⟨e, ?_, rfl, rfl, rfl⟩
      show m.lookup (if p = dst then src else p) = some e
      rw [if_pos hp]
      exact he
    · next hp =>
      rw [lookup_erase_ite] at hf
      split at hf
      · cases hf
      · refine ⟨f, ?_, rfl, rfl, rfl⟩
        show m.lookup (if p = dst then src else p) = some f
        rw [if_neg hp]
        exact hf

/-- The loop of `RenameTree` only moves entries, also when source and destination overlap. -/
theorem reshuffles_foldl_moveEntry (src dst : FsPath) (olds : List FsPath) :
    ∀ m : FuseMap, Reshuffles m (olds.foldl (ServerState.moveEntry src dst) m) := by
  induction olds with
  | nil => intro m; exact Reshuffles.refl m
  | cons old olds ih =>
    intro m
    refine Reshuffles.trans ?_ (ih (ServerState.moveEntry src dst m old))
    unfold ServerState.moveEntry
    cases he : m.lookup old with
    | none => exact Reshuffles.refl m
    | some e => exact reshuffles_move he _

theorem IdsUpTo.reshuffle {n : Nat} {m m' : FuseMap} {files : FMap ObjectPath Bytes}
    (h : IdsUpTo n m files) (hr : Reshuffles m m') : IdsUpTo n m' files := by
  obtain ⟨o, hinj, ho⟩ := hr
  constructor
  · intro p e' he'
    obtain ⟨e, he, ht, hid, hl⟩ := ho p e' he'
    have hshape := h.shape (o p) e he
    unfold FuseEntry.WellShaped at hshape ⊢
    rw [← ht, ← hid, ← hl]
    exact hshape
  · intro p e' id he' hid'
    obtain ⟨e, he, -, hid, -⟩ := ho p e' he'
    exact h.range (o p) e id he (hid.trans hid')
  · intro p e' id he' hid'
    obtain ⟨e, he, -, hid, -⟩ := ho p e' he'
    exact h.stored (o p) e id he (hid.trans hid')
  · intro p q e' f' id hp hq hid₁ hid₂
    obtain ⟨e, he, -, hide, -⟩ := ho p e' hp
    obtain ⟨f, hf, -, hidf, -⟩ := ho q f' hq
    apply hinj p q (Finmap.mem_iff.mpr ⟨e', hp⟩) (Finmap.mem_iff.mpr ⟨f', hq⟩)
    exact h.distinct (o p) (o q) e f id he hf (hide.trans hid₁) (hidf.trans hid₂)

/-! ## §3. Requests that publish an entry. -/

/-- Publishing a directory, a symbolic link or a whiteout. -/
theorem IdsUpTo.putPlain {n : Nat} {m : FuseMap} {files : FMap ObjectPath Bytes}
    (h : IdsUpTo n m files) (path : FsPath) {e : FuseEntry} (hshape : e.WellShaped)
    (hid : e.objectId = none) : IdsUpTo n (m.insert path e) files := by
  -- an id found after the insert was found at the same path before it
  have hold : ∀ p f id, (m.insert path e).lookup p = some f → f.objectId = some id →
      m.lookup p = some f := by
    intro p f id hf hfid
    rw [lookup_insert_ite] at hf
    split at hf
    · cases hf
      rw [hid] at hfid
      cases hfid
    · exact hf
  constructor
  · intro p f hf
    rw [lookup_insert_ite] at hf
    split at hf
    · cases hf
      exact hshape
    · exact h.shape p f hf
  · intro p f id hf hfid
    exact h.range p f id (hold p f id hf hfid) hfid
  · intro p f id hf hfid
    exact h.stored p f id (hold p f id hf hfid) hfid
  · intro p q f g id hf hg hfid hgid
    exact h.distinct p q f g id (hold p f id hf hfid) (hold q g id hg hgid) hfid hgid

/-- The files of all old ids survive an allocation, whatever became of the new one. -/
theorem IdsUpTo.allocate {n : Nat} {m : FuseMap} {store : ObjectStore} {data : Option Bytes}
    {r : Except String UInt64 × ObjectStore} (h : IdsUpTo n m store.files)
    (hnext : store.nextId.toNat = n + 1) (hr : store.Allocates data r) :
    IdsUpTo (n + 1) m r.2.files where
  shape := h.shape
  range p e id he hid := by
    have := h.range p e id he hid
    omega
  stored p e id he hid := by
    have hne : objectPath id ≠ objectPath store.nextId := by
      intro e'
      have hid' : id = store.nextId := objectPath_injective e'
      have := h.range p e id he hid
      rw [hid'] at this
      omega
    rw [hr.frame _ hne]
    exact h.stored p e id he hid
  distinct := h.distinct

/-- Publishing the id that was just allocated. -/
theorem IdsUpTo.putFresh {n : Nat} {m : FuseMap} {files : FMap ObjectPath Bytes}
    (h : IdsUpTo (n + 1) m files) (hfresh : ∀ p e id, m.lookup p = some e → e.objectId = some id →
      id.toNat ≤ n) (path : FsPath) (md : FileMetadata) {id : UInt64} (hid : id.toNat = n + 1)
    (hfile : (files.lookup (objectPath id)).isSome) :
    IdsUpTo (n + 1) (m.insert path (.ofObject md id)) files := by
  have hcases : ∀ p f i, (m.insert path (.ofObject md id)).lookup p = some f →
      f.objectId = some i → (p = path ∧ i = id) ∨ (i ≠ id ∧ m.lookup p = some f) := by
    intro p f i hf hi
    rw [lookup_insert_ite] at hf
    split at hf
    · next hp =>
      cases hf
      exact Or.inl ⟨hp, (Option.some.inj hi).symm⟩
    · refine Or.inr ⟨?_, hf⟩
      intro e
      have := hfresh p f i hf hi
      rw [e] at this
      omega
  constructor
  · intro p f hf
    rw [lookup_insert_ite] at hf
    split at hf
    · cases hf
      exact wellShaped_ofObject md id
    · exact h.shape p f hf
  · intro p f i hf hi
    rcases hcases p f i hf hi with ⟨-, rfl⟩ | ⟨-, hf⟩
    · omega
    · exact h.range p f i hf hi
  · intro p f i hf hi
    rcases hcases p f i hf hi with ⟨-, rfl⟩ | ⟨-, hf⟩
    · exact hfile
    · exact h.stored p f i hf hi
  · intro p q f g i hf hg hfi hgi
    rcases hcases p f i hf hfi with ⟨rfl, h1⟩ | ⟨hne, hf⟩
    · rcases hcases q g i hg hgi with ⟨rfl, -⟩ | ⟨hne, -⟩
      · rfl
      · exact absurd h1 hne
    · rcases hcases q g i hg hgi with ⟨rfl, h2⟩ | ⟨-, hg⟩
      · exact absurd h2 hne
      · exact h.distinct p q f g i hf hg hfi hgi

/-! ## §4. One request. -/

/-- The request reaches the allocator: there is no object to reuse. -/
def Server.allocates (s : Server) : Request → Bool
  | .ensureFileObject path _ => ((s.state.fuseMap.lookup path).bind (·.reusableObject)).isNone
  | .ensureFileObjectFromReal path _ =>
    ((s.state.fuseMap.lookup path).bind (·.reusableObject)).isNone
  | _ => false

/-- The ids handed out so far are `1 … n`, and `nextId` is the next number, modulo `2 ^ 64`. -/
structure Allocated (n : Nat) (s : Server) : Prop where
  ids : IdsUpTo n s.state.fuseMap s.storage.objects
  next : s.state.nextId = UInt64.ofNat (n + 1)
  abi : s.state.abiVersion = SUPPORTED_ABI_VERSION

/-- A request that allocates nothing and leaves the files alone. -/
theorem Allocated.of_ids {n : Nat} {s s' : Server} (h : Allocated n s)
    (hids : IdsUpTo n s'.state.fuseMap s.storage.objects)
    (hfiles : s'.storage.objects = s.storage.objects) (hnext : s'.state.nextId = s.state.nextId)
    (habi : s'.state.abiVersion = s.state.abiVersion) : Allocated n s' where
  ids := by rw [hfiles]; exact hids
  next := hnext.trans h.next
  abi := habi.trans h.abi

theorem reusableObject_eq_some {e : FuseEntry} {id : UInt64} (h : e.reusableObject = some id) :
    e.entryType = .file ∧ e.objectId = some id ∧ e.symlinkTarget = none := by
  unfold FuseEntry.reusableObject at h
  split at h
  · next hc => exact ⟨hc.1, h, hc.2⟩
  · cases h

theorem allocated_ensureObject {n : Nat} {s : Server} (h : Allocated n s) (path : FsPath)
    (md : FileMetadata) {alloc : ObjectStore → Except String UInt64 × ObjectStore}
    {data : Option Bytes} (halloc : s.objects.Allocates data (alloc s.objects))
    (hfew : ((s.state.fuseMap.lookup path).bind (·.reusableObject)).isNone = true →
      n + 1 < 2 ^ 64) :
    Allocated
      (n + (((s.state.fuseMap.lookup path).bind (·.reusableObject)).isNone).toNat)
      (s.ensureObject path md alloc).2 := by
  unfold Server.ensureObject
  cases hr : (s.state.fuseMap.lookup path).bind (·.reusableObject) with
  | some id =>
    obtain ⟨e, he, hid⟩ := Option.bind_eq_some_iff.mp hr
    obtain ⟨ht, hi, hl⟩ := reusableObject_eq_some hid
    exact h.of_ids (h.ids.reshuffle (reshuffles_setMeta he ⟨ht, hi, hl⟩)) rfl rfl rfl
  | none =>
    have hnext : s.state.nextId.toNat = n + 1 := by
      rw [h.next, UInt64.toNat_ofNat']
      exact Nat.mod_eq_of_lt (hfew (by rw [hr]; rfl))
    have hold : IdsUpTo n s.state.fuseMap s.objects.files := h.ids
    have hids := hold.allocate hnext halloc
    have hburn : (alloc s.objects).2.nextId = UInt64.ofNat (n + 1 + 1) := by
      rw [halloc.burns, UInt64.ofNat_add (n + 1) 1, ← h.next]
      rfl
    rcases hres : alloc s.objects with ⟨r, store⟩
    rw [hres] at hids hburn
    cases r with
    | error err => exact ⟨hids, hburn, h.abi⟩
    | ok id =>
      obtain ⟨rfl, d, -, hd⟩ := halloc.onOk id (by rw [hres])
      rw [hres] at hd
      refine ⟨hids.putFresh ?_ path md hnext (by rw [hd]; rfl), hburn, h.abi⟩
      intro p e id he hid
      exact (h.ids.range p e id he hid).2

theorem allocated_putFileMeta {n : Nat} {s : Server} (h : Allocated n s) (path : FsPath)
    (md : FileMetadata) : Allocated n (s.putFileMeta path md).2 := by
  unfold Server.putFileMeta
  cases he : s.state.fuseMap.lookup path with
  | none => exact h
  | some e =>
    exact h.of_ids (h.ids.reshuffle (reshuffles_setMeta he ⟨rfl, rfl, rfl⟩)) rfl rfl rfl

theorem allocated_deleteWhiteout {n : Nat} {s : Server} (h : Allocated n s) (path : FsPath) :
    Allocated n (s.deleteWhiteout path).2 := by
  unfold Server.deleteWhiteout
  cases s.state.fuseMap.lookup path with
  | none => exact h
  | some e =>
    by_cases hw : e.entryType = .whiteout
    · simp only [if_pos hw]
      exact h.of_ids (h.ids.reshuffle (reshuffles_erase _ path)) rfl rfl rfl
    · simp only [if_neg hw]
      exact h

theorem allocated_renameFile {n : Nat} {s : Server} (h : Allocated n s) (src dst : FsPath) :
    Allocated n (s.renameFile src dst).2 := by
  unfold Server.renameFile
  cases he : s.state.fuseMap.lookup src with
  | none => exact h
  | some e => exact h.of_ids (h.ids.reshuffle (reshuffles_move he dst)) rfl rfl rfl

theorem flushState_eq (s : Server) (io : FlushIo) (order : IterOrder FsPath) :
    (s.flushState io order).2.state = s.state
      ∧ (s.flushState io order).2.storage.objects = s.storage.objects :=
  ⟨rfl, flush_objects s.storage io order _ _ _⟩

theorem allocated_flushState {n : Nat} {s : Server} (h : Allocated n s) (io : FlushIo)
    (order : IterOrder FsPath) : Allocated n (s.flushState io order).2 :=
  h.of_ids h.ids (flushState_eq s io order).2 rfl rfl

/-- **One request** uses up one id if it allocates, and none otherwise. -/
theorem allocated_dispatch {n : Nat} {s : Server} (h : Allocated n s) (env : DispatchEnv)
    (req : Request) (hreq : ∀ path id md, req ≠ .upsertFileEntry path id md)
    (hfew : s.allocates req = true → n + 1 < 2 ^ 64) :
    Allocated (n + (s.allocates req).toNat) (dispatch env s req).2 := by
  cases req with
  | ensureFileObject path md =>
    exact allocated_ensureObject h path md (ObjectStore.allocates_put _ _ _) hfew
  | ensureFileObjectFromReal path md =>
    exact allocated_ensureObject h path md (ObjectStore.allocates_putCopyFrom _ _ _) hfew
  | getObjectPath id =>
    show Allocated n (s.getObjectPath id).2
    unfold Server.getObjectPath
    split <;> exact h
  | upsertFileEntry path objectId md => exact absurd rfl (hreq path objectId md)
  | putFileMeta path md => exact allocated_putFileMeta h path md
  | getFileMeta path => exact h
  | getEntry path => exact h
  | deleteFile path => exact h.of_ids (h.ids.reshuffle (reshuffles_erase _ path)) rfl rfl rfl
  | renameFile src dst => exact allocated_renameFile h src dst
  | putDir path md => exact h.of_ids (h.ids.putPlain path (wellShaped_ofDir md) rfl) rfl rfl rfl
  | putSymlink path target md =>
    exact h.of_ids (h.ids.putPlain path (wellShaped_ofSymlink target md) rfl) rfl rfl rfl
  | putWhiteout path => exact h.of_ids (h.ids.putPlain path wellShaped_whiteout rfl) rfl rfl rfl
  | deleteWhiteout path => exact allocated_deleteWhiteout h path
  | readDirAll path => exact h
  | listWhiteoutUnder path => exact h
  | renameTree src dst =>
    exact h.of_ids (h.ids.reshuffle (reshuffles_foldl_moveEntry src dst _ _)) rfl rfl rfl
  | logAccess path operation pid => exact h
  | flush =>
    show Allocated n (s.flushRequest env.flushIo env.order).2
    have hflush := allocated_flushState h env.flushIo env.order
    unfold Server.flushRequest
    rcases hf : s.flushState env.flushIo env.order with ⟨r, s'⟩
    rw [hf] at hflush
    cases r <;> exact hflush

/-! ## §5. Requests and restarts. -/

/-- What happens to one sandbox over several sessions, one thing at a time. -/
inductive Op
  /-- The running daemon answers a request. -/
  | request (env : DispatchEnv) (req : Request)
  /-- The daemon writes its state out and stops; the next one loads it. -/
  | restart (order order' : IterOrder FsPath)

/-- The server together with the number of allocations so far. -/
structure Session where
  server : Server
  allocs : Nat

def Session.init (shmName : String) : Session := ⟨Server.init shmName, 0⟩

def Server.restart (s : Server) (order order' : IterOrder FsPath) : Option Server :=
  match s.flushState .ok order with
  | (_, s') =>
    match buildServerState s'.storage order' with
    | .ok state => some ⟨state, s'.storage⟩
    | .error _ => none

/-- No FUSE operation sends `UpsertFileEntry`: the action is not enabled. -/
def Session.perform (s : Session) : Op → Option Session
  | .request _ (.upsertFileEntry _ _ _) => none
  | .request env req =>
    some ⟨(dispatch env s.server req).2, s.allocs + (s.server.allocates req).toNat⟩
  | .restart order order' => (s.server.restart order order').map fun server => ⟨server, s.allocs⟩

/-- A restart brings back metadata and map, and a table rebuilt from its rows. -/
theorem restart_eq {s : Server} (habi : s.state.abiVersion = SUPPORTED_ABI_VERSION)
    (order order' : IterOrder FsPath) :
    s.restart order order' = some
      { state := { s.state with pathTree := PathTree.fromRows (s.state.pathTree.rows order) }
        storage := (s.flushState .ok order).2.storage } := by
  unfold Server.restart buildServerState
  have hload := load_flush s.storage order order' s.state.snapshot s.state.fuseMap
    s.state.pathTree habi
  simp only [Server.flushState]
  rw [hload]
  rfl

theorem allocated_restart {n : Nat} {s s' : Server} (h : Allocated n s)
    {order order' : IterOrder FsPath} (hr : s.restart order order' = some s') :
    Allocated n s' := by
  rw [restart_eq h.abi] at hr
  cases hr
  exact h.of_ids h.ids (flushState_eq s .ok order).2 rfl rfl

theorem perform_allocs {s s' : Session} {op : Op} (h : s.perform op = some s') :
    s.allocs ≤ s'.allocs := by
  cases op with
  | request env req =>
    cases req <;> cases h <;> exact Nat.le_add_right _ _
  | restart order order' =>
    obtain ⟨_, _, rfl⟩ := Option.map_eq_some_iff.mp h
    exact Nat.le_refl _

/-- **One step** of a session with fewer than `2 ^ 64` allocations. -/
theorem allocated_perform {s s' : Session} {op : Op} (hs : Allocated s.allocs s.server)
    (h : s.perform op = some s') (hfew : s'.allocs < 2 ^ 64) :
    Allocated s'.allocs s'.server := by
  cases op with
  | restart order order' =>
    obtain ⟨server, hr, rfl⟩ := Option.map_eq_some_iff.mp h
    exact allocated_restart hs hr
  | request env req =>
    have hreq : ∀ path id md, req ≠ .upsertFileEntry path id md := by
      intro path id md e
      rw [e] at h
      cases h
    have hstep : s' = ⟨(dispatch env s.server req).2,
        s.allocs + (s.server.allocates req).toNat⟩ := by
      cases req <;> cases h <;> rfl
    rw [hstep] at hfew ⊢
    apply allocated_dispatch hs env req hreq
    intro ha
    rw [ha] at hfew
    exact hfew

theorem allocated_init (shmName : String) :
    Allocated (Session.init shmName).allocs (Session.init shmName).server :=
  ⟨idsUpTo_empty 0 ∅, rfl, rfl⟩

/-- **A whole run.** -/
theorem allocated_run {ops : List Op} {s t : Session} (hs : Allocated s.allocs s.server)
    (hrun : run Session.perform s ops = some t) (hfew : t.allocs < 2 ^ 64) :
    Allocated t.allocs t.server := by
  -- the bound at the end bounds every earlier count
  have hstep : ∀ (s : Session) (op : Op) (s' : Session),
      (s.allocs < 2 ^ 64 → Allocated s.allocs s.server) → s.perform op = some s' →
      s'.allocs < 2 ^ 64 → Allocated s'.allocs s'.server := by
    intro s op s' hI hstep hlt
    exact allocated_perform (hI (lt_of_le_of_lt (perform_allocs hstep) hlt)) hstep hlt
  exact run_invariant (I := fun s => s.allocs < 2 ^ 64 → Allocated s.allocs s.server) hstep
    (fun _ => hs) hrun hfew

/-! ## §6. What the invariant means. -/

/-- Entries are well shaped; ids are not shared and not dangling; files are not shared. -/
structure IdIntegrity (s : Server) : Prop where
  shape : ∀ p e, s.state.fuseMap.lookup p = some e → e.WellShaped
  stored : ∀ p e id, s.state.fuseMap.lookup p = some e → e.objectId = some id →
    s.objects.exists id = true
  distinct : ∀ p q e f id, s.state.fuseMap.lookup p = some e → s.state.fuseMap.lookup q = some f →
    e.objectId = some id → f.objectId = some id → p = q
  files : ∀ id id', s.objects.pathFor id = s.objects.pathFor id' → id = id'

/-- Every id in the map is smaller than the next one. -/
def BelowNext (s : Server) : Prop :=
  ∀ p e id, s.state.fuseMap.lookup p = some e → e.objectId = some id → id < s.state.nextId

theorem Allocated.integrity {n : Nat} {s : Server} (h : Allocated n s) : IdIntegrity s where
  shape := h.ids.shape
  stored := h.ids.stored
  distinct := h.ids.distinct
  files _ _ hp := objectPath_injective hp

theorem Allocated.belowNext {n : Nat} {s : Server} (h : Allocated n s) (hn : n + 1 < 2 ^ 64) :
    BelowNext s := by
  intro p e id he hid
  have hrange := h.ids.range p e id he hid
  have hnext : s.state.nextId.toNat = n + 1 := by
    rw [h.next, UInt64.toNat_ofNat']
    exact Nat.mod_eq_of_lt hn
  rw [UInt64.lt_iff_toNat_lt]
  omega

/-- **Object id integrity.** With fewer than `2 ^ 64` allocations ids are neither shared nor
dangling; they are below `next_id` as long as that has not wrapped. -/
theorem integrity_run {shmName : String} {ops : List Op} {t : Session}
    (hrun : run Session.perform (Session.init shmName) ops = some t) (hfew : t.allocs < 2 ^ 64) :
    IdIntegrity t.server ∧ (t.allocs < 2 ^ 64 - 1 → BelowNext t.server) := by
  have h : Allocated t.allocs t.server := allocated_run (allocated_init shmName) hrun hfew
  refine ⟨h.integrity, fun hlt => h.belowNext ?_⟩
  omega

/-- Two directories, a file in one, a rename of it onto the other, and a restart. -/
theorem integrity_run_example :
    let ops := [Request.putDir [.a] .zero, .ensureFileObject [.a, .b] .zero, .putDir [.b] .zero,
      .renameTree [.a] [.b]].map (Op.request .quiet) ++ [Op.restart .sorted .sorted]
    ∃ t, run Session.perform (Session.init "") ops = some t ∧ t.allocs = 1 ∧
      IdIntegrity t.server ∧ BelowNext t.server := by
  intro ops
  have hrun : ∃ t, run Session.perform (Session.init "") ops = some t := ⟨_, rfl⟩
  obtain ⟨t, ht⟩ := hrun
  have hallocs : (run Session.perform (Session.init "") ops).map (·.allocs) = some 1 := by decide
  rw [ht] at hallocs
  have h1 : t.allocs = 1 := Option.some.inj hallocs
  obtain ⟨hint, hbelow⟩ := integrity_run ht (by omega)
  exact ⟨t, ht, h1, hint, hbelow (by omega)⟩

/-! ## §7. The wrap. -/

/-- Create a file and delete its entry again. -/
def useOneId : List Op :=
  [.request .quiet (.ensureFileObject [.a] .zero), .request .quiet (.deleteFile [.a])]

theorem run_ensure {s : Session} (h : s.server.state.fuseMap.lookup [Name.a] = none) :
    ∃ t, s.perform (.request .quiet (.ensureFileObject [.a] .zero)) = some t ∧
      t.allocs = s.allocs + 1 ∧
      t.server.state.nextId = s.server.state.nextId + 1 ∧
      t.server.state.fuseMap.lookup [Name.a] = some (.ofObject .zero s.server.state.nextId) := by
  refine ⟨_, rfl, ?_⟩
  have hnone : (s.server.state.fuseMap.lookup [Name.a]).bind FuseEntry.reusableObject = none := by
    rw [h]
    rfl
  show _ + (((s.server.state.fuseMap.lookup [Name.a]).bind
      FuseEntry.reusableObject).isNone).toNat = _ ∧
    (s.server.ensureObject [.a] .zero _).2.state.nextId = _ ∧
    (s.server.ensureObject [.a] .zero _).2.state.fuseMap.lookup _ = _
  unfold Server.ensureObject
  rw [hnone]
  exact ⟨rfl, rfl, Finmap.lookup_insert _⟩

theorem run_useOneId (k : Nat) : ∀ s : Session,
    s.server.state.fuseMap.lookup [Name.a] = none →
    ∃ t, run Session.perform s (List.replicate k useOneId).flatten = some t ∧
      t.allocs = s.allocs + k ∧
      t.server.state.nextId = s.server.state.nextId + UInt64.ofNat k ∧
      t.server.state.fuseMap.lookup [Name.a] = none := by
  induction k with
  | zero =>
    intro s h
    exact ⟨s, rfl, rfl, (UInt64.add_zero _).symm, h⟩
  | succ k ih =>
    intro s h
    obtain ⟨s₁, hs₁, ha₁, hn₁, -⟩ := run_ensure h
    obtain ⟨s₂, hs₂, ha₂, hn₂, hl₂⟩ : ∃ s₂,
        s₁.perform (.request .quiet (.deleteFile [.a])) = some s₂ ∧ s₂.allocs = s₁.allocs ∧
        s₂.server.state.nextId = s₁.server.state.nextId ∧
        s₂.server.state.fuseMap.lookup [Name.a] = none :=
      ⟨_, rfl, rfl, rfl, Finmap.lookup_erase _ _⟩
    obtain ⟨t, ht, ha, hn, hl⟩ := ih s₂ hl₂
    refine ⟨t, ?_, by omega, ?_, hl⟩
    · rw [List.replicate_succ, List.flatten_cons, run_append]
      have hround : run Session.perform s useOneId = some s₂ := by
        unfold useOneId
        rw [run_cons, hs₁, Option.bind_some, run_cons, hs₂]
        rfl
      rw [hround]
      exact ht
    · rw [hn, hn₂, hn₁, Nat.add_comm k 1, UInt64.ofNat_add, UInt64.add_assoc]
      rfl

/-- After `2 ^ 64 - 1` allocations `next_id` has wrapped to 0 and the last id is not below it. -/
theorem not_belowNext_wrapped :
    ∃ t, run Session.perform (Session.init "")
        ((List.replicate (2 ^ 64 - 2) useOneId).flatten
          ++ [.request .quiet (.ensureFileObject [.a] .zero)]) = some t ∧
      t.allocs = 2 ^ 64 - 1 ∧ t.allocs < 2 ^ 64 ∧ t.server.state.nextId = 0 ∧
      ¬ BelowNext t.server := by
  obtain ⟨s, hs, ha, hn, hl⟩ := run_useOneId (2 ^ 64 - 2) (Session.init "")
    (Finmap.lookup_empty _)
  obtain ⟨t, ht, ha', hn', hl'⟩ := run_ensure hl
  have hallocs : t.allocs = 2 ^ 64 - 1 := by
    rw [ha', ha]
    rfl
  have hzero : t.server.state.nextId = 0 := by
    rw [hn', hn]
    decide
  refine ⟨t, ?_, hallocs, by omega, hzero, fun hbelow => ?_⟩
  · rw [run_append, hs, Option.bind_some, run_cons, ht]
    rfl
  · have hlt := hbelow _ _ _ hl' rfl
    rw [hzero, UInt64.lt_iff_toNat_lt] at hlt
    exact absurd hlt (Nat.not_lt_zero _)

end Cas.Syncing
