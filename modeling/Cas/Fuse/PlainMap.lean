/-
  Cas.Fuse.PlainMap — CopyOnWrite paths hold what a plain map from paths
  to byte strings holds.

  A session serves a client and carries the plain map along.  `Mirrors` is
  the simulation relation: an entry points to an object of its own, the
  object holds the bytes of the map, and a handle writes to the object of
  its path.  It hangs on ids being handed out once, which the 64-bit
  counter grants for 2^64 objects and no longer.
-/
import Cas.Fuse.FreshRead
import Cas.Lib.FlatStore
import Cas.Lib.Runs

namespace Cas.Fuse

open Cas.Lib Cas.Host Cas.Syncing

/-! ## §1. Sessions. -/

abbrev PlainStore := FlatStore FsPath UInt64

/-- The sandbox, the plain map beside it, and how many objects have been made. -/
structure Session where
  world : World
  plain : PlainStore
  made : ℕ

def Session.start (fs : FileSystem) (shmName : String) : Session :=
  ⟨World.mount fs (Server.init shmName), FlatStore.init (hostFile fs), 0⟩

/-- Nothing fails while the request is served. -/
def Env.Succeeds (env : Env) : Prop := env.faults = [] ∧ env.storeIo = .ok

instance (env : Env) : Decidable env.Succeeds := inferInstanceAs (Decidable (_ ∧ _))

/-- The operations on the regular files at CopyOnWrite paths; besides them a client looks names
up, reads, and closes handles. -/
def Session.Allows (pol : Policy) (s : Session) : FuseRequest → Prop
  | .lookup _ _ | .read _ _ _ _ | .release _ _ => True
  | .open ino flags => ∃ p ∈ s.world.inodes.getPath ino, pol.classify p = .copyOnWrite ∧
      (flags.needWrite = true →
        flags.trunc = false ∧ statKind pol s.world p = some .regularFile)
  | .create parent name _ _ => ∃ p ∈ s.world.namedPath parent name,
      pol.classify p = .copyOnWrite ∧ statKind pol s.world p = none
  | .write ino fh _ _ =>
    (s.world.inodes.getPath ino).isSome = true ∧ (s.plain.handles fh).isSome = true
  | .unlink parent name => ∃ p ∈ s.world.namedPath parent name,
      pol.classify p = .copyOnWrite ∧ statKind pol s.world p = some .regularFile
  | _ => False

instance Session.Allows.decidable (pol : Policy) (s : Session) :
    ∀ req, Decidable (s.Allows pol req)
  | .lookup _ _ | .read _ _ _ _ | .release _ _ => isTrue trivial
  | .open ino _ => inferInstanceAs (Decidable (∃ p ∈ s.world.inodes.getPath ino, _ ∧ _))
  | .create parent name _ _ =>
    inferInstanceAs (Decidable (∃ p ∈ s.world.namedPath parent name, _ ∧ _))
  | .write _ _ _ _ => inferInstanceAs (Decidable (_ ∧ _))
  | .unlink parent name =>
    inferInstanceAs (Decidable (∃ p ∈ s.world.namedPath parent name, _ ∧ _))
  | .getattr _ | .setattr _ _ _ _ _ _ | .readlink _ | .mkdir _ _ _ | .rmdir _ _
  | .rename _ _ _ _ | .symlink _ _ _ | .link _ _ _ | .copyFileRange _ _ _ _ _ _ _ | .flush _
  | .fsync _ | .opendir _ | .readdir _ _ _ | .access _ => isFalse id

/-- The same operation on the plain map. -/
def plainStep (w : World) (plain : PlainStore) (req : FuseRequest) (reply : Reply) : PlainStore :=
  match req with
  | .open ino flags =>
    match w.inodes.getPath ino, reply with
    | some p, .opened fh => if flags.needWrite then plain.openAt fh p flags.append else plain.close fh
    | _, _ => plain
  | .create parent name _ flags =>
    match w.namedPath parent name, reply with
    | some p, .created _ fh => (plain.create p).openAt fh p flags.append
    | some p, _ => plain.create p
    | none, _ => plain
  | .write _ fh offset data => plain.write fh offset data
  | .unlink parent name =>
    match w.namedPath parent name with
    | some p => plain.remove p
    | none => plain
  | .release fh _ => plain.close fh
  | _ => plain

def Session.next (pol : Policy) (s : Session) (env : Env) (req : FuseRequest) : Session :=
  let (reply, w) := serveFuse pol env s.world req
  { world := w
    plain := plainStep s.world s.plain req reply
    made := if w.daemon.state.nextId = s.world.daemon.state.nextId then s.made else s.made + 1 }

/-- One operation; `none` when it is not one of those above. -/
def Session.step (pol : Policy) (s : Session) (op : Env × FuseRequest) : Option Session :=
  if op.1.Succeeds ∧ s.Allows pol op.2 then some (s.next pol op.1 op.2) else none

/-! ## §2. The simulation relation. -/

/-- The id of the object that is made after `k` others. -/
def issuedId (k : ℕ) : UInt64 := UInt64.ofNat (k + 1)

theorem issuedId_succ (k : ℕ) : issuedId k + 1 = issuedId (k + 1) := by
  unfold issuedId
  rw [UInt64.ofNat_add (k + 1) 1]
  rfl

/-- The first 2^64 ids differ. -/
theorem issuedId_ne {k n : ℕ} (hk : k < n) (hn : n < 2 ^ 64) : issuedId k ≠ issuedId n := by
  intro h
  have hmod : (k + 1) % 2 ^ 64 = (n + 1) % 2 ^ 64 := by
    have := congrArg UInt64.toNat h
    unfold issuedId at this
    rwa [UInt64.toNat_ofNat', UInt64.toNat_ofNat'] at this
  omega

/-- The object that the entry of `p` points to. -/
def ownObject (w : World) (p : FsPath) : Option UInt64 := (w.entry p).bind (·.objectId)

/-- What the sandbox holds at `p`. -/
def heldAt (w : World) (p : FsPath) : Option Bytes :=
  match w.entry p with
  | none => hostFile w.host p
  | some e => e.objectId.bind fun id => w.objects.lookup (objectPath id)

/-- A whiteout, or a regular file behind one of the `made` objects. -/
def PlainEntry (made : ℕ) (e : FuseEntry) : Prop :=
  e = .whiteout ∨ ∃ md k, k < made ∧ typeBits md = S_IFREG ∧ e = .ofObject md (issuedId k)

/-- A handle writes to an object, and to that of its path if it has one. -/
def Writes (w : World) (made : ℕ) (fh : UInt64) (h : FlatHandle FsPath) : Prop :=
  ∃ opts k, k < made ∧ w.openFiles.lookup fh = some (objectHandle opts (issuedId k)) ∧
    (opts.write || opts.append) = true ∧ opts.append = h.append ∧
    (w.objects.lookup (objectPath (issuedId k))).isSome = true ∧
    ∀ p, ownObject w p = some (issuedId k) ↔ h.key = some p

/-- The sandbox over `fs` holds what the plain map holds. -/
structure Mirrors (pol : Policy) (fs : FileSystem) (s : Session) : Prop where
  host : s.world.host = fs
  counter : s.world.daemon.state.nextId = issuedId s.made
  entries : ∀ p e, s.world.entry p = some e →
    pol.classify p = .copyOnWrite ∧ PlainEntry s.made e
  /-- No two paths share an object. -/
  distinct : ∀ p q id, ownObject s.world p = some id → ownObject s.world q = some id → p = q
  stored : ∀ p id, ownObject s.world p = some id →
    (s.world.objects.lookup (objectPath id)).isSome = true
  files : ∀ p, s.plain.files p = heldAt s.world p
  handles : ∀ fh h, s.plain.handles fh = some h → Writes s.world s.made fh h

theorem mirrors_start (pol : Policy) (fs : FileSystem) (shmName : String) :
    Mirrors pol fs (Session.start fs shmName) := by
  have hnone : ∀ p, (Session.start fs shmName).world.entry p = none := Finmap.lookup_empty
  have hobject : ∀ p, ownObject (Session.start fs shmName).world p = none := by
    intro p
    unfold ownObject
    rw [hnone]
    rfl
  refine ⟨rfl, rfl, ?_, ?_, ?_, ?_, ?_⟩
  · intro p e he
    rw [hnone] at he
    cases he
  · intro p q id hp
    rw [hobject] at hp
    cases hp
  · intro p id hp
    rw [hobject] at hp
    cases hp
  · intro p
    unfold heldAt
    rw [hnone]
    rfl
  · intro fh h hh
    cases hh

theorem PlainEntry.mono {made made' : ℕ} (hle : made ≤ made') {e : FuseEntry}
    (h : PlainEntry made e) : PlainEntry made' e := by
  rcases h with h | ⟨md, k, hk, hmd, rfl⟩
  · exact Or.inl h
  · exact Or.inr ⟨md, k, by omega, hmd, rfl⟩

/-- An entry that is no whiteout points to an object. -/
theorem PlainEntry.object {made : ℕ} {e : FuseEntry} (h : PlainEntry made e)
    (hwhite : e.entryType ≠ .whiteout) :
    ∃ md k, k < made ∧ typeBits md = S_IFREG ∧ e = .ofObject md (issuedId k) := by
  rcases h with rfl | h
  · exact absurd rfl hwhite
  · exact h

theorem ownObject_whiteout {w : World} {p : FsPath} (he : w.entry p = some .whiteout) :
    ownObject w p = none := by
  unfold ownObject
  rw [he]
  rfl

theorem ownObject_ofObject {w : World} {p : FsPath} {md : FileMetadata} {id : UInt64}
    (he : w.entry p = some (.ofObject md id)) : ownObject w p = some id := by
  unfold ownObject
  rw [he]
  rfl

/-- A path holds the content of its object. -/
theorem heldAt_object {w : World} {p : FsPath} {id : UInt64} (hp : ownObject w p = some id) :
    heldAt w p = w.objects.lookup (objectPath id) := by
  obtain ⟨e, he, hid⟩ := Option.bind_eq_some_iff.mp hp
  unfold heldAt
  rw [he]
  show e.objectId.bind _ = _
  rw [hid]
  rfl

/-- New content of an object shows at the path that owns it. -/
theorem heldAt_setObject (w : World) (p : FsPath) (id : UInt64) (data : Bytes) :
    heldAt (w.setObject (objectPath id) data) p
      = if ownObject w p = some id then some data else heldAt w p := by
  cases hp : ownObject w p with
  | none =>
    rw [if_neg nofun]
    unfold heldAt
    show (match w.entry p with | none => hostFile w.host p | some e => e.objectId.bind _) = _
    unfold ownObject at hp
    cases he : w.entry p with
    | none => rfl
    | some e =>
      rw [he] at hp
      have hid : e.objectId = none := hp
      show e.objectId.bind _ = e.objectId.bind _
      rw [hid]
      rfl
  | some id' =>
    have hnew : ownObject (w.setObject (objectPath id) data) p = some id' := hp
    rw [heldAt_object hnew, heldAt_object hp, World.objects_setObject]
    by_cases hid : id' = id
    · rw [if_pos (congrArg objectPath hid), if_pos (congrArg some hid)]
    · rw [if_neg fun he => hid (objectPath_injective he), if_neg fun he => hid (Option.some.inj he)]

section Mirrors

variable {pol : Policy} {fs : FileSystem} {s : Session} (h : Mirrors pol fs s) {p : FsPath}

include h

/-- The object of a path is one of those made so far. -/
theorem Mirrors.issued {id : UInt64} (hp : ownObject s.world p = some id) :
    ∃ k, k < s.made ∧ id = issuedId k := by
  obtain ⟨e, he, hid⟩ := Option.bind_eq_some_iff.mp hp
  rcases (h.entries p e he).2 with rfl | ⟨md, k, hk, -, rfl⟩
  · cases hid
  · exact ⟨k, hk, (Option.some.inj hid).symm⟩

/-- What a path holds is in its object. -/
theorem Mirrors.held {id : UInt64} (hp : ownObject s.world p = some id) :
    s.plain.files p = s.world.objects.lookup (objectPath id) :=
  (h.files p).trans (heldAt_object hp)

/-- Inode tables, faults and the counter of handles are not looked at. -/
theorem Mirrors.congr {w : World} (hhost : w.host = s.world.host)
    (hdaemon : w.daemon = s.world.daemon) (hopen : w.openFiles = s.world.openFiles) :
    Mirrors pol fs ⟨w, s.plain, s.made⟩ := by
  obtain ⟨host, daemon, inodes, openFiles, nextFh, faults⟩ := w
  subst hhost hdaemon hopen
  exact ⟨h.host, h.counter, h.entries, h.distinct, h.stored, h.files, h.handles⟩

/-! ## §3. The operations keep it. -/

/-- A handle is forgotten. -/
theorem Mirrors.close (fh : UInt64) {openFiles : FMap UInt64 OpenFile}
    (hother : ∀ fh', fh' ≠ fh → openFiles.lookup fh' = s.world.openFiles.lookup fh') :
    Mirrors pol fs ⟨{ s.world with openFiles }, s.plain.close fh, s.made⟩ := by
  refine ⟨h.host, h.counter, h.entries, h.distinct, h.stored, h.files, ?_⟩
  intro fh' handle hhandle
  rw [FlatStore.handles_close] at hhandle
  split at hhandle
  · cases hhandle
  · next hne =>
    obtain ⟨opts, k, hk, hfile, hrest⟩ := h.handles fh' handle hhandle
    exact ⟨opts, k, hk, (hother fh' hne).trans hfile, hrest⟩

/-- A handle for the object of a path. -/
theorem Mirrors.openAt {id : UInt64} (hp : ownObject s.world p = some id) {flags : OpenFlags}
    (hwrite : (flags.needWrite || flags.append) = true) :
    Mirrors pol fs ⟨s.world.withHandle (objectHandle flags.options id),
      s.plain.openAt s.world.nextFh p flags.append, s.made⟩ := by
  refine ⟨h.host, h.counter, h.entries, h.distinct, h.stored, h.files, ?_⟩
  intro fh handle hhandle
  rw [FlatStore.handles_openAt] at hhandle
  split at hhandle
  · next hfh =>
    subst hfh
    cases hhandle
    obtain ⟨k, hk, rfl⟩ := h.issued hp
    refine ⟨flags.options, k, hk, Finmap.lookup_insert _, hwrite, rfl, h.stored p _ hp, ?_⟩
    intro q
    constructor
    · intro hq
      rw [h.distinct p q _ hp hq]
    · intro hq
      cases hq
      exact hp
  · next hne =>
    obtain ⟨opts, k, hk, hfile, hrest⟩ := h.handles fh handle hhandle
    exact ⟨opts, k, hk, (Finmap.lookup_insert_of_ne _ hne).trans hfile, hrest⟩

/-- A new object for a path that has none. -/
theorem Mirrors.newObject (hbound : s.made < 2 ^ 64) (hmode : pol.classify p = .copyOnWrite)
    (hfree : ownObject s.world p = none) {md : FileMetadata} (hmd : typeBits md = S_IFREG)
    (data : Bytes) :
    Mirrors pol fs ⟨s.world.newObject p md data, s.plain.put p (some data), s.made + 1⟩ := by
  have hentry : ∀ q, (s.world.newObject p md data).entry q
      = if q = p then some (.ofObject md (issuedId s.made)) else s.world.entry q := by
    intro q
    rw [World.entry_newObject, h.counter]
  have hobjects : ∀ path, (s.world.newObject p md data).objects.lookup path
      = if path = objectPath (issuedId s.made) then some data else s.world.objects.lookup path := by
    intro path
    rw [World.objects_newObject, h.counter]
  have hobject : ∀ q, ownObject (s.world.newObject p md data) q
      = if q = p then some (issuedId s.made) else ownObject s.world q := by
    intro q
    unfold ownObject
    rw [hentry]
    split <;> rfl
  -- the new id is nobody's
  have hfresh : ∀ k, k < s.made → issuedId k ≠ issuedId s.made := fun k hk => issuedId_ne hk hbound
  have hold : ∀ k, k < s.made → (s.world.newObject p md data).objects.lookup
      (objectPath (issuedId k)) = s.world.objects.lookup (objectPath (issuedId k)) := by
    intro k hk
    rw [hobjects, if_neg fun he => hfresh k hk (objectPath_injective he)]
  refine ⟨h.host, ?_, ?_, ?_, ?_, ?_, ?_⟩
  · show s.world.daemon.state.nextId + 1 = _
    rw [h.counter, issuedId_succ]
  · intro q e he
    rw [hentry] at he
    split at he
    · next hq =>
      cases he
      rw [hq]
      exact ⟨hmode, Or.inr ⟨md, s.made, by simp, hmd, rfl⟩⟩
    · obtain ⟨hq, hplain⟩ := h.entries q e he
      exact ⟨hq, hplain.mono (by simp)⟩
  · intro q r id hq hr
    rw [hobject] at hq hr
    split at hq <;> split at hr
    · next hqp hrp => rw [hqp, hrp]
    · obtain ⟨k, hk, rfl⟩ := h.issued hr
      exact absurd (Option.some.inj hq).symm (hfresh k hk)
    · obtain ⟨k, hk, rfl⟩ := h.issued hq
      exact absurd (Option.some.inj hr).symm (hfresh k hk)
    · exact h.distinct q r id hq hr
  · intro q id hq
    rw [hobject] at hq
    split at hq
    · cases hq
      show ((s.world.newObject p md data).objects.lookup _).isSome = true
      rw [hobjects, if_pos rfl]
      rfl
    · obtain ⟨k, hk, rfl⟩ := h.issued hq
      show ((s.world.newObject p md data).objects.lookup _).isSome = true
      rw [hold k hk]
      exact h.stored q _ hq
  · intro q
    show (s.plain.put p (some data)).files q = heldAt (s.world.newObject p md data) q
    rw [FlatStore.files_put]
    unfold heldAt
    rw [hentry]
    by_cases hq : q = p
    · rw [if_pos hq, if_pos hq]
      show _ = (s.world.newObject p md data).objects.lookup (objectPath (issuedId s.made))
      rw [hobjects, if_pos rfl]
    · rw [if_neg hq, if_neg hq, h.files]
      unfold heldAt
      cases he : s.world.entry q with
      | none => rfl
      | some e =>
        rcases (h.entries q e he).2 with rfl | ⟨md', k, hk, -, rfl⟩
        · rfl
        · exact (hold k hk).symm
  · intro fh handle hhandle
    obtain ⟨opts, k, hk, hfile, hwrite, happend, hstored, howner⟩ := h.handles fh handle hhandle
    refine ⟨opts, k, Nat.lt_succ_of_lt hk, hfile, hwrite, happend, ?_, ?_⟩
    · show ((s.world.newObject p md data).objects.lookup _).isSome = true
      rw [hold k hk]
      exact hstored
    · intro q
      show ownObject (s.world.newObject p md data) q = _ ↔ _
      rw [hobject]
      by_cases hq : q = p
      · rw [if_pos hq, ← howner q, hq, hfree]
        constructor
        · intro hid
          exact absurd (Option.some.inj hid).symm (hfresh k hk)
        · exact nofun
      · rw [if_neg hq]
        exact howner q

/-- The file at `p` is removed. -/
theorem Mirrors.removed (hmode : pol.classify p = .copyOnWrite) :
    Mirrors pol fs ⟨s.world.removed p, s.plain.remove p, s.made⟩ := by
  have hentry : ∀ q, (s.world.removed p).entry q
      = if q = p then some .whiteout else s.world.entry q := s.world.entry_removed p
  have hobject : ∀ q, ownObject (s.world.removed p) q
      = if q = p then none else ownObject s.world q := by
    intro q
    unfold ownObject
    rw [hentry]
    split <;> rfl
  refine ⟨h.host, h.counter, ?_, ?_, ?_, ?_, ?_⟩
  · intro q e he
    rw [hentry] at he
    split at he
    · next hq =>
      cases he
      rw [hq]
      exact ⟨hmode, Or.inl rfl⟩
    · exact h.entries q e he
  · intro q r id hq hr
    rw [hobject] at hq hr
    split at hq
    · cases hq
    · split at hr
      · cases hr
      · exact h.distinct q r id hq hr
  · intro q id hq
    rw [hobject] at hq
    split at hq
    · cases hq
    · exact h.stored q id hq
  · intro q
    show (s.plain.remove p).files q = heldAt (s.world.removed p) q
    rw [FlatStore.files_remove]
    unfold heldAt
    rw [hentry]
    by_cases hq : q = p
    · rw [if_pos hq, if_pos hq]
      rfl
    · rw [if_neg hq, if_neg hq, h.files]
      rfl
  · intro fh handle hhandle
    obtain ⟨handle', hold, rfl⟩ := Option.map_eq_some_iff.mp hhandle
    obtain ⟨opts, k, hk, hfile, hwrite, happend, hstored, howner⟩ := h.handles fh handle' hold
    refine ⟨opts, k, hk, hfile, hwrite, ?_, hstored, ?_⟩
    · rw [happend]
      unfold FlatStore.FlatHandle.detach
      split <;> rfl
    · intro q
      show ownObject (s.world.removed p) q = _ ↔ _
      rw [hobject]
      unfold FlatStore.FlatHandle.detach
      by_cases hq : q = p
      · subst hq
        rw [if_pos rfl]
        refine ⟨nofun, fun hkey => ?_⟩
        split at hkey
        · cases hkey
        · next hne => exact absurd hkey hne
      · rw [if_neg hq, howner q]
        split
        · next hkey =>
          rw [hkey]
          exact ⟨fun hpq => absurd (Option.some.inj hpq).symm hq, nofun⟩
        · exact Iff.rfl

/-- A write through a handle. -/
theorem Mirrors.write {fh : UInt64} {handle : FlatHandle FsPath}
    (hhandle : s.plain.handles fh = some handle) {opts : OpenOptions} {k : ℕ}
    (happend : opts.append = handle.append)
    (howner : ∀ p, ownObject s.world p = some (issuedId k) ↔ handle.key = some p) {old : Bytes}
    (hold : s.world.objects.lookup (objectPath (issuedId k)) = some old) (offset : ℕ) (data : Bytes) :
    Mirrors pol fs ⟨s.world.setObject (objectPath (issuedId k))
        (writeAt old (if opts.append then old.length else offset) data),
      s.plain.write fh offset data, s.made⟩ := by
  have hstays : ∀ path, (s.world.objects.lookup path).isSome = true → ((s.world.setObject
      (objectPath (issuedId k)) (writeAt old (if opts.append then old.length else offset)
        data)).objects.lookup path).isSome = true := by
    intro path hpath
    rw [World.objects_setObject]
    split
    · rfl
    · exact hpath
  refine ⟨h.host, h.counter, h.entries, h.distinct, ?_, ?_, ?_⟩
  · intro p id hp
    exact hstays _ (h.stored p id hp)
  · intro p
    show (s.plain.write fh offset data).files p = _
    rw [heldAt_setObject]
    cases hkey : handle.key with
    | none =>
      rw [FlatStore.write_detached _ hhandle hkey, if_neg]
      · exact h.files p
      · intro hp
        have := (howner p).mp hp
        rw [hkey] at this
        cases this
    | some q =>
      have hq : ownObject s.world q = some (issuedId k) := (howner q).mpr hkey
      have hfile : s.plain.files q = some old := (h.held hq).trans hold
      rw [FlatStore.write_attached _ hhandle hkey hfile, FlatStore.files_put, ← happend]
      by_cases hp : p = q
      · rw [if_pos hp, hp, if_pos hq]
      · rw [if_neg hp, if_neg fun hown => hp (h.distinct p q _ hown hq)]
        exact h.files p
  · intro fh' handle' hhandle'
    rw [FlatStore.handles_write] at hhandle'
    obtain ⟨opts', k', hk', hfile, hwrite, happend', hstored, howner'⟩ :=
      h.handles fh' handle' hhandle'
    exact ⟨opts', k', hk', hfile, hwrite, happend', hstays _ hstored, howner'⟩

end Mirrors

/-! ## §4. One operation. -/

theorem add_one_ne_self (x : UInt64) : x + 1 ≠ x := by
  intro h
  simp at h

/-- A path that shows a regular file has an object or a host file. -/
theorem Mirrors.regular {pol : Policy} {fs : FileSystem} {s : Session} (h : Mirrors pol fs s)
    (hfs : RegularFiles fs) {p : FsPath} (hmode : pol.classify p = .copyOnWrite)
    (hk : statKind pol s.world p = some .regularFile) :
    (∃ md id data, s.world.entry p = some (.ofObject md id) ∧
      s.world.objects.lookup (objectPath id) = some data) ∨
    (s.world.entry p = none ∧ ∃ data, hostFile fs p = some data) := by
  cases he : s.world.entry p with
  | some e =>
    have hwhite : e.entryType ≠ .whiteout := by
      intro ht
      unfold statKind at hk
      rw [hmode, he] at hk
      have hnone : kindFromEntry e = some .regularFile := hk
      rw [kindFromEntry_whiteout.mpr ht] at hnone
      cases hnone
    obtain ⟨md, k, -, -, rfl⟩ := (h.entries p e he).2.object hwhite
    obtain ⟨data, hdata⟩ := Option.isSome_iff_exists.mp (h.stored p _ (ownObject_ofObject he))
    exact Or.inl ⟨md, _, data, rfl, hdata⟩
  | none =>
    refine Or.inr ⟨rfl, ?_⟩
    have hview : (hostView fs p).kind? = some .regularFile := by
      have hkind := kind?_cowView (w := s.world) hmode
      rw [← statKind_eq, hk] at hkind
      unfold cowView at hkind
      rw [he, h.host] at hkind
      exact hkind
    rw [hfs.hostView] at hview
    cases hfile : hostFile fs p with
    | some data => exact ⟨data, rfl⟩
    | none =>
      rw [hfile] at hview
      have hdir : (if fs.kindAt p = some .dir then View.dir else .absent).kind?
          = some .regularFile := hview
      split at hdir <;> cases hdir

/-- A path that shows nothing has no object. -/
theorem ownObject_of_absent {pol : Policy} {w : World} {p : FsPath}
    (hmode : pol.classify p = .copyOnWrite) (hk : statKind pol w p = none)
    (hplain : ∀ e, w.entry p = some e → ∃ made, PlainEntry made e) : ownObject w p = none := by
  cases he : w.entry p with
  | none =>
    unfold ownObject
    rw [he]
    rfl
  | some e =>
    unfold statKind at hk
    rw [hmode, he] at hk
    obtain ⟨made, hmade⟩ := hplain e he
    have ht : e.entryType = .whiteout := kindFromEntry_whiteout.mp hk
    rcases hmade with rfl | ⟨md, k, -, -, rfl⟩
    · exact ownObject_whiteout he
    · cases ht

section Next

variable {pol : Policy} {fs : FileSystem} {s : Session} {env : Env} {req : FuseRequest}

/-- An operation that makes no object. -/
theorem next_still (s : Session) (env : Env) (req : FuseRequest) {reply : Reply} {w : World}
    (hserve : serveFuse pol env s.world req = (reply, w))
    (hid : w.daemon.state.nextId = s.world.daemon.state.nextId) :
    s.next pol env req = ⟨w, plainStep s.world s.plain req reply, s.made⟩ := by
  unfold Session.next
  rw [hserve]
  simp only [hid, if_pos]

/-- An operation that makes one. -/
theorem next_made (s : Session) (env : Env) (req : FuseRequest) {reply : Reply} {w : World}
    (hserve : serveFuse pol env s.world req = (reply, w))
    (hid : w.daemon.state.nextId = s.world.daemon.state.nextId + 1) :
    s.next pol env req = ⟨w, plainStep s.world s.plain req reply, s.made + 1⟩ := by
  unfold Session.next
  rw [hserve]
  simp only [hid, if_neg (add_one_ne_self _)]

/-- The world after the entry and the object of a new file have been made. -/
def Session.created (s : Session) (env : Env) (p : FsPath) (mode : UInt32) : World :=
  ({ s.world with faults := env.faults } : World).newObject p (createdMeta env mode) []

/-- A create makes one object; it hands out a handle if the flags allow to write. -/
theorem next_created (henv : env.Succeeds) {p : FsPath} {parent : UInt64} {name : Component}
    (hname : s.world.namedPath parent name = some p) (hmode : pol.classify p = .copyOnWrite)
    (hfree : ownObject s.world p = none) (mode : UInt32) (flags : OpenFlags) :
    s.next pol env (.create parent name mode flags)
        = ⟨s.created env p mode, s.plain.create p, s.made + 1⟩ ∨
      (flags.needWrite || flags.append) = true ∧ ∃ w',
        s.next pol env (.create parent name mode flags)
          = ⟨w', (s.plain.create p).openAt s.world.nextFh p flags.append, s.made + 1⟩ ∧
        (w' = (s.created env p mode).withHandle
            (objectHandle flags.options s.world.daemon.state.nextId) ∨
          w' = { (s.created env p mode).withHandle
            (objectHandle flags.options s.world.daemon.state.nextId) with
              inodes := (s.world.inodes.getOrInsert p).2 }) := by
  rcases create_quiet (w := { s.world with faults := env.faults }) henv.1 henv.2 hmode hname hfree
      mode flags with hrun | ⟨attr, w', hrun, hwritable, hw'⟩
  · left
    have hplain : plainStep s.world s.plain (.create parent name mode flags)
        (.error (errToErrno (.ofErrno .einval))) = s.plain.create p := by
      unfold plainStep
      simp only [hname]
    rw [next_made s env (.create parent name mode flags) (serveFuse_error _ hrun) rfl, hplain]
    rfl
  · right
    have hnext : w'.daemon.state.nextId = s.world.daemon.state.nextId + 1 := by
      rcases hw' with rfl | rfl <;> rfl
    have hplain : plainStep s.world s.plain (.create parent name mode flags)
        (.created attr s.world.nextFh)
          = (s.plain.create p).openAt s.world.nextFh p flags.append := by
      unfold plainStep
      simp only [hname]
    refine ⟨hwritable, w', ?_, hw'⟩
    rw [← hplain]
    exact next_made s env (.create parent name mode flags) (serveFuse_ok _ hrun) hnext

theorem next_removed (henv : env.Succeeds) {p : FsPath} {parent : UInt64} {name : Component}
    (hname : s.world.namedPath parent name = some p) (hmode : pol.classify p = .copyOnWrite) :
    s.next pol env (.unlink parent name)
      = ⟨({ s.world with faults := env.faults } : World).removed p, s.plain.remove p, s.made⟩ := by
  have hrun := unlink_quiet (w := { s.world with faults := env.faults }) env henv.1 hmode hname
  have hplain : plainStep s.world s.plain (.unlink parent name) .ok = s.plain.remove p := by
    unfold plainStep
    simp only [hname]
  rw [next_still s env (.unlink parent name) (serveFuse_ok _ hrun) rfl, hplain]

/-- The counter of objects never goes back. -/
theorem made_le_next (s : Session) (env : Env) (req : FuseRequest) :
    s.made ≤ (s.next pol env req).made := by
  unfold Session.next
  show s.made ≤ if _ then s.made else s.made + 1
  split
  · exact Nat.le_refl _
  · exact Nat.le_succ _

variable (h : Mirrors pol fs s) (henv : env.Succeeds)

include h

/-- The world that the request finds. -/
theorem Mirrors.served (faults : List (Option RpcFault)) :
    Mirrors pol fs ⟨{ s.world with faults }, s.plain, s.made⟩ := h.congr rfl rfl rfl

include henv

theorem Mirrors.next_open (hfs : RegularFiles fs) {ino : UInt64} {flags : OpenFlags}
    (hreq : s.Allows pol (.open ino flags))
    (hbound : (s.next pol env (.open ino flags)).made ≤ 2 ^ 64) :
    Mirrors pol fs (s.next pol env (.open ino flags)) := by
  obtain ⟨hq, hio⟩ := henv
  obtain ⟨p, hino, hmode, hwrite⟩ := hreq
  have hpath : s.world.inodes.getPath ino = some p := hino
  have h₀ := h.served env.faults
  have hplain : ∀ fh, plainStep s.world s.plain (.open ino flags) (.opened fh)
      = if flags.needWrite then s.plain.openAt fh p flags.append else s.plain.close fh := by
    intro fh
    unfold plainStep
    simp only [hpath]
  cases hneed : flags.needWrite with
  | false =>
    rcases open_reading (w := { s.world with faults := env.faults }) env hq hmode hpath hneed
      with ⟨file, hrun⟩ | ⟨err, hrun⟩
    · rw [next_still s env (.open ino flags) (serveFuse_ok _ hrun) rfl, hplain, if_neg (by simp [hneed])]
      exact (h₀.close s.world.nextFh fun fh hne => Finmap.lookup_insert_of_ne _ hne).congr rfl rfl rfl
    · rw [next_still s env (.open ino flags) (serveFuse_error _ hrun) rfl]
      have hsame : plainStep s.world s.plain (.open ino flags) (.error (errToErrno err))
          = s.plain := by
        unfold plainStep
        simp only [hpath]
      rw [hsame]
      exact h₀
  | true =>
    obtain ⟨htrunc, hk⟩ := hwrite hneed
    have hwritable : (flags.needWrite || flags.append) = true := by rw [hneed]; rfl
    rcases h.regular hfs hmode hk with ⟨md, id, data, he, hdata⟩ | ⟨he, data, hdata⟩
    · -- the object is there
      have hrun := open_object (w := { s.world with faults := env.faults }) env hq hmode hpath
        hneed he nofun rfl hdata
      rw [next_still s env (.open ino flags) (serveFuse_ok _ hrun) rfl, hplain, if_pos hneed]
      exact h₀.openAt (ownObject_ofObject he) hwritable
    · -- the copy-up
      have hreal : s.world.host.readFile p = .ok data := by
        rw [h.host]
        exact hfs.readFile hdata
      have hexists : s.world.host.exists p = true := by
        rw [h.host]
        exact hfs.exists_of_file hdata
      have hrun := open_copyUp (w := { s.world with faults := env.faults }) env hq hio hmode
        hpath hneed htrunc he hreal hexists
      have hmade := next_made s env (.open ino flags) (serveFuse_ok _ hrun) rfl
      rw [hplain, if_pos hneed] at hmade
      rw [hmade] at hbound ⊢
      have hfree : ownObject s.world p = none := by
        unfold ownObject
        rw [he]
        rfl
      have hnew := h₀.newObject (show s.made < 2 ^ 64 from hbound) hmode hfree
        (typeBits_regular 0 0o644 env.uid env.gid env) data
      have hself : s.plain.put p (some data) = s.plain := by
        apply FlatStore.put_self
        rw [h.files]
        unfold heldAt
        rw [he, h.host]
        exact hdata
      rw [hself] at hnew
      have hobject : ownObject (({ s.world with faults := env.faults } : World).newObject p
          (fileMetaNow env 0 (S_IFREG ||| 0o644) env.uid env.gid) data) p
            = some s.world.daemon.state.nextId := by
        apply ownObject_ofObject
        rw [World.entry_newObject, if_pos rfl]
      exact hnew.openAt hobject hwritable

theorem Mirrors.next_create {parent : UInt64} {name : Component} {mode : UInt32}
    {flags : OpenFlags} (hreq : s.Allows pol (.create parent name mode flags))
    (hbound : (s.next pol env (.create parent name mode flags)).made ≤ 2 ^ 64) :
    Mirrors pol fs (s.next pol env (.create parent name mode flags)) := by
  obtain ⟨p, hname, hmode, hk⟩ := hreq
  have h₀ := h.served env.faults
  have hfree : ownObject s.world p = none :=
    ownObject_of_absent hmode hk fun e he => ⟨_, (h.entries p e he).2⟩
  -- what the new object comes to
  have hnew : s.made < 2 ^ 64 → Mirrors pol fs
      ⟨s.created env p mode, s.plain.create p, s.made + 1⟩ := fun hlt =>
    h₀.newObject hlt hmode hfree (typeBits_regular 0 mode env.uid env.gid env) []
  rcases next_created henv hname hmode hfree mode flags with hnext | ⟨hwritable, w', hnext, hw'⟩
  · rw [hnext] at hbound ⊢
    exact hnew hbound
  · rw [hnext] at hbound ⊢
    have hobject : ownObject (s.created env p mode) p = some s.world.daemon.state.nextId := by
      apply ownObject_ofObject
      unfold Session.created
      rw [World.entry_newObject, if_pos rfl]
    have hopen := (hnew hbound).openAt hobject hwritable
    rcases hw' with rfl | rfl
    · exact hopen
    · exact hopen.congr rfl rfl rfl

theorem Mirrors.next_write {ino fh : UInt64} {offset : ℕ} {data : Bytes}
    (hreq : s.Allows pol (.write ino fh offset data)) :
    Mirrors pol fs (s.next pol env (.write ino fh offset data)) := by
  obtain ⟨hino, hfh⟩ := hreq
  obtain ⟨handle, hhandle⟩ := Option.isSome_iff_exists.mp hfh
  obtain ⟨opts, k, -, hfile, hopts, happend, hstored, howner⟩ := h.handles fh handle hhandle
  obtain ⟨old, hold⟩ := Option.isSome_iff_exists.mp hstored
  have hrun := write_quiet (w := { s.world with faults := env.faults }) henv.1 hino hfile hopts
    hold offset data
  rw [next_still s env (.write ino fh offset data) (serveFuse_ok _ hrun) rfl]
  exact (h.served env.faults).write hhandle happend howner hold offset data

theorem Mirrors.next_unlink {parent : UInt64} {name : Component}
    (hreq : s.Allows pol (.unlink parent name)) :
    Mirrors pol fs (s.next pol env (.unlink parent name)) := by
  obtain ⟨p, hname, hmode, -⟩ := hreq
  rw [next_removed henv hname hmode]
  exact (h.served env.faults).removed hmode

/-- **One operation** keeps the simulation as long as ids last. -/
theorem Mirrors.next (hfs : RegularFiles fs) (hreq : s.Allows pol req)
    (hbound : (s.next pol env req).made ≤ 2 ^ 64) : Mirrors pol fs (s.next pol env req) := by
  have h₀ := h.served env.faults
  cases req with
  | «open» ino flags => exact h.next_open henv hfs hreq hbound
  | create parent name mode flags => exact h.next_create henv hreq hbound
  | write ino fh offset data => exact h.next_write henv hreq
  | unlink parent name => exact h.next_unlink henv hreq
  | lookup parent name =>
    obtain ⟨inodes, hend⟩ := lookup_inodes (w := { s.world with faults := env.faults }) pol env henv.1 parent name
    rw [next_still s env (.lookup parent name)
      (w := { s.world with faults := env.faults, inodes }) (Prod.ext rfl
      ((serveFuse_world pol env s.world _).trans hend)) rfl]
    exact h₀.congr rfl rfl rfl
  | read ino fh offset size =>
    rw [next_still s env (.read ino fh offset size)
      (w := { s.world with faults := env.faults }) (Prod.ext rfl
      ((serveFuse_world pol env s.world _).trans (read_still henv.1 ino fh offset size))) rfl]
    exact h₀
  | release fh flush =>
    have hrun := release_quiet (w := { s.world with faults := env.faults }) henv.1 fh flush
    rw [next_still s env (.release fh flush) (serveFuse_ok _ hrun) rfl]
    exact h₀.close fh fun fh' hne => Finmap.lookup_erase_ne hne
  | _ => exact hreq.elim

end Next

/-! ## §5. What a fresh open reads. -/

section Fresh

variable {pol : Policy} {fs : FileSystem} {s : Session} {env : Env} {ino : UInt64} {p : FsPath}

/-- A file that a host opens where it has no regular file cannot be read. -/
theorem RegularFiles.readIno_error (hfs : RegularFiles fs) (hfile : hostFile fs p = none)
    {cred : Cred} {i : Ino} {fs' : FileSystem}
    (hopen : fs.openFile cred rdonly.options p = .ok (i, fs')) (offset len : ℕ) :
    ∃ errno, fs.readIno i offset len = .error errno := by
  obtain ⟨-, q, hat, hname⟩ := FileSystem.openFile_existing rfl hopen
  obtain rfl : q = p := walkFrom_noLinks hfs.noLinks hat
  unfold FileSystem.readIno
  cases hinode : fs.inodes.lookup i with
  | none => exact ⟨_, rfl⟩
  | some inode =>
    cases hc : inode.content with
    | file data =>
      have hnode : fs.node q = some inode := by
        unfold FileSystem.node
        rw [show fs.names.lookup q = some i from hname]
        exact hinode
      unfold hostFile at hfile
      rw [hnode] at hfile
      simp only [Option.bind_some, hc] at hfile
      cases hfile
    | dir => exact ⟨.eisdir, by simp only [hc]⟩
    | symlink target => exact ⟨.ebadf, by simp only [hc]⟩

variable (henv : env.faults = []) (hino : s.world.inodes.getPath ino = some p)

include henv hino

/-- A path without an entry reads from the host. -/
theorem freshRead_host (hfs : RegularFiles s.world.host) (hentry : s.world.entry p = none)
    (hmode : pol.classify p ≠ .fuseOnly) (offset len : ℕ) :
    freshRead pol env s.world ino offset len
      = (hostFile s.world.host p).map fun data => readAt data offset len := by
  have hq : ({ s.world with faults := env.faults } : World).faults = [] := henv
  obtain ⟨state, hload, haccess, hread, hfound, -⟩ := loadOpenState_reading pol env
    p hq
  have hdecide : decideOpen state = .openReal := by
    rw [decideOpen_rdonly _ hread, hfound, haccess]
    rw [show World.entry { s.world with faults := env.faults } p = none from hentry]
    cases hc : pol.classify p with
    | fuseOnly => exact absurd hc hmode
    | passthrough => rfl
    | copyOnWrite => rfl
  cases hfile : hostFile s.world.host p with
  | some data =>
    obtain ⟨fd, hopen, hreads⟩ := openHost_readFile env
      (w := { s.world with faults := env.faults }) (hfs.readFile hfile)
    have hrun : executeOpen env .openReal p rdonly (fileMetaNow env 0 (S_IFREG ||| 0o644) env.uid
        env.gid) { s.world with faults := env.faults }
          = .ok (.passthroughReal fd) { s.world with faults := env.faults } :=
      (run_bind_ok hopen).trans rfl
    rw [← hdecide] at hrun
    exact freshRead_reads henv hino hload hrun hreads offset len
  | none =>
    cases hopen : s.world.host.openFile env.cred rdonly.options p with
    | error errno =>
      have hrun : executeOpen env .openReal p rdonly (fileMetaNow env 0 (S_IFREG ||| 0o644) env.uid
          env.gid) { s.world with faults := env.faults }
            = .error (.ofErrno errno) { s.world with faults := env.faults } :=
        run_bind_error (run_bind_error (onHost_error hopen))
      rw [← hdecide] at hrun
      exact freshRead_failed henv hino hload hrun offset len
    | ok r =>
      obtain ⟨i, host⟩ := r
      obtain ⟨rfl, -⟩ := FileSystem.openFile_existing rfl hopen
      have hfd : openHost env rdonly.options p { s.world with faults := env.faults }
          = .ok (fdOf rdonly.options (.host i)) { s.world with faults := env.faults } :=
        (run_bind_ok (onHost_ok hopen)).trans rfl
      have hrun : executeOpen env .openReal p rdonly (fileMetaNow env 0 (S_IFREG ||| 0o644) env.uid
          env.gid) { s.world with faults := env.faults }
            = .ok (.passthroughReal (fdOf rdonly.options (.host i)))
                { s.world with faults := env.faults } := (run_bind_ok hfd).trans rfl
      rw [← hdecide] at hrun
      obtain ⟨errno, herr⟩ := hfs.readIno_error hfile hopen offset len
      have hbytes := readAt_of_error (fdOf rdonly.options (.host i))
        (w := World.withHandle { s.world with faults := env.faults }
          (.passthroughReal (fdOf rdonly.options (.host i)))) rfl herr
      apply (freshRead_opened henv hino hload hrun offset len).trans
      exact congrArg (fun r => (outcome r).toOption) hbytes

/-- A path with an object reads from the object. -/
theorem freshRead_object (hmode : pol.classify p = .copyOnWrite) {md : FileMetadata} {id : UInt64}
    (he : s.world.entry p = some (.ofObject md id)) {data : Bytes}
    (hdata : s.world.objects.lookup (objectPath id) = some data) (offset len : ℕ) :
    freshRead pol env s.world ino offset len = some (readAt data offset len) := by
  have hq : ({ s.world with faults := env.faults } : World).faults = [] := henv
  obtain ⟨state, hload, haccess, hread, hfound, hpath⟩ := loadOpenState_reading pol env
    p hq
  rw [show World.entry { s.world with faults := env.faults } p = some _ from he] at hfound hpath
  have hstored : s.world.stored id = some (objectPath id) := by
    unfold World.stored
    rw [hdata]
    rfl
  have hdecide : decideOpen state = .openObject (some id) false false false :=
    decideOpen_rdonly_object (haccess.trans hmode) hread (by rw [hfound]; rfl)
      (by rw [hfound]; rfl) (hpath.trans hstored)
  have hrun := executeOpen_object (w := { s.world with faults := env.faults }) env p hq
    (fileMetaNow env 0 (S_IFREG ||| 0o644) env.uid env.gid) hdata
  rw [← hdecide] at hrun
  exact freshRead_reads henv hino hload hrun hdata offset len

/-- **A fresh open reads what the plain map holds.** -/
theorem Mirrors.freshRead (h : Mirrors pol fs s) (hfs : RegularFiles fs)
    (hmode : pol.classify p ≠ .fuseOnly) (offset len : ℕ) :
    Fuse.freshRead pol env s.world ino offset len
      = (s.plain.files p).map fun data => readAt data offset len := by
  have hq : ({ s.world with faults := env.faults } : World).faults = [] := henv
  obtain ⟨state, hload, haccess, hread, hfound, hpath⟩ := loadOpenState_reading pol env
    p hq
  rw [h.files]
  cases he : s.world.entry p with
  | none =>
    rw [freshRead_host henv hino (by rw [h.host]; exact hfs) he hmode]
    unfold heldAt
    rw [he]
  | some e =>
    obtain ⟨hcow, hplain⟩ := h.entries p e he
    rw [show World.entry { s.world with faults := env.faults } p = some e from he] at hfound hpath
    rcases hplain with rfl | ⟨md, k, -, -, rfl⟩
    · -- a whiteout
      have hnone : heldAt s.world p = none := by
        unfold heldAt
        rw [he]
        rfl
      have hdecide : decideOpen state = .notFound := by
        rw [decideOpen_rdonly _ hread, hfound]
        rfl
      rw [hnone]
      exact freshRead_failed henv hino hload (by rw [hdecide]; rfl) offset len
    · -- an object
      have hobject : ownObject s.world p = some (issuedId k) := ownObject_ofObject he
      obtain ⟨data, hdata⟩ := Option.isSome_iff_exists.mp (h.stored p _ hobject)
      rw [heldAt_object hobject, hdata]
      exact freshRead_object henv hino hcow he hdata offset len

end Fresh

/-! ## §6. Runs. -/

section Run

variable {pol : Policy} {fs : FileSystem} {s t : Session}

theorem step_some {op : Env × FuseRequest} (h : s.step pol op = some t) :
    op.1.Succeeds ∧ s.Allows pol op.2 ∧ t = s.next pol op.1 op.2 := by
  unfold Session.step at h
  split at h
  · next hop => exact ⟨hop.1, hop.2, (Option.some.inj h).symm⟩
  · cases h

/-- **A run** keeps the simulation as long as ids last. -/
theorem mirrors_run (hfs : RegularFiles fs) {ops : List (Env × FuseRequest)}
    (hs : Mirrors pol fs s) (hrun : run (Session.step pol) s ops = some t)
    (hbound : t.made ≤ 2 ^ 64) : Mirrors pol fs t := by
  have key : t.made ≤ 2 ^ 64 → Mirrors pol fs t := by
    apply run_invariant (I := fun s => s.made ≤ 2 ^ 64 → Mirrors pol fs s) _ (fun _ => hs) hrun
    intro s op s' ih hstep hle
    obtain ⟨henv, hreq, rfl⟩ := step_some hstep
    have hmade : s.made ≤ 2 ^ 64 := (made_le_next s op.1 op.2).trans hle
    exact (ih hmade).next henv hfs hreq hle
  exact key hbound

/-- **CopyOnWrite paths refine the plain map** while no more than 2^64 objects are made: every
fresh open and read returns its bytes, and the host is as it was. -/
theorem plainMap_run (pol : Policy) {fs : FileSystem} (hfs : RegularFiles fs) (shmName : String)
    {ops : List (Env × FuseRequest)} {s : Session}
    (hrun : run (Session.step pol) (Session.start fs shmName) ops = some s)
    (hbound : s.made ≤ 2 ^ 64) :
    s.world.host = fs ∧ ∀ p ino, pol.classify p ≠ .fuseOnly →
      s.world.inodes.getPath ino = some p → ∀ env : Env, env.faults = [] → ∀ offset len,
        freshRead pol env s.world ino offset len
          = (s.plain.files p).map fun data => readAt data offset len := by
  have h : Mirrors pol fs s := mirrors_run hfs (mirrors_start pol fs shmName) hrun hbound
  exact ⟨h.host, fun p ino hmode hino env henv offset len =>
    h.freshRead henv hino hfs hmode offset len⟩

end Run

/-! ## §7. Where the ids come around. -/

theorem regularFiles_twoFiles : RegularFiles twoFiles := by
  have hnode : ∀ p inode, twoFiles.node p = some inode →
      p = [] ∧ inode.content = .dir ∨ ∃ n data, p = [n] ∧ inode.content = .file data := by
    intro p inode hp
    unfold twoFiles at hp
    rw [FileSystem.node_ofMap, lookup_insert_ite] at hp
    split at hp
    · next hroot =>
      cases hp
      exact Or.inl ⟨hroot, rfl⟩
    · rw [lookup_insert_ite] at hp
      split at hp
      · next ha =>
        cases hp
        exact Or.inr ⟨_, _, ha, rfl⟩
      · obtain ⟨rfl, rfl⟩ := lookup_singleton_eq_some.mp hp
        exact Or.inr ⟨_, _, rfl, rfl⟩
  constructor
  · intro p target hp
    obtain ⟨inode, hinode, hkind⟩ := Option.map_eq_some_iff.mp hp
    rcases hnode p inode hinode with ⟨-, hc⟩ | ⟨n, data, -, hc⟩
    · rw [hc] at hkind
      cases hkind
    · rw [hc] at hkind
      cases hkind
  · intro p q hp hq hbelow
    obtain ⟨kind, hkind⟩ := Option.ne_none_iff_exists'.mp hp
    obtain ⟨inode, hinode, -⟩ := Option.map_eq_some_iff.mp hkind
    -- no path of the host is longer than one name
    have hlen : p.length ≤ 1 := by
      rcases hnode p inode hinode with ⟨rfl, -⟩ | ⟨n, data, rfl, -⟩ <;> simp
    have hshort : q.length = 0 := by
      have := (below_iff_length.mp hbelow).2
      omega
    exact absurd (List.length_eq_zero_iff.mp hshort) hq

/-- A file `/c` comes and goes. -/
def createC : Env × FuseRequest :=
  (Env.quiet, .create 1 (.name Name.c) 0o644 ⟨.wronly, false, false⟩)

def unlinkC : Env × FuseRequest := (Env.quiet, .unlink 1 (.name Name.c))

/-- `/a` is opened for writing. -/
def copyUpA : List (Env × FuseRequest) :=
  [(Env.quiet, .lookup 1 (.name Name.a)), (Env.quiet, .open 2 ⟨.rdwr, false, false⟩), createC,
    unlinkC]

/-- The session after operations that are all allowed. -/
def Session.after (s : Session) (ops : List (Env × FuseRequest)) : Session :=
  ops.foldl (fun s op => s.next allCopyOnWrite op.1 op.2) s

def copiedUpA : Session := (Session.start twoFiles "s").after copyUpA

theorem run_copyUpA :
    run (Session.step allCopyOnWrite) (Session.start twoFiles "s") copyUpA = some copiedUpA := by
  refine Option.bind_eq_some_iff.mpr ⟨_, if_pos ⟨by decide, by decide⟩, ?_⟩
  refine Option.bind_eq_some_iff.mpr ⟨_, if_pos ⟨by decide, by decide⟩, ?_⟩
  refine Option.bind_eq_some_iff.mpr ⟨_, if_pos ⟨by decide, by decide⟩, ?_⟩
  exact Option.bind_eq_some_iff.mpr ⟨_, if_pos ⟨by decide, by decide⟩, rfl⟩

/-- The content of `/a` is there after the copy-up. -/
theorem plainMap_run_copyUpA :
    copiedUpA.world.host = twoFiles ∧
      freshRead allCopyOnWrite Env.quiet copiedUpA.world 2 0 1 = some [1] := by
  obtain ⟨hhost, hread⟩ := plainMap_run allCopyOnWrite regularFiles_twoFiles "s" run_copyUpA
    (by decide)
  exact ⟨hhost, hread [Name.a] 2 nofun (by decide) Env.quiet rfl 0 1⟩

/-- `/a` has the first object, `/c` is gone, and `n` objects have been made. -/
structure Cycled (n : ℕ) (s : Session) : Prop where
  inodes : s.world.inodes = copiedUpA.world.inodes
  counter : s.world.daemon.state.nextId = issuedId n
  made : s.made = n
  own : ∃ md, s.world.entry [Name.a] = some (.ofObject md (issuedId 0))
  plain : s.plain.files [Name.a] = some [1]
  gone : s.world.entry [Name.c] = some .whiteout

theorem cycled_copiedUpA : Cycled 2 copiedUpA where
  inodes := rfl
  counter := by decide
  made := by decide
  own := ⟨_, rfl⟩
  plain := by decide
  gone := by decide

theorem quiet_succeeds : Env.quiet.Succeeds := ⟨rfl, rfl⟩

theorem c_copyOnWrite : allCopyOnWrite.classify [Name.c] = .copyOnWrite := rfl

section Cycled

variable {n : ℕ} {s : Session} (h : Cycled n s)

include h

theorem Cycled.allowsCreate : s.Allows allCopyOnWrite createC.2 := by
  refine ⟨[Name.c], ?_, rfl, ?_⟩
  · show s.world.namedPath 1 (.name Name.c) = some [Name.c]
    unfold World.namedPath
    rw [h.inodes]
    decide
  · unfold statKind
    rw [h.gone]
    rfl

/-- `create /c` gives the next id to an empty object. -/
theorem Cycled.create : ∃ w plain, s.next allCopyOnWrite createC.1 createC.2 = ⟨w, plain, n + 1⟩ ∧
    w.inodes = copiedUpA.world.inodes ∧
    w.daemon = (s.created Env.quiet [Name.c] 0o644).daemon ∧
    plain.files [Name.a] = some [1] := by
  obtain ⟨p, hname, -, -⟩ := h.allowsCreate
  obtain rfl : p = [Name.c] := by
    have hname' : s.world.namedPath 1 (.name Name.c) = some p := hname
    unfold World.namedPath at hname'
    rw [h.inodes] at hname'
    exact (Option.some.inj hname').symm
  have hplain : (s.plain.create [Name.c]).files [Name.a] = some [1] := by
    unfold FlatStore.create
    rw [FlatStore.files_put, if_neg (by decide)]
    exact h.plain
  have hknown : (s.world.inodes.getOrInsert [Name.c]).2 = copiedUpA.world.inodes := by
    rw [h.inodes]
    decide
  have hstep := next_created quiet_succeeds hname c_copyOnWrite (ownObject_whiteout h.gone) 0o644
    ⟨.wronly, false, false⟩
  rw [h.made] at hstep
  rcases hstep with hnext | ⟨-, w, hnext, rfl | rfl⟩
  · exact ⟨_, _, hnext, h.inodes, rfl, hplain⟩
  · exact ⟨_, _, hnext, h.inodes, rfl, hplain⟩
  · exact ⟨_, _, hnext, hknown, rfl, hplain⟩

/-- The file comes and goes: one object more. -/
theorem Cycled.cycle : ∃ t, run (Session.step allCopyOnWrite) s [createC, unlinkC] = some t ∧
    Cycled (n + 1) t := by
  obtain ⟨w, plain, hnext, hinodes, hdaemon, hplain⟩ := h.create
  have hentry : ∀ q, w.entry q = if q = [Name.c] then
      some (.ofObject (createdMeta Env.quiet 0o644) s.world.daemon.state.nextId)
      else s.world.entry q := by
    intro q
    unfold World.entry
    rw [hdaemon]
    exact World.entry_newObject _ _ q _ _
  have hname : w.namedPath 1 (.name Name.c) = some [Name.c] := by
    unfold World.namedPath
    rw [hinodes]
    decide
  have hshown : statKind allCopyOnWrite w [Name.c] = some .regularFile := by
    unfold statKind
    rw [hentry, if_pos rfl]
    exact kindFromEntry_file (GoodEntry.ofObject (typeBits_regular 0 0o644 0 0 Env.quiet) _) rfl
  have hcreate : s.step allCopyOnWrite createC = some ⟨w, plain, n + 1⟩ :=
    hnext ▸ if_pos ⟨by decide, h.allowsCreate⟩
  have hremoved : Session.next allCopyOnWrite ⟨w, plain, n + 1⟩ unlinkC.1 unlinkC.2
      = ⟨({ w with faults := [] } : World).removed [Name.c], plain.remove [Name.c], n + 1⟩ :=
    next_removed (s := ⟨w, plain, n + 1⟩) quiet_succeeds hname c_copyOnWrite
  have hunlink : Session.step allCopyOnWrite ⟨w, plain, n + 1⟩ unlinkC
      = some ⟨({ w with faults := [] } : World).removed [Name.c], plain.remove [Name.c], n + 1⟩ :=
    hremoved ▸ if_pos ⟨by decide, [Name.c], hname, rfl, hshown⟩
  refine ⟨⟨({ w with faults := [] } : World).removed [Name.c], plain.remove [Name.c], n + 1⟩,
    ?_, ?_⟩
  · rw [run_cons, hcreate, Option.bind_some, run_cons, hunlink]
    rfl
  · obtain ⟨md, hown⟩ := h.own
    refine ⟨hinodes, ?_, rfl, ⟨md, ?_⟩, ?_, ?_⟩
    · show w.daemon.state.nextId = issuedId (n + 1)
      rw [hdaemon, ← issuedId_succ, ← h.counter]
      rfl
    · rw [World.entry_removed, if_neg (by decide)]
      show w.entry [Name.a] = _
      rw [hentry, if_neg (by decide)]
      exact hown
    · rw [FlatStore.files_remove, if_neg (by decide)]
      exact hplain
    · rw [World.entry_removed, if_pos rfl]

end Cycled

/-- `/c` comes and goes `n` times. -/
def cycles (n : ℕ) : List (Env × FuseRequest) := (List.replicate n [createC, unlinkC]).flatten

theorem cycled_run (n : ℕ) : ∃ t,
    run (Session.step allCopyOnWrite) copiedUpA (cycles n) = some t ∧ Cycled (n + 2) t := by
  induction n with
  | zero => exact ⟨copiedUpA, rfl, cycled_copiedUpA⟩
  | succ n ih =>
    obtain ⟨s, hrun, hs⟩ := ih
    obtain ⟨t, hcycle, ht⟩ := hs.cycle
    refine ⟨t, ?_, by rwa [Nat.add_right_comm]⟩
    unfold cycles
    rw [List.replicate_succ', List.flatten_append, run_append]
    show (run _ copiedUpA (cycles n)).bind _ = _
    rw [hrun, List.flatten_singleton]
    exact hcycle

/-- When `n` is a multiple of 2^64 the next object is that of `/a`, and its content is gone. -/
theorem Cycled.emptied {n : ℕ} {s : Session} (h : Cycled n s) (hwrap : issuedId n = issuedId 0) :
    ∃ t, run (Session.step allCopyOnWrite) s [createC] = some t ∧
      t.world.inodes.getPath 2 = some [Name.a] ∧ t.plain.files [Name.a] = some [1] ∧
      freshRead allCopyOnWrite Env.quiet t.world 2 0 1 = some [] := by
  obtain ⟨w, plain, hnext, hinodes, hdaemon, hplain⟩ := h.create
  obtain ⟨md, hown⟩ := h.own
  have hino : w.inodes.getPath 2 = some [Name.a] := by
    rw [hinodes]
    decide
  have hentry : w.entry [Name.a] = some (.ofObject md (issuedId 0)) := by
    unfold World.entry
    rw [hdaemon]
    exact (World.entry_newObject _ _ _ _ _).trans hown
  have hempty : w.objects.lookup (objectPath (issuedId 0)) = some [] := by
    rw [← hwrap, ← h.counter]
    unfold World.objects
    rw [hdaemon]
    exact (World.objects_newObject _ _ _ _ _).trans (if_pos rfl)
  refine ⟨⟨w, plain, n + 1⟩, ?_, hino, hplain, ?_⟩
  · have hcreate : s.step allCopyOnWrite createC = some ⟨w, plain, n + 1⟩ :=
      hnext ▸ if_pos ⟨by decide, h.allowsCreate⟩
    rw [run_cons, hcreate]
    rfl
  · exact freshRead_object (s := ⟨w, plain, n + 1⟩) rfl hino rfl hentry hempty 0 1

/-- After 2^64 objects the counter comes around and a new file takes the object of another; and
the host file of a FuseOnly path is not found. -/
theorem not_plainMap_run :
    (¬ ∀ (fs : FileSystem), RegularFiles fs → ∀ (shmName : String)
      (ops : List (Env × FuseRequest)) (s : Session),
      run (Session.step allCopyOnWrite) (Session.start fs shmName) ops = some s →
      ∀ p ino, s.world.inodes.getPath ino = some p →
        ∀ env : Env, env.faults = [] → ∀ offset len,
        freshRead allCopyOnWrite env s.world ino offset len
          = (s.plain.files p).map fun data => readAt data offset len) ∧
    (serveFuse allFuseOnly Env.quiet (Session.start twoFiles "s").world
        (.lookup 1 (.name Name.a))).1 = .error .enoent ∧
      (Session.start twoFiles "s").plain.files [Name.a] = some [1] := by
  refine ⟨?_, by decide, by decide⟩
  intro h
  obtain ⟨n, hwrap⟩ : ∃ n, issuedId (n + 2) = issuedId 0 := ⟨2 ^ 64 - 2, by decide⟩
  obtain ⟨s, hrun, hs⟩ := cycled_run n
  obtain ⟨t, hlast, hino, hplain, hread⟩ := hs.emptied hwrap
  have hall : run (Session.step allCopyOnWrite) (Session.start twoFiles "s")
      (copyUpA ++ cycles n ++ [createC]) = some t := by
    rw [run_append, run_append, run_copyUpA, Option.bind_some, hrun]
    exact hlast
  have hkept := h twoFiles regularFiles_twoFiles "s" _ t hall [Name.a] 2 hino Env.quiet rfl 0 1
  rw [hread, hplain] at hkept
  cases hkept

end Cas.Fuse
