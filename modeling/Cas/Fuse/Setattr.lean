/-
  Cas.Fuse.Setattr — what a setattr changes and what a stat and a fresh
  open see of it.

  A setattr works on one place: the file behind a handle, a file of the
  host, or an entry of the daemon (`setattrPlace`).  Stat looks at a place
  of its own (`attrPlace`), and so does an open for reading (`readsFrom`).
  `setattr_done_iff` says when these agree well enough.
-/
import Cas.Fuse.FreshRead
import Cas.Fuse.Inodes

namespace Cas.Fuse

open Cas.Lib Cas.Host Cas.Syncing

/-! ## §1. Files that change. -/

/-- Change the inode behind a descriptor. -/
def inodeOf (b : Backing) (f : Inode → Inode) (i : Ino) : Inode → Inode :=
  if b = .host i then f else id

/-- Change the object behind a descriptor. -/
def objectOf (b : Backing) (g : Bytes → Bytes) (o : ObjectPath) : Bytes → Bytes :=
  if b = .object o then g else id

/-- The file behind `b` has changed, and nothing else that a stat or an open looks at. -/
structure Edited (b : Backing) (f : Inode → Inode) (g : Bytes → Bytes) (w w' : World) : Prop where
  host : w.host.Changed (inodeOf b f) w'.host
  objects : ∀ o, w'.objects.lookup o = (w.objects.lookup o).map (objectOf b g o)
  state : w'.daemon.state = w.daemon.state
  inodes : w'.inodes = w.inodes

section Edited

variable {b : Backing} {f f' : Inode → Inode} {g g' : Bytes → Bytes} {w w' w'' : World}

theorem inodeOf_host (ino : Ino) (f : Inode → Inode) :
    inodeOf (.host ino) f = FileSystem.onlyAt ino f := by
  funext i
  unfold inodeOf FileSystem.onlyAt
  by_cases h : i = ino
  · rw [if_pos h, if_pos (congrArg Backing.host h.symm)]
  · rw [if_neg h, if_neg fun e => h (Backing.host.inj e).symm]

theorem inodeOf_object (o : ObjectPath) (f : Inode → Inode) :
    inodeOf (.object o) f = fun _ => id := by
  funext i
  exact if_neg nofun

theorem inodeOf_id (b : Backing) : inodeOf b id = fun _ => id := by
  funext i
  exact ite_self id

theorem objectOf_id (b : Backing) : objectOf b id = fun _ => id := by
  funext o
  exact ite_self id

theorem keepsKind_inodeOf (hf : Inode.KeepsKind f) (i : Ino) : Inode.KeepsKind (inodeOf b f i) := by
  unfold inodeOf
  split
  · exact hf
  · exact Inode.keepsKind_id

theorem Edited.refl : Edited b id id w w where
  host := by
    rw [inodeOf_id]
    exact FileSystem.Changed.refl
  objects o := by
    rw [objectOf_id]
    exact Option.map_id_apply.symm
  state := rfl
  inodes := rfl

theorem Edited.trans (h : Edited b f g w w') (h' : Edited b f' g' w' w'') :
    Edited b (f' ∘ f) (g' ∘ g) w w'' where
  host := by
    have hcomp : inodeOf b (f' ∘ f) = fun i => inodeOf b f' i ∘ inodeOf b f i := by
      funext i
      unfold inodeOf
      split <;> rfl
    rw [hcomp]
    exact h.host.trans h'.host
  objects o := by
    have hcomp : objectOf b (g' ∘ g) o = objectOf b g' o ∘ objectOf b g o := by
      unfold objectOf
      split <;> rfl
    rw [h'.objects, h.objects, Option.map_map, hcomp]
  state := h'.state.trans h.state
  inodes := h'.inodes.trans h.inodes

/-- A change of one inode of the host. -/
theorem edited_host {ino : Ino} {host : FileSystem}
    (h : w.host.Changed (FileSystem.onlyAt ino f) host) :
    Edited (.host ino) f g w { w with host } where
  host := by
    rw [inodeOf_host]
    exact h
  objects o := by
    have hother : objectOf (.host ino) g o = id := if_neg nofun
    rw [hother, Option.map_id_apply]
    rfl
  state := rfl
  inodes := rfl

/-- A change of one object. -/
theorem edited_object {o : ObjectPath} {data : Bytes} (h : w.objects.lookup o = some data) :
    Edited (.object o) f g w { w with daemon := { w.daemon with
      storage := { w.daemon.storage with
        objects := w.daemon.storage.objects.insert o (g data) } } } where
  host := by
    rw [inodeOf_object]
    exact FileSystem.Changed.refl
  objects o' := by
    show (w.daemon.storage.objects.insert o (g data)).lookup o' = _
    rw [lookup_insert_ite]
    unfold objectOf
    by_cases ho : o' = o
    · rw [if_pos ho, if_pos (congrArg Backing.object ho.symm), ho, h]
      rfl
    · rw [if_neg ho, if_neg fun e => ho (Backing.object.inj e).symm, Option.map_id_apply]
      rfl
  state := rfl
  inodes := rfl

end Edited

/-! ## §2. Calls on a descriptor. -/

section Calls

variable {w w' : World}

/-- A host call whose failure is dropped. -/
theorem endState_changeHost (f : FileSystem → Except Errno FileSystem) (w : World) :
    endState (changeHost f w) = { w with host := w.host.after (f w.host) } := by
  cases h : f w.host with
  | ok host =>
    rw [changeHost_ok h]
    rfl
  | error errno =>
    rw [changeHost_error h]
    rfl

theorem changeHost_eq_ok {f : FileSystem → Except Errno FileSystem}
    (h : changeHost f w = .ok () w') : ∃ host, f w.host = .ok host ∧ w' = { w with host } := by
  cases hf : f w.host with
  | ok host =>
    rw [changeHost_ok hf] at h
    cases h
    exact ⟨host, rfl, rfl⟩
  | error errno =>
    rw [changeHost_error hf] at h
    cases h

theorem modifyObject_eq_ok {path : ObjectPath} {f : Bytes → Bytes}
    (h : Fd.modifyObject path f w = .ok () w') : ∃ data, w.objects.lookup path = some data ∧
      w' = { w with daemon := { w.daemon with storage := { w.daemon.storage with
        objects := w.daemon.storage.objects.insert path (f data) } } } := by
  cases hlook : w.objects.lookup path with
  | none =>
    rw [Fd.modifyObject_missing f hlook] at h
    cases h
  | some data =>
    rw [Fd.modifyObject_found f hlook] at h
    cases h
    exact ⟨data, rfl, rfl⟩

theorem edited_setLen {fd : Fd} {size : Nat} (h : fd.setLen size w = .ok () w') :
    Edited fd.backing (Inode.resize size) (setLen · size) w w' := by
  unfold Fd.setLen at h
  split_ifs at h with hwritable
  · cases h
  · cases hb : fd.backing with
    | host ino =>
      rw [hb] at h
      obtain ⟨host, hset, rfl⟩ := changeHost_eq_ok h
      exact edited_host (FileSystem.changed_setLenIno hset)
    | object path =>
      rw [hb] at h
      obtain ⟨data, hlook, rfl⟩ := modifyObject_eq_ok h
      exact edited_object hlook

theorem edited_setPermissions (fd : Fd) (mode : UInt32) (w : World) :
    Edited fd.backing (Inode.chmod mode) id w (endState (fd.setPermissions mode w)) := by
  unfold Fd.setPermissions
  cases hb : fd.backing with
  | host ino =>
    show Edited _ _ _ w (endState (changeHost (fun fs => fs.chmodIno ino mode) w))
    rw [endState_changeHost]
    exact edited_host (FileSystem.changed_chmodIno ino mode)
  | object path =>
    show Edited _ _ _ w w
    have key : Edited (.object path) id id w w := Edited.refl
    exact ⟨by rw [inodeOf_object]; exact FileSystem.Changed.refl, key.objects, rfl, rfl⟩

theorem edited_chown (fd : Fd) (uid gid : Option UInt32) (w : World) :
    Edited fd.backing (Inode.chown uid gid) id w (endState (fd.chown uid gid w)) := by
  unfold Fd.chown
  cases hb : fd.backing with
  | host ino =>
    show Edited _ _ _ w (endState (changeHost (fun fs => fs.chownIno ino uid gid) w))
    rw [endState_changeHost]
    exact edited_host (FileSystem.changed_chownIno ino uid gid)
  | object path =>
    show Edited _ _ _ w w
    have key : Edited (.object path) id id w w := Edited.refl
    exact ⟨by rw [inodeOf_object]; exact FileSystem.Changed.refl, key.objects, rfl, rfl⟩

end Calls

/-! ## §3. The three ways to carry out a setattr. -/

/-- The content cut, or extended with zeros, to the requested size. -/
def cut (size : Option UInt64) (data : Bytes) : Bytes :=
  match size with
  | some sz => setLen data sz.toNat
  | none => data

def resized (size : Option UInt64) : Inode → Inode := size.elim id fun sz => Inode.resize sz.toNat

def rechmodded (mode : Option UInt32) : Inode → Inode :=
  mode.elim id fun m => Inode.chmod (m &&& 0o7777)

def rechowned (mode uid gid : Option UInt32) : Inode → Inode :=
  if mode.isSome || uid.isSome || gid.isSome then Inode.chown uid gid else id

/-- An inode after `set_len`, `chmod` and `chown`. -/
def setInode (mode uid gid : Option UInt32) (size : Option UInt64) : Inode → Inode :=
  rechowned mode uid gid ∘ rechmodded mode ∘ resized size

section Ways

variable {env : Env} {w w' : World} {p : FsPath} {mode uid gid : Option UInt32}
  {size : Option UInt64}

theorem keepsKind_resized (size : Option UInt64) : Inode.KeepsKind (resized size) := by
  cases size with
  | none => exact Inode.keepsKind_id
  | some sz => exact Inode.keepsKind_resize sz.toNat

theorem keepsKind_rechmodded (mode : Option UInt32) : Inode.KeepsKind (rechmodded mode) := by
  cases mode with
  | none => exact Inode.keepsKind_id
  | some m => exact Inode.keepsKind_chmod _

theorem keepsKind_rechowned (mode uid gid : Option UInt32) :
    Inode.KeepsKind (rechowned mode uid gid) := by
  unfold rechowned
  split
  · exact Inode.keepsKind_chown uid gid
  · exact Inode.keepsKind_id

theorem keepsKind_setInode (mode uid gid : Option UInt32) (size : Option UInt64) :
    Inode.KeepsKind (setInode mode uid gid size) :=
  (keepsKind_rechowned mode uid gid).comp ((keepsKind_rechmodded mode).comp (keepsKind_resized size))

theorem setattrOpenHandle_eq (fd : Fd) (mode uid gid : Option UInt32) (size : Option UInt64) :
    setattrOpenHandle fd mode uid gid size
      = (forSome size fun sz => fd.setLen sz.toNat) >>= fun _ =>
        (forSome mode fun m => ignore (fd.setPermissions (m &&& 0o7777))) >>= fun _ =>
        onlyIf (mode.isSome || uid.isSome || gid.isSome) (ignore (fd.chown uid gid)) := rfl

/-- **On a handle.** -/
theorem edited_setattrOpenHandle {fd : Fd}
    (h : setattrOpenHandle fd mode uid gid size w = .ok () w') :
    Edited fd.backing (setInode mode uid gid size) (cut size) w w' := by
  rw [setattrOpenHandle_eq] at h
  obtain ⟨_, w₁, hsize, h⟩ := bind_eq_ok.mp h
  obtain ⟨_, w₂, hmode, hown⟩ := bind_eq_ok.mp h
  have h₁ : Edited fd.backing (resized size) (cut size) w w₁ := by
    cases size with
    | none =>
      cases hsize
      exact Edited.refl
    | some sz => exact edited_setLen hsize
  have h₂ : Edited fd.backing (rechmodded mode) id w₁ w₂ := by
    cases mode with
    | none =>
      cases hmode
      exact Edited.refl
    | some m =>
      cases hmode
      exact edited_setPermissions fd _ w₁
  have h₃ : Edited fd.backing (rechowned mode uid gid) id w₂ w' := by
    unfold rechowned
    unfold onlyIf at hown
    split_ifs at hown ⊢
    · cases hown
      exact edited_chown fd uid gid w₂
    · cases hown
      exact Edited.refl
  exact (h₁.trans h₂).trans h₃

theorem setattrReal_eq (env : Env) (p : FsPath) (mode uid gid : Option UInt32)
    (size : Option UInt64) : setattrReal env p mode uid gid size
      = (forSome size fun sz => truncateReal env p sz.toNat) >>= fun _ =>
        (forSome mode fun m =>
          ignore (changeHost fun fs => fs.setPermissions p (m &&& 0o7777))) >>= fun _ =>
        onlyIf (mode.isSome || uid.isSome || gid.isSome)
          (ignore (changeHost fun fs => fs.chown p uid gid)) := rfl

/-- A change of one inode that keeps its kind leaves the path on that inode. -/
theorem Edited.found {ino : Ino} {f : Inode → Inode} {g : Bytes → Bytes}
    (h : Edited (.host ino) f g w w') (hf : Inode.KeepsKind f) {found : FileSystem.Found}
    (hfind : w.host.find true p = .ok found) : ∃ found', w'.host.find true p = .ok found' ∧
      found'.ino = found.ino ∧ found'.inode.content.kind = found.inode.content.kind := by
  rw [h.host.find (keepsKind_inodeOf hf), hfind]
  exact ⟨_, rfl, rfl, keepsKind_inodeOf hf found.ino found.inode⟩

/-- **On the host**, for a path that leads to a regular file. -/
theorem edited_setattrReal {found : FileSystem.Found} (hfind : w.host.find true p = .ok found)
    (hfile : found.inode.content.kind = .file)
    (h : setattrReal env p mode uid gid size w = .ok () w') :
    Edited (.host found.ino) (setInode mode uid gid size) (cut size) w w' := by
  rw [setattrReal_eq] at h
  obtain ⟨_, w₁, hsize, h⟩ := bind_eq_ok.mp h
  obtain ⟨_, w₂, hmode, hown⟩ := bind_eq_ok.mp h
  have h₁ : Edited (.host found.ino) (resized size) (cut size) w w₁ := by
    cases size with
    | none =>
      cases hsize
      exact Edited.refl
    | some sz =>
      have hopen : w.host.openFile env.cred
          { read := false, write := true, append := false, create := false, mode := 0 } p
            = .ok (found.ino, w.host) :=
        FileSystem.openFile_found rfl hfind (by rw [hfile]; exact nofun)
      have htrunc : truncateReal env p sz.toNat w = .ok () w₁ := hsize
      unfold truncateReal at htrunc
      rw [run_bind_ok (onHost_ok hopen)] at htrunc
      obtain ⟨host, hset, rfl⟩ := changeHost_eq_ok htrunc
      exact edited_host (FileSystem.changed_setLenIno hset)
  obtain ⟨found₁, hfind₁, hino₁, -⟩ := h₁.found (keepsKind_resized size) hfind
  have h₂ : Edited (.host found.ino) (rechmodded mode) id w₁ w₂ := by
    cases mode with
    | none =>
      cases hmode
      exact Edited.refl
    | some m =>
      cases hmode
      rw [endState_changeHost]
      have hcall : w₁.host.setPermissions p (m &&& 0o7777)
          = w₁.host.chmodIno found.ino (m &&& 0o7777) := by
        unfold FileSystem.setPermissions
        rw [hfind₁, ← hino₁]
      rw [hcall]
      exact edited_host (FileSystem.changed_chmodIno _ _)
  obtain ⟨found₂, hfind₂, hino₂, -⟩ := h₂.found (keepsKind_rechmodded mode) hfind₁
  have h₃ : Edited (.host found.ino) (rechowned mode uid gid) id w₂ w' := by
    unfold rechowned
    unfold onlyIf at hown
    split_ifs at hown ⊢
    · cases hown
      rw [endState_changeHost]
      have hcall : w₂.host.chown p uid gid = w₂.host.chownIno found.ino uid gid := by
        unfold FileSystem.chown
        rw [hfind₂, ← hino₁, ← hino₂]
      rw [hcall]
      exact edited_host (FileSystem.changed_chownIno _ _ _)
    · cases hown
      exact Edited.refl
  exact (h₁.trans h₂).trans h₃

/-- Both messages of `setattrMeta` get through; the reply to the second may be lost. -/
def metaArrives (faults : List (Option RpcFault)) : Prop :=
  faults.head?.join = none ∧ reaches faults.tail.head?.join = true

instance (faults : List (Option RpcFault)) : Decidable (metaArrives faults) :=
  inferInstanceAs (Decidable (_ ∧ _))

theorem getFileMeta_arrives (h : w.faults.head?.join = none) : Client.getFileMeta env p w
    = .ok ((w.entry p).map (·.metadata)) { w with faults := w.faults.tail } := by
  unfold Client.getFileMeta call
  rw [run_bind_ok (sendRequest_arrives _ h)]
  rfl

theorem getFileMeta_fails (env : Env) (p : FsPath) {fault : RpcFault}
    (h : w.faults.head?.join = some fault) :
    ∃ err, Client.getFileMeta env p w = .error err { w with faults := w.faults.tail } := by
  obtain ⟨err, hsend⟩ : ∃ err, sendRequest env (.getFileMeta p) w
      = .error (.syncingClient err) _ := sendRequest_fails _ _ h
  refine ⟨.syncingClient err, ?_⟩
  unfold Client.getFileMeta call
  rw [run_bind_error hsend]
  show EStateM.Result.error _ { w with
    faults := w.faults.tail
    daemon := if reaches (some fault) then w.daemon else w.daemon } = _
  rw [ite_self]

/-- **At the daemon**: the entry gets new metadata, if there is one and the messages arrive. -/
theorem run_setattrMeta (env : Env) (p : FsPath) (mode uid gid : Option UInt32)
    (size : Option UInt64) (w : World) : ∃ faults, setattrMeta env p mode uid gid size w
      = .ok () { w with
        faults
        daemon := match w.entry p with
          | some e => if metaArrives w.faults
            then (w.daemon.putFileMeta p (updateMeta env e.metadata mode uid gid size)).2
            else w.daemon
          | none => w.daemon } := by
  unfold setattrMeta
  rw [run_bind, run_attempt]
  cases hfault : w.faults.head?.join with
  | some fault =>
    obtain ⟨err, hget⟩ := getFileMeta_fails env p hfault
    rw [hget]
    refine ⟨w.faults.tail, ?_⟩
    have hlost : ¬ metaArrives w.faults := by
      intro h
      have hnone := h.1
      rw [hfault] at hnone
      cases hnone
    cases w.entry p with
    | none => rfl
    | some e =>
      simp only [if_neg hlost]
      rfl
  | none =>
    rw [getFileMeta_arrives hfault]
    cases he : w.entry p with
    | none => exact ⟨w.faults.tail, rfl⟩
    | some e =>
      refine ⟨w.faults.tail.tail, ?_⟩
      show EStateM.Result.ok () (endState (Client.putFileMeta env p
        (updateMeta env e.metadata mode uid gid size) { w with faults := w.faults.tail })) = _
      unfold Client.putFileMeta
      rw [endState_faulty]
      by_cases hreach : reaches w.faults.tail.head?.join = true
      · simp only [if_pos hreach, if_pos (show metaArrives w.faults from ⟨hfault, hreach⟩)]
        rfl
      · simp only [if_neg hreach, if_neg (show ¬ metaArrives w.faults from fun h => hreach h.2)]

end Ways

/-! ## §4. A whole request. -/

/-- What attributes or bytes are read from and written to. -/
inductive Place
  | file (b : Backing)
  | entry
  deriving DecidableEq

/-- The entry with new metadata. -/
def setEntry (env : Env) (mode uid gid : Option UInt32) (size : Option UInt64) (e : FuseEntry) :
    FuseEntry :=
  { e with metadata := updateMeta env e.metadata mode uid gid size }

/-- Where a setattr puts the new values: an open handle comes before the access mode, and an entry
has to be there and to be reached. -/
def setattrPlace (pol : Policy) (env : Env) (w : World) (p : FsPath) (fh : Option UInt64) :
    Option Place :=
  match fh.bind fun fh => w.openFiles.lookup fh with
  | some file => some (.file file.file.backing)
  | none =>
    match pol.classify p with
    | .passthrough => (hostFileAt w.host p).map .file
    | .fuseOnly | .copyOnWrite =>
      if (w.entry p).isSome ∧ metaArrives env.faults.tail then some .entry else none

/-- The new values are at `place`, and nothing else has changed. -/
structure Landed (env : Env) (mode uid gid : Option UInt32) (size : Option UInt64) (p : FsPath)
    (place : Option Place) (w w' : World) : Prop where
  host : w.host.Changed (fun i => if place = some (.file (.host i))
    then setInode mode uid gid size else id) w'.host
  objects : ∀ o, w'.objects.lookup o = (w.objects.lookup o).map
    (if place = some (.file (.object o)) then cut size else id)
  entry : w'.entry p = (w.entry p).map
    (if place = some .entry then setEntry env mode uid gid size else id)
  inodes : w'.inodes = w.inodes

section Request

variable {pol : Policy} {env : Env} {w w' : World} {p : FsPath} {ino : UInt64}
  {mode uid gid : Option UInt32} {size fh : Option UInt64}

/-- A file that has changed. -/
theorem Edited.landed {b : Backing} (h : Edited b (setInode mode uid gid size) (cut size) w w') :
    Landed env mode uid gid size p (some (.file b)) w w' where
  host := by
    have hsame : (fun i => if (some (Place.file b)) = some (.file (.host i))
        then setInode mode uid gid size else id) = inodeOf b (setInode mode uid gid size) := by
      funext i
      unfold inodeOf
      simp only [Option.some.injEq, Place.file.injEq]
    rw [hsame]
    exact h.host
  objects o := by
    have hsame : (if (some (Place.file b)) = some (.file (.object o)) then cut size else id)
        = objectOf b (cut size) o := by
      unfold objectOf
      simp only [Option.some.injEq, Place.file.injEq]
    rw [hsame]
    exact h.objects o
  entry := by
    rw [if_neg nofun, Option.map_id_apply]
    unfold World.entry
    rw [h.state]
  inodes := h.inodes

/-- The daemon has served the messages of `setattrMeta`, or not. -/
theorem landed_setattrMeta {w₁ : World} (hw₁ : w₁ = { w with faults := env.faults.tail })
    (h : setattrMeta env p mode uid gid size w₁ = .ok () w') :
    Landed env mode uid gid size p
      (if (w.entry p).isSome ∧ metaArrives env.faults.tail then some .entry else none) w w' := by
  subst hw₁
  obtain ⟨faults, hrun⟩ := run_setattrMeta env p mode uid gid size
    { w with faults := env.faults.tail }
  rw [h] at hrun
  cases hrun
  have hentry : ({ w with faults := env.faults.tail } : World).entry p = w.entry p := rfl
  have hnowhere : ∀ daemon, daemon = w.daemon →
      Landed env mode uid gid size p none w { w with faults, daemon } := by
    rintro daemon rfl
    refine ⟨?_, fun o => ?_, ?_, rfl⟩
    · simp only [reduceCtorEq, if_false]
      exact FileSystem.Changed.refl
    · simp only [reduceCtorEq, if_false, Option.map_id_apply]
      rfl
    · simp only [reduceCtorEq, if_false, Option.map_id_apply]
      rfl
  cases he : w.entry p with
  | none =>
    rw [if_neg (by simp)]
    apply hnowhere
    simp only [hentry, he]
  | some e =>
    by_cases harrives : metaArrives env.faults.tail
    · rw [if_pos ⟨rfl, harrives⟩]
      have hput : w.daemon.putFileMeta p (updateMeta env e.metadata mode uid gid size)
          = (.putFileMeta, w.daemon.withState { w.daemon.state with
            fuseMap := w.daemon.state.fuseMap.insert p (setEntry env mode uid gid size e) }) := by
        unfold Server.putFileMeta
        rw [show w.daemon.state.fuseMap.lookup p = some e from he]
        rfl
      simp only [hentry, he, if_pos harrives, hput]
      refine ⟨?_, fun o => ?_, ?_, rfl⟩
      · simp only [Option.some.injEq, reduceCtorEq, if_false]
        exact FileSystem.Changed.refl
      · simp only [Option.some.injEq, reduceCtorEq, if_false, Option.map_id_apply]
        rfl
      · rw [if_pos rfl, he]
        exact Finmap.lookup_insert _
    · rw [if_neg fun hc => harrives hc.2]
      apply hnowhere
      simp only [hentry, he, if_neg harrives]

/-- **The new values land** where `setattrPlace` says. -/
theorem landed_setattr (hw : Reachable pol w) (hino : w.inodes.getPath ino = some p) {s : Shown}
    (hs : shownAt pol w p = some s) (hk : s.kind = .regularFile) {attr : FileAttr}
    (hreply : (serveFuse pol env w (.setattr ino mode uid gid size fh)).1 = .attr attr) :
    Landed env mode uid gid size p (setattrPlace pol env w p fh) w
      (serveFuse pol env w (.setattr ino mode uid gid size fh)).2 := by
  have hrun : setattr pol env ino mode uid gid size fh { w with faults := env.faults }
      = .ok (.attr attr) _ := handle_of_serveFuse hreply nofun
  revert hrun
  generalize (serveFuse pol env w (.setattr ino mode uid gid size fh)).2 = w'
  intro hrun
  have hpath : pathOf ino { w with faults := env.faults } = .ok p { w with faults := env.faults } :=
    pathOf_ok hino
  unfold setattr at hrun
  rw [run_bind_ok hpath] at hrun
  obtain ⟨_, w₁, hconnect, hrun⟩ := bind_eq_ok.mp hrun
  have hw₁ : w₁ = { w with faults := env.faults.tail } := (connectDaemon_eq_ok.mp hconnect).2
  obtain ⟨file, w₂, hfile, hrun⟩ := bind_eq_ok.mp hrun
  cases hfile
  obtain ⟨_, w₂, happly, hattr⟩ := bind_eq_ok.mp hrun
  -- what was carried out
  have hlanded : Landed env mode uid gid size p (setattrPlace pol env w p fh) w w₂ := by
    have hfiles : w₁.openFiles = w.openFiles := by rw [hw₁]
    unfold setattrPlace
    rw [hfiles] at happly
    cases hopen : fh.bind fun fh => w.openFiles.lookup fh with
    | some file =>
      have hpresent : fh.isSome = true := by
        cases fh with
        | none => cases hopen
        | some fh => rfl
      have hdecide : decideSetattr (loadSetattrState pol p fh.isSome (some file).isSome mode uid gid
          size) = .updateOpenHandle := by
        unfold decideSetattr loadSetattrState
        simp [hpresent]
      rw [hopen, hdecide] at happly
      have hedit := edited_setattrOpenHandle (show setattrOpenHandle file.file mode uid gid size w₁
        = .ok () w₂ from happly)
      have hedit' : Edited file.file.backing (setInode mode uid gid size) (cut size) w w₂ := by
        subst hw₁
        exact ⟨hedit.host, hedit.objects, hedit.state, hedit.inodes⟩
      exact hedit'.landed
    | none =>
      have hdecide : decideSetattr (loadSetattrState pol p fh.isSome (none : Option OpenFile).isSome
          mode uid gid size) = match pol.classify p with
            | .passthrough => .updateRealFs
            | .fuseOnly | .copyOnWrite => .updateDaemonMeta := by
        unfold decideSetattr loadSetattrState
        cases pol.classify p <;> simp
      rw [hopen, hdecide] at happly
      cases hmode : pol.classify p with
      | passthrough =>
        rw [hmode] at happly
        have hhost : shownAt pol w p = hostShown w.host p := shownAt_host (Or.inl hmode)
        obtain ⟨found, data, -, hfind, hdata⟩ := hostShown_regular (hhost ▸ hs) hk
        have hplace : hostFileAt w.host p = some (.host found.ino) := by
          unfold hostFileAt
          rw [hfind]
          rfl
        have hfind₁ : w₁.host.find true p = .ok found := by
          rw [hw₁]
          exact hfind
        have hedit := edited_setattrReal hfind₁ (by rw [hdata]; rfl)
          (show setattrReal env p mode uid gid size w₁ = .ok () w₂ from happly)
        have hedit' : Edited (.host found.ino) (setInode mode uid gid size) (cut size) w w₂ := by
          subst hw₁
          exact ⟨hedit.host, hedit.objects, hedit.state, hedit.inodes⟩
        rw [hplace]
        exact hedit'.landed
      | fuseOnly =>
        rw [hmode] at happly
        exact landed_setattrMeta hw₁ happly
      | copyOnWrite =>
        rw [hmode] at happly
        exact landed_setattrMeta hw₁ happly
  -- the stat for the reply changes nothing: the path has its number
  have hafter : w'.host = w₂.host ∧ w'.daemon = w₂.daemon ∧ w'.inodes = w₂.inodes := by
    have hknown : (w₂.inodes.getOrInsert p).2 = w₂.inodes := by
      rw [hlanded.inodes]
      exact hw.indexed.getOrInsert_known hino
    have hkeeps : Keeps (fun v => v.host = w₂.host ∧ v.daemon = w₂.daemon ∧ v.inodes = w₂.inodes)
        (attrReply pol env p) := by
      apply Keeps.bind (keeps_stat pol env (fun _ _ h => h) _) fun _ => Keeps.ret
      rintro v ⟨hhost, hdaemon, hinodes⟩
      refine ⟨hhost, hdaemon, ?_⟩
      show (v.inodes.getOrInsert p).2 = _
      rw [hinodes, hknown]
    have hend := hkeeps.endState (s := w₂) ⟨rfl, rfl, rfl⟩
    rw [hattr] at hend
    exact hend
  obtain ⟨hhost, hdaemon, hinodes⟩ := hafter
  refine ⟨?_, fun o => ?_, ?_, hinodes.trans hlanded.inodes⟩
  · rw [hhost]
    exact hlanded.host
  · unfold World.objects
    rw [hdaemon]
    exact hlanded.objects o
  · unfold World.entry
    rw [hdaemon]
    exact hlanded.entry

end Request

/-! ## §5. What is seen afterwards. -/

/-- The attributes with the requested ones replaced. -/
def Shown.requested (mode uid gid : Option UInt32) (size : Option UInt64) (s : Shown) : Shown :=
  { s with
    size := (size.map (·.toNat)).getD s.size
    perm := (mode.map (· &&& 0o7777)).getD s.perm
    uid := uid.getD s.uid
    gid := gid.getD s.gid }

/-- What the truncation and the `chown` of a setattr make of the attributes of a host file. -/
def Shown.stripped (mode uid gid : Option UInt32) (size : Option UInt64) (s : Shown) : Shown :=
  if mode.isSome || uid.isSome || gid.isSome || size.isSome then
    { s with perm := dropSetIds s.perm }
  else s

/-- Where stat finds the attributes of a visible path. -/
def attrPlace (pol : Policy) (w : World) (p : FsPath) : Option Place :=
  if StatsHost pol w p then (hostFileAt w.host p).map .file else some .entry

/-- What a stat reports once the new values are at `place`. -/
def Shown.landed (pol : Policy) (w : World) (p : FsPath) (place : Option Place)
    (mode uid gid : Option UInt32) (size : Option UInt64) (s : Shown) : Shown :=
  if place ≠ attrPlace pol w p then s
  else if place = some .entry then s.requested mode uid gid size
  else (s.requested mode uid gid size).stripped mode uid gid size

section Bits

variable {mode uid gid : Option UInt32} {size : Option UInt64}

theorem and_and_of_subset {a b c : UInt32} (h : b &&& c = b) : (a &&& b) &&& c = a &&& b := by
  rw [UInt32.and_assoc, h]

/-- Of the bits kept and the bits put in, a mask shows the latter. -/
theorem merge_and_mask (a v m : UInt32) : ((a &&& ~~~m) ||| (v &&& m)) &&& m = v &&& m := by
  apply UInt32.toBitVec_inj.mp
  show ((a.toBitVec &&& ~~~m.toBitVec) ||| (v.toBitVec &&& m.toBitVec)) &&& m.toBitVec
    = v.toBitVec &&& m.toBitVec
  ext i
  simp only [BitVec.getElem_and, BitVec.getElem_or, BitVec.getElem_not]
  cases a.toBitVec[i] <;> cases v.toBitVec[i] <;> cases m.toBitVec[i] <;> rfl

theorem dropSetIds_and (mode : UInt32) :
    dropSetIds mode &&& 0o7777 = dropSetIds (mode &&& 0o7777) := by
  have hexec : (mode &&& 0o7777) &&& 0o0010 = mode &&& 0o0010 := by
    rw [UInt32.and_assoc]
    rfl
  have hswap : ∀ m : UInt32, (mode &&& m) &&& 0o7777 = (mode &&& 0o7777) &&& m := by
    intro m
    rw [UInt32.and_assoc, UInt32.and_comm m, UInt32.and_assoc]
  unfold dropSetIds
  rw [hexec]
  split_ifs
  · exact hswap _
  · exact hswap _

/-- Group execution stays, so there is nothing left to drop. -/
theorem dropSetIds_idem (mode : UInt32) : dropSetIds (dropSetIds mode) = dropSetIds mode := by
  have hexec : ∀ m : UInt32, m &&& 0o0010 = 0o0010 →
      (mode &&& m) &&& 0o0010 = mode &&& 0o0010 := by
    intro m hm
    rw [UInt32.and_assoc, hm]
  by_cases h : mode &&& 0o0010 = 0
  · have hdrop : dropSetIds mode = mode &&& ~~~0o4000 := if_pos h
    rw [hdrop]
    unfold dropSetIds
    rw [hexec _ rfl, if_pos h]
    exact and_and_of_subset rfl
  · have hdrop : dropSetIds mode = mode &&& ~~~0o6000 := if_neg h
    rw [hdrop]
    unfold dropSetIds
    rw [hexec _ rfl, if_neg h]
    exact and_and_of_subset rfl

theorem mapNobody_small {id : UInt32} (h : id < 65534) : mapNobody id = id := by
  unfold mapNobody
  rw [if_neg]
  exact UInt32.not_le.mpr h

end Bits

section Seen

variable {env : Env} {mode uid gid : Option UInt32} {size : Option UInt64}

theorem content_setInode (inode : Inode) :
    (setInode mode uid gid size inode).content = (resized size inode).content := by
  unfold setInode rechowned rechmodded
  cases mode <;> cases uid <;> cases gid <;> rfl

theorem bytes_setInode (inode : Inode) :
    Content.bytes (setInode mode uid gid size inode).content
      = (Content.bytes inode.content).map (cut size) := by
  rw [content_setInode]
  obtain ⟨content, perm⟩ := inode
  cases size with
  | none => exact Option.map_id_apply.symm
  | some sz => cases content <;> rfl

/-- A truncation drops the set-id bits, a `chmod` may put them back, the `chown` drops them. -/
theorem perm_setInode {inode : Inode} {data : Bytes} (hdata : inode.content = .file data) :
    (setInode mode uid gid size inode).perm
      = let mode' := (mode.map (· &&& 0o7777)).getD inode.perm.mode
        if mode.isSome || uid.isSome || gid.isSome || size.isSome then
          ⟨dropSetIds mode', uid.getD inode.perm.uid, gid.getD inode.perm.gid⟩
        else inode.perm := by
  have hkind : (resized size inode).content.kind = .file := by
    rw [keepsKind_resized size inode, hdata]
    rfl
  have hperm : (resized size inode).perm = if size.isSome then
      { inode.perm with mode := dropSetIds inode.perm.mode } else inode.perm := by
    cases size with
    | none => rfl
    | some sz =>
      show (Inode.resize sz.toNat inode).perm = _
      unfold Inode.resize
      rw [hdata]
      rfl
  have hbits : ∀ m : UInt32, (m &&& 0o7777) &&& 0o7777 = m &&& 0o7777 :=
    fun m => and_and_of_subset rfl
  unfold setInode rechowned rechmodded
  cases mode <;> cases uid <;> cases gid <;> cases size <;>
    simp [Inode.chown, Inode.chmod, FileSystem.chownMode, hkind, hperm, hbits, dropSetIds_idem]

/-- The attributes of a changed host file. -/
theorem shown_setInode (hids : ∀ id, uid = some id ∨ gid = some id → id < 65534) {inode : Inode}
    {data : Bytes} (hdata : inode.content = .file data) :
    (attrFromMeta 0 (setInode mode uid gid size inode)).shown
      = ((attrFromMeta 0 inode).shown.requested mode uid gid size).stripped mode uid gid size := by
  have hkind : (setInode mode uid gid size inode).content.kind = .file := by
    rw [keepsKind_setInode mode uid gid size inode, hdata]
    rfl
  have hsize : Content.size (setInode mode uid gid size inode).content
      = (size.map (·.toNat)).getD data.length := by
    have hcontent : (setInode mode uid gid size inode).content = .file (cut size data) := by
      rw [content_setInode]
      cases size with
      | none => exact hdata
      | some sz =>
        show (Inode.resize sz.toNat inode).content = _
        unfold Inode.resize
        rw [hdata]
        rfl
    rw [hcontent]
    cases size with
    | none => rfl
    | some sz => exact length_setLen data sz.toNat
  have huid : ∀ id, uid = some id → mapNobody id = id := fun id h => mapNobody_small (hids id (Or.inl h))
  have hgid : ∀ id, gid = some id → mapNobody id = id := fun id h => mapNobody_small (hids id (Or.inr h))
  have hbits : ∀ m : UInt32, (m &&& 0o7777) &&& 0o7777 = m &&& 0o7777 :=
    fun m => and_and_of_subset rfl
  unfold FileAttr.shown attrFromMeta Shown.requested Shown.stripped
  rw [perm_setInode hdata]
  simp only [hkind, hsize, hdata]
  cases mode <;> cases uid <;> cases gid <;> cases size <;>
    simp [dropSetIds_and, hbits, huid, hgid, Content.size, Content.kind]

theorem entryShown_setEntry (e : FuseEntry) :
    entryShown (setEntry env mode uid gid size e)
      = (entryShown e).map (Shown.requested mode uid gid size) := by
  have htype : (updateMeta env e.metadata mode uid gid size).mode &&& S_IFMT
      = e.metadata.mode &&& S_IFMT := typeBits_updateMeta env e.metadata mode uid gid size
  have hkind : kindFromEntry (setEntry env mode uid gid size e) = kindFromEntry e := by
    unfold kindFromEntry setEntry
    simp only [htype]
  have hperm : (updateMeta env e.metadata mode uid gid size).mode &&& 0o7777
      = (mode.map (· &&& 0o7777)).getD (e.metadata.mode &&& 0o7777) := by
    cases mode with
    | none => rfl
    | some v => exact merge_and_mask e.metadata.mode v 0o7777
  have hsize : (updateMeta env e.metadata mode uid gid size).size.toNat
      = (size.map (·.toNat)).getD e.metadata.size.toNat := by cases size <;> rfl
  unfold entryShown
  rw [hkind, Option.map_map]
  apply congrArg (fun f => Option.map f (kindFromEntry e))
  funext kind
  show Shown.mk kind (updateMeta env e.metadata mode uid gid size).size.toNat
    ((updateMeta env e.metadata mode uid gid size).mode &&& 0o7777) _ _ = _
  rw [hperm, hsize]
  rfl

variable {pol : Policy} {w w' : World} {p : FsPath} {place : Option Place}

section Landed

variable (h : Landed env mode uid gid size p place w w')

include h

theorem Landed.statsHost : StatsHost pol w' p ↔ StatsHost pol w p := by
  have hnone : w'.entry p = none ↔ w.entry p = none := by
    rw [h.entry, Option.map_eq_none_iff]
  unfold StatsHost
  rw [hnone]

/-- The host's own resolution is as before. -/
theorem Landed.find (follow : Bool) (q : FsPath) : w'.host.find follow q
    = (w.host.find follow q).map fun found => { found with
      inode := (if place = some (.file (.host found.ino)) then setInode mode uid gid size else id)
        found.inode } := by
  apply h.host.find
  intro i
  split
  · exact keepsKind_setInode mode uid gid size
  · exact Inode.keepsKind_id

theorem Landed.readsFrom_eq : readsFrom pol w' p = readsFrom pol w p := by
  have hkept : ∀ e, (if place = some .entry then setEntry env mode uid gid size else id) e = e ∨
      (if place = some .entry then setEntry env mode uid gid size else id) e
        = setEntry env mode uid gid size e := by
    intro e
    split
    · exact Or.inr rfl
    · exact Or.inl rfl
  have hobject : objectAt w' p = objectAt w p := by
    unfold objectAt
    rw [h.entry]
    cases w.entry p with
    | none => rfl
    | some e =>
      show ((_ : FuseEntry).objectId.map _) = e.objectId.map _
      rcases hkept e with he | he
      · rw [he]
      · rw [he]
        rfl
  have hwhite : isWhiteoutEntry (w'.entry p) = isWhiteoutEntry (w.entry p) := by
    rw [h.entry]
    cases w.entry p with
    | none => rfl
    | some e =>
      show isWhiteoutEntry (some _) = _
      rcases hkept e with he | he
      · rw [he]
      · rw [he]
        rfl
  have hhost : hostFileAt w'.host p = hostFileAt w.host p := by
    unfold hostFileAt
    rw [h.find true p]
    cases w.host.find true p <;> rfl
  unfold readsFrom
  rw [hobject, hwhite, hhost]

/-- **The bytes afterwards.** -/
theorem Landed.contentAt_eq : contentAt pol w' p = (contentAt pol w p).map
    (if place = (readsFrom pol w p).map .file then cut size else id) := by
  unfold contentAt
  rw [h.readsFrom_eq]
  cases readsFrom pol w p with
  | none => rfl
  | some b =>
    show b.content w' = (b.content w).map (if place = some (.file b) then cut size else id)
    cases b with
    | object o => exact h.objects o
    | host ino =>
      show (w'.host.inodes.lookup ino).bind _ = ((w.host.inodes.lookup ino).bind _).map _
      rw [h.host.inodes]
      cases w.host.inodes.lookup ino with
      | none => rfl
      | some inode =>
        show Content.bytes (_ : Inode).content = (Content.bytes inode.content).map _
        by_cases hplace : place = some (.file (.host ino))
        · rw [if_pos hplace, if_pos hplace]
          exact bytes_setInode inode
        · rw [if_neg hplace, if_neg hplace]
          exact Option.map_id_apply.symm

/-- **The attributes afterwards.** -/
theorem Landed.shownAt_eq (hids : ∀ id, uid = some id ∨ gid = some id → id < 65534) {s : Shown}
    (hs : shownAt pol w p = some s) (hk : s.kind = .regularFile) :
    shownAt pol w' p = some (s.landed pol w p place mode uid gid size) := by
  by_cases hstat : StatsHost pol w p
  · -- stat looks at the host
    have hs' := hs
    rw [shownAt_host hstat] at hs'
    obtain ⟨found, data, hfind, hfollow, hdata⟩ := hostShown_regular hs' hk
    have hplace : attrPlace pol w p = some (.file (.host found.ino)) := by
      unfold attrPlace hostFileAt
      rw [if_pos hstat, hfollow]
      rfl
    have hbefore : s = (attrFromMeta 0 found.inode).shown := by
      unfold hostShown FileSystem.symlinkMetadata at hs'
      rw [hfind] at hs'
      exact (Option.some.inj hs').symm
    rw [shownAt_host (h.statsHost.mpr hstat)]
    unfold hostShown FileSystem.symlinkMetadata Shown.landed
    rw [h.find false p, hfind, hplace, hbefore]
    show some (attrFromMeta 0 ((if place = some (.file (.host found.ino))
      then setInode mode uid gid size else id) found.inode)).shown = _
    by_cases hhere : place = some (.file (.host found.ino))
    · rw [if_pos hhere, if_neg (not_not.mpr hhere), if_neg (by rw [hhere]; exact nofun),
        shown_setInode hids hdata]
    · rw [if_neg hhere, if_pos hhere]
      rfl
  · -- stat looks at the entry
    have hplace : attrPlace pol w p = some .entry := by
      unfold attrPlace
      rw [if_neg hstat]
    have hs' := hs
    rw [shownAt_entry hstat] at hs'
    obtain ⟨e, he, hse⟩ := Option.bind_eq_some_iff.mp hs'
    rw [shownAt_entry fun hc => hstat (h.statsHost.mp hc), h.entry, he]
    unfold Shown.landed
    rw [hplace]
    show entryShown ((if place = some .entry then setEntry env mode uid gid size else id) e) = _
    by_cases hhere : place = some .entry
    · rw [if_pos hhere, if_neg (not_not.mpr hhere), if_pos hhere, entryShown_setEntry, hse]
      rfl
    · rw [if_neg hhere, if_pos hhere]
      exact hse

end Landed

end Seen

/-! ## §6. When a setattr does what it replies. -/

/-- A stat reports the requested attributes and the other ones as `attr` had them, and a fresh open
reads the old content cut to the requested size. -/
structure SetattrDone (pol : Policy) (w w' : World) (ino : UInt64) (attr : FileAttr)
    (mode uid gid : Option UInt32) (size : Option UInt64) : Prop where
  stat : ∀ env, env.faults = [] → ∃ attr', (serveFuse pol env w' (.getattr ino)).1 = .attr attr' ∧
    attr'.shown = attr.shown.requested mode uid gid size
  bytes : ∀ data, FreshReads pol w ino data → FreshReads pol w' ino (cut size data)

/-- The new values go where stat looks, or they are the old ones; on the host no set-id bit is
there to be dropped; and a new size goes where an open for reading looks, or is the old one. -/
structure SetattrFits (pol : Policy) (env : Env) (w : World) (p : FsPath) (fh : Option UInt64)
    (s : Shown) (mode uid gid : Option UInt32) (size : Option UInt64) : Prop where
  attrs : setattrPlace pol env w p fh ≠ attrPlace pol w p → s.requested mode uid gid size = s
  bits : setattrPlace pol env w p fh = attrPlace pol w p →
    setattrPlace pol env w p fh ≠ some .entry →
    (mode.isSome || uid.isSome || gid.isSome || size.isSome) = true →
    dropSetIds ((mode.map (· &&& 0o7777)).getD s.perm) = (mode.map (· &&& 0o7777)).getD s.perm
  bytes : ∀ sz ∈ size, setattrPlace pol env w p fh ≠ (readsFrom pol w p).map .file →
    ∀ data, contentAt pol w p = some data → data.length = sz.toNat

section Done

variable {pol : Policy} {env : Env} {w : World} {p : FsPath} {ino : UInt64}
  {mode uid gid : Option UInt32} {size fh : Option UInt64}

/-- **getattr** reports what there is. -/
theorem getattr_shown (hq : env.faults = []) (hino : w.inodes.getPath ino = some p) (s : Shown) :
    (∃ attr, (serveFuse pol env w (.getattr ino)).1 = .attr attr ∧ attr.shown = s) ↔
      shownAt pol w p = some s := by
  have hpath : pathOf ino { w with faults := env.faults } = .ok p { w with faults := env.faults } :=
    pathOf_ok hino
  have hreports : Reports (shownAt pol w p)
      (outcome (statPath pol env p { w with faults := env.faults })) :=
    statPath_reports (w := { w with faults := env.faults }) hq
  have hreply : (serveFuse pol env w (.getattr ino)).1
      = replyOf ((outcome (statPath pol env p { w with faults := env.faults })).map
          fun r => .attr r.2) := by
    rw [serveFuse_reply]
    show replyOf (outcome ((pathOf ino >>= fun path => attrReply pol env path)
      { w with faults := env.faults })) = _
    rw [run_bind_ok hpath]
    unfold attrReply
    cases hstat : statPath pol env p { w with faults := env.faults } with
    | ok r w' =>
      rw [run_bind_ok hstat]
      rfl
    | error err w' =>
      rw [run_bind_error hstat]
      rfl
  rw [hreply]
  cases hshown : shownAt pol w p with
  | none =>
    rw [hshown] at hreports
    rw [show outcome (statPath pol env p { w with faults := env.faults }) = _ from hreports]
    apply iff_of_false
    · rintro ⟨attr, hc, -⟩
      cases hc
    · intro hc
      cases hc
  | some s' =>
    rw [hshown] at hreports
    obtain ⟨attr, hres, hattr⟩ := hreports
    rw [hres]
    simp only [Except.map, replyOf, Reply.attr.injEq, exists_eq_left', hattr, Option.some.injEq]

theorem stripped_eq_self_iff {s : Shown} : s.stripped mode uid gid size = s ↔
    ((mode.isSome || uid.isSome || gid.isSome || size.isSome) = true →
      dropSetIds s.perm = s.perm) := by
  unfold Shown.stripped
  split_ifs with hask
  · constructor
    · exact fun h _ => congrArg Shown.perm h
    · intro h
      rw [h hask]
  · exact iff_of_true rfl fun h => absurd h hask

/-- **A setattr does what it replies** exactly when the places fit. -/
theorem setattr_done_iff (hw : Reachable pol w) (hino : w.inodes.getPath ino = some p)
    {attr : FileAttr} (hstat : (serveFuse pol Env.quiet w (.getattr ino)).1 = .attr attr)
    (hkind : attr.kind = .regularFile)
    (hids : ∀ id, uid = some id ∨ gid = some id → id < 65534) {reply : FileAttr}
    (hreply : (serveFuse pol env w (.setattr ino mode uid gid size fh)).1 = .attr reply) :
    SetattrDone pol w (serveFuse pol env w (.setattr ino mode uid gid size fh)).2 ino attr
        mode uid gid size ↔
      SetattrFits pol env w p fh attr.shown mode uid gid size := by
  have hs : shownAt pol w p = some attr.shown := (getattr_shown rfl hino _).mp ⟨attr, hstat, rfl⟩
  have hlanded := landed_setattr hw hino hs hkind hreply
  have hgood' : GoodStore (serveFuse pol env w (.setattr ino mode uid gid size fh)).2.daemon :=
    (hw.serve env _).goodStore
  revert hlanded hgood'
  generalize (serveFuse pol env w (.setattr ino mode uid gid size fh)).2 = w'
  intro hlanded hgood'
  have hino' : w'.inodes.getPath ino = some p := by
    rw [hlanded.inodes]
    exact hino
  have hs' := hlanded.shownAt_eq hids hs hkind
  have hkind' : (attr.shown.landed pol w p (setattrPlace pol env w p fh) mode uid gid size).kind
      = .regularFile := by
    unfold Shown.landed Shown.stripped
    split_ifs <;> exact hkind
  have hcontent : contentAt pol w' p = _ := hlanded.contentAt_eq
  -- both halves on the state
  have hfirst : (∀ env, env.faults = [] → ∃ attr',
      (serveFuse pol env w' (.getattr ino)).1 = .attr attr' ∧
        attr'.shown = attr.shown.requested mode uid gid size) ↔
      attr.shown.landed pol w p (setattrPlace pol env w p fh) mode uid gid size
        = attr.shown.requested mode uid gid size := by
    constructor
    · intro h
      have hshown := (getattr_shown rfl hino' _).mp (h Env.quiet rfl)
      exact Option.some.inj (hs'.symm.trans hshown)
    · intro h env hq
      rw [getattr_shown hq hino', hs', h]
  have hsecond : (∀ data, FreshReads pol w ino data → FreshReads pol w' ino (cut size data)) ↔
      ∀ data, contentAt pol w p = some data → contentAt pol w' p = some (cut size data) := by
    apply forall_congr'
    intro data
    rw [freshReads_iff hw.goodStore hino hs hkind, freshReads_iff hgood' hino' hs' hkind']
  have hplace : attr.shown.landed pol w p (setattrPlace pol env w p fh) mode uid gid size
        = attr.shown.requested mode uid gid size ↔
      (setattrPlace pol env w p fh ≠ attrPlace pol w p →
        attr.shown.requested mode uid gid size = attr.shown) ∧
      (setattrPlace pol env w p fh = attrPlace pol w p → setattrPlace pol env w p fh ≠ some .entry →
        (attr.shown.requested mode uid gid size).stripped mode uid gid size
          = attr.shown.requested mode uid gid size) := by
    unfold Shown.landed
    by_cases hsame : setattrPlace pol env w p fh = attrPlace pol w p
    · rw [if_neg (not_not.mpr hsame)]
      by_cases hentry : setattrPlace pol env w p fh = some .entry
      · rw [if_pos hentry]
        exact iff_of_true rfl ⟨fun hc => absurd hsame hc, fun _ hc => absurd hentry hc⟩
      · rw [if_neg hentry]
        exact ⟨fun h => ⟨fun hc => absurd hsame hc, fun _ _ => h⟩, fun h => h.2 hsame hentry⟩
    · rw [if_pos hsame]
      exact ⟨fun h => ⟨fun _ => h.symm, fun hc => absurd hc hsame⟩, fun h => (h.1 hsame).symm⟩
  have hsize : (∀ data, contentAt pol w p = some data → contentAt pol w' p = some (cut size data)) ↔
      ∀ sz ∈ size, setattrPlace pol env w p fh ≠ (readsFrom pol w p).map .file →
        ∀ data, contentAt pol w p = some data → data.length = sz.toNat := by
    rw [hcontent]
    by_cases hsame : setattrPlace pol env w p fh = (readsFrom pol w p).map .file
    · rw [if_pos hsame]
      refine iff_of_true ?_ fun _ _ hc => absurd hsame hc
      intro data hdata
      rw [hdata]
      rfl
    · rw [if_neg hsame, Option.map_id]
      cases size with
      | none => exact iff_of_true (fun _ h => h) nofun
      | some sz =>
        have hcut : ∀ data, contentAt pol w p = some data →
            (contentAt pol w p = some (cut (some sz) data) ↔ data.length = sz.toNat) := by
          intro data hdata
          rw [hdata, Option.some.injEq, eq_comm]
          exact setLen_eq_self_iff data sz.toNat
        constructor
        · intro h sz' hsz' _ data hdata
          obtain rfl : sz = sz' := Option.some.inj hsz'
          exact (hcut data hdata).mp (h data hdata)
        · exact fun h data hdata => (hcut data hdata).mpr (h sz rfl hsame data hdata)
  have hstrip : (attr.shown.requested mode uid gid size).stripped mode uid gid size
        = attr.shown.requested mode uid gid size ↔ _ := stripped_eq_self_iff
  constructor
  · rintro ⟨h₁, h₂⟩
    obtain ⟨hattrs, hbits⟩ := hplace.mp (hfirst.mp h₁)
    exact ⟨hattrs, fun hsame hne => hstrip.mp (hbits hsame hne), hsize.mp (hsecond.mp h₂)⟩
  · rintro ⟨hattrs, hbits, hbytes⟩
    exact ⟨hfirst.mpr (hplace.mpr ⟨hattrs, fun hsame hne => hstrip.mpr (hbits hsame hne)⟩),
      hsecond.mpr (hsize.mpr hbytes)⟩

end Done

/-- Without a handle the entry of `/a` gets the new mode and owner. -/
theorem setattr_done_chmod : SetattrDone allCopyOnWrite createdA
    (serveFuse allCopyOnWrite Env.quiet createdA (.setattr 2 (some 0o600) (some 7) none none none)).2
    2 ⟨2, 0, .regularFile, 0o644, 0, 0⟩ (some 0o600) (some 7) none none := by
  have hreach : Reachable allCopyOnWrite createdA := .serve (.mount emptyRoot "s") _ _
  have hreply : (serveFuse allCopyOnWrite Env.quiet createdA
      (.setattr 2 (some 0o600) (some 7) none none none)).1
        = .attr ⟨2, 0, .regularFile, 0o600, 7, 0⟩ := by decide
  have hplace : setattrPlace allCopyOnWrite Env.quiet createdA [Name.a] none
      = attrPlace allCopyOnWrite createdA [Name.a] := by decide
  have hentry : setattrPlace allCopyOnWrite Env.quiet createdA [Name.a] none = some .entry := by
    decide
  have hids : ∀ id : UInt32, some 7 = some id ∨ none = some id → id < 65534 := by
    rintro id (h | h)
    · obtain rfl : 7 = id := Option.some.inj h
      decide
    · cases h
  apply (setattr_done_iff hreach (p := [Name.a]) (by decide) (by decide) rfl hids hreply).mpr
  exact ⟨fun hne => absurd hplace hne, fun _ hne => absurd hentry hne, nofun⟩

/-- `ftruncate` on the handle of `/a` reaches the object and not the entry. -/
theorem not_setattr_done :
    ¬ ∀ (pol : Policy) (w : World), Reachable pol w → ∀ (env : Env) (p : FsPath) (ino : UInt64),
      w.inodes.getPath ino = some p → ∀ attr : FileAttr,
      (serveFuse pol Env.quiet w (.getattr ino)).1 = .attr attr → attr.kind = .regularFile →
      ∀ (mode uid gid : Option UInt32) (size fh : Option UInt64),
      (∀ id, uid = some id ∨ gid = some id → id < 65534) → ∀ reply : FileAttr,
      (serveFuse pol env w (.setattr ino mode uid gid size fh)).1 = .attr reply →
        SetattrDone pol w (serveFuse pol env w (.setattr ino mode uid gid size fh)).2 ino attr
          mode uid gid size := by
  intro h
  have hreach : Reachable allCopyOnWrite createdA := .serve (.mount emptyRoot "s") _ _
  have hbefore : (serveFuse allCopyOnWrite Env.quiet createdA (.getattr 2)).1
      = .attr ⟨2, 0, .regularFile, 0o644, 0, 0⟩ := by decide
  have hreply : (serveFuse allCopyOnWrite Env.quiet createdA
      (.setattr 2 none none none (some 5) (some 1))).1
        = .attr ⟨2, 0, .regularFile, 0o644, 0, 0⟩ := by decide
  have hafter : (serveFuse allCopyOnWrite Env.quiet (serveFuse allCopyOnWrite Env.quiet createdA
      (.setattr 2 none none none (some 5) (some 1))).2 (.getattr 2)).1
        = .attr ⟨2, 0, .regularFile, 0o644, 0, 0⟩ := by decide
  have hdone := h allCopyOnWrite createdA hreach Env.quiet [Name.a] 2 (by decide) _ hbefore rfl
    none none none (some 5) (some 1) (by simp) _ hreply
  obtain ⟨attr, hattr, hshown⟩ := hdone.stat Env.quiet rfl
  rw [hafter] at hattr
  cases hattr
  cases hshown

end Cas.Fuse
