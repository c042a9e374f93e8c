/-
  Cas.Host.Attributes — the calls that change one inode and no name.

  Cutting or extending a file, `chmod` and `chown` replace the inode
  behind one number.  Every path still finds the inode it found, changed
  or not (`Changed.find`).
-/
import Cas.Host.Calls

namespace Cas.Host

open Cas.Lib

/-! ## §1. Changes of one inode. -/

namespace Inode

/-- `ftruncate`. -/
def resize (size : Nat) (inode : Inode) : Inode :=
  match inode.content with
  | .file data => inode.rewrite (setLen data size)
  | _ => inode

def chmod (mode : UInt32) (inode : Inode) : Inode :=
  { inode with perm := { inode.perm with mode := mode &&& 0o7777 } }

def chown (uid gid : Option UInt32) (inode : Inode) : Inode :=
  { inode with perm := ⟨FileSystem.chownMode inode.content.kind inode.perm.mode,
      uid.getD inode.perm.uid, gid.getD inode.perm.gid⟩ }

/-- The change leaves the kind of every inode as it is. -/
def KeepsKind (f : Inode → Inode) : Prop := ∀ inode, (f inode).content.kind = inode.content.kind

theorem keepsKind_id : KeepsKind id := fun _ => rfl

theorem KeepsKind.comp {f g : Inode → Inode} (hg : KeepsKind g) (hf : KeepsKind f) :
    KeepsKind (g ∘ f) := fun inode => (hg (f inode)).trans (hf inode)

theorem keepsKind_resize (size : Nat) : KeepsKind (resize size) := by
  intro inode
  unfold resize
  cases hc : inode.content with
  | file data => rfl
  | dir => exact congrArg Content.kind hc
  | symlink target => exact congrArg Content.kind hc

theorem keepsKind_chmod (mode : UInt32) : KeepsKind (chmod mode) := fun _ => rfl

theorem keepsKind_chown (uid gid : Option UInt32) : KeepsKind (chown uid gid) := fun _ => rfl

end Inode

/-! ## §2. File systems with changed inodes. -/

namespace FileSystem

/-- The names of `fs`, and its inodes changed by `f`. -/
structure Changed (f : Ino → Inode → Inode) (fs fs' : FileSystem) : Prop where
  names : fs'.names = fs.names
  inodes : ∀ i, fs'.inodes.lookup i = (fs.inodes.lookup i).map (f i)

/-- A change of the inode behind `ino`. -/
def onlyAt (ino : Ino) (f : Inode → Inode) (i : Ino) : Inode → Inode := if i = ino then f else id

variable {fs fs' fs'' : FileSystem} {f g : Ino → Inode → Inode}

theorem Changed.refl : Changed (fun _ => id) fs fs where
  names := rfl
  inodes _ := (Option.map_id_apply).symm

theorem Changed.trans (h : Changed f fs fs') (h' : Changed g fs' fs'') :
    Changed (fun i => g i ∘ f i) fs fs'' where
  names := h'.names.trans h.names
  inodes i := by rw [h'.inodes, h.inodes, Option.map_map]

theorem Changed.sameShape (h : Changed f fs fs') (hf : ∀ i, Inode.KeepsKind (f i)) :
    SameShape fs fs' := by
  refine ⟨h.names, fun i => ?_⟩
  rw [h.inodes]
  cases fs.inodes.lookup i with
  | none => rfl
  | some inode => exact congrArg some (hf i inode)

/-- **A path finds what it found**, changed. -/
theorem Changed.find (h : Changed f fs fs') (hf : ∀ i, Inode.KeepsKind (f i)) (follow : Bool)
    (path : FsPath) : fs'.find follow path
      = (fs.find follow path).map fun found => { found with
        inode := f found.ino found.inode } := by
  unfold FileSystem.find
  rw [(h.sameShape hf).locate, h.names]
  cases fs.locate follow path with
  | error errno => rfl
  | ok q =>
    simp only
    cases fs.names.lookup q with
    | none => rfl
    | some ino =>
      simp only [h.inodes]
      cases fs.inodes.lookup ino <;> rfl

/-! ## §3. The calls. -/

/-- The file system after a call, carried out or failed. -/
def after (fs : FileSystem) : Except Errno FileSystem → FileSystem
  | .ok fs' => fs'
  | .error _ => fs

theorem changed_putInode {ino : Ino} {inode : Inode} {f : Inode → Inode}
    (h : fs.inodes.lookup ino = some inode) :
    Changed (onlyAt ino f) fs (fs.putInode ino (f inode)) := by
  refine ⟨rfl, fun i => ?_⟩
  show (fs.inodes.insert ino (f inode)).lookup i = _
  rw [lookup_insert_ite]
  unfold onlyAt
  by_cases hi : i = ino
  · rw [if_pos hi, if_pos hi, hi, h]
    rfl
  · rw [if_neg hi, if_neg hi, Option.map_id_apply]

theorem changed_setLenIno {ino : Ino} {size : Nat} (h : fs.setLenIno ino size = .ok fs') :
    Changed (onlyAt ino (Inode.resize size)) fs fs' := by
  unfold setLenIno modifyIno at h
  split at h
  · cases h
  · next inode hinode =>
    split at h
    · next data hdata =>
      cases h
      have hresize : inode.resize size = inode.rewrite (setLen data size) := by
        unfold Inode.resize
        rw [hdata]
      rw [← hresize]
      exact changed_putInode hinode
    · cases h

/-- A number without an inode has nothing to change. -/
theorem changed_modifyPerm (ino : Ino) (f : Kind → Perm → Perm) :
    Changed (onlyAt ino fun inode => { inode with perm := f inode.content.kind inode.perm }) fs
      (fs.after (fs.modifyPerm ino f)) := by
  unfold modifyPerm
  cases hinode : fs.inodes.lookup ino with
  | some inode =>
    exact changed_putInode (f := fun inode => { inode with
      perm := f inode.content.kind inode.perm }) hinode
  | none =>
    refine ⟨rfl, fun i => ?_⟩
    show fs.inodes.lookup i = _
    unfold onlyAt
    by_cases hi : i = ino
    · rw [hi, hinode]
      rfl
    · rw [if_neg hi, Option.map_id_apply]

theorem changed_chmodIno (ino : Ino) (mode : UInt32) :
    Changed (onlyAt ino (Inode.chmod mode)) fs (fs.after (fs.chmodIno ino mode)) :=
  changed_modifyPerm ino fun _ perm => { perm with mode := mode &&& 0o7777 }

theorem changed_chownIno (ino : Ino) (uid gid : Option UInt32) :
    Changed (onlyAt ino (Inode.chown uid gid)) fs (fs.after (fs.chownIno ino uid gid)) :=
  changed_modifyPerm ino fun kind perm =>
    ⟨chownMode kind perm.mode, uid.getD perm.uid, gid.getD perm.gid⟩

/-! ## §4. Regular files. -/

/-- A path whose node is no link leads to that node, links followed or not. -/
theorem find_followed {path : FsPath} {found : Found} (h : fs.find false path = .ok found)
    (hlink : ∀ target, found.inode.content.kind ≠ .symlink target) :
    fs.find true path = .ok found := by
  obtain ⟨hat, hname, hinode⟩ := find_ok h
  have hkind : fs.kindAt found.path = some found.inode.content.kind := by
    unfold FileSystem.kindAt node
    rw [hname]
    exact congrArg (Option.map _) hinode
  have hfollow : fs.locate true path = .ok found.path := by
    apply locate_followed _ hat
    intro target ht
    rw [hkind] at ht
    exact hlink target (Option.some.inj ht)
  unfold FileSystem.find
  rw [hfollow]
  simp only [hname, hinode]

/-- What an open for writing finds. -/
theorem openFile_found {cred : Cred} {opts : OpenOptions} (hopts : opts.create = false)
    {path : FsPath} {found : Found} (h : fs.find true path = .ok found)
    (hdir : found.inode.content.kind ≠ .dir) :
    fs.openFile cred opts path = .ok (found.ino, fs) := by
  obtain ⟨hat, hname, hinode⟩ := find_ok h
  have hkind : fs.kindAt found.path ≠ some .dir := by
    unfold FileSystem.kindAt node
    rw [hname]
    show (fs.inodes.lookup found.ino).map _ ≠ _
    rw [hinode]
    exact fun e => hdir (Option.some.inj e)
  have hloc : fs.locate true path = .ok found.path := hat
  unfold openFile
  rw [if_neg (by simp [hopts]), hloc]
  simp only [hname]
  rw [if_neg fun hc => hkind hc.1]

end FileSystem

end Cas.Host
