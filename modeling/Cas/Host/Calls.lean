/-
  Cas.Host.Calls — the `std::fs` calls and descriptor operations that the
  daemons make on the host.

  A call either fails and changes nothing or succeeds; each mutating call
  comes with the set of paths whose node it may change.
-/
import Cas.Host.Resolve

namespace Cas.Host

open Cas.Lib

/-- The process that makes the calls. -/
structure Cred where
  uid : UInt32
  gid : UInt32
  umask : UInt32
  deriving DecidableEq

/-- `std::fs::OpenOptions`, without the flags that no caller sets. -/
structure OpenOptions where
  read : Bool
  write : Bool
  append : Bool
  create : Bool
  mode : UInt32
  deriving DecidableEq

/-- The mode of a regular file after a write, a truncation or a `chown` by a process without
`CAP_FSETID`: the set-user-id bit goes, and with group execution the set-group-id bit. -/
def dropSetIds (mode : UInt32) : UInt32 :=
  if mode &&& 0o0010 = 0 then mode &&& ~~~0o4000 else mode &&& ~~~0o6000

/-- A regular file with other bytes in it. -/
def Inode.rewrite (inode : Inode) (data : Bytes) : Inode where
  content := .file data
  perm := { inode.perm with mode := dropSetIds inode.perm.mode }

namespace FileSystem

/-! ## §1. Updates of the two maps. -/

def addNode (fs : FileSystem) (path : FsPath) (inode : Inode) : FileSystem where
  names := fs.names.insert path (.created fs.nextIno)
  inodes := fs.inodes.insert (.created fs.nextIno) inode
  nextIno := fs.nextIno + 1
  reader := fs.reader
  fresh := by
    intro p n h
    rw [lookup_insert_ite] at h
    split at h
    · cases h
      omega
    · exact Nat.lt_succ_of_lt (fs.fresh p n h)

def dropName (fs : FileSystem) (path : FsPath) : FileSystem :=
  { fs with
    names := fs.names.erase path
    fresh := by
      intro p n h
      rw [lookup_erase_ite] at h
      split at h
      · cases h
      · exact fs.fresh p n h }

/-- Replace the inode behind a number. -/
def putInode (fs : FileSystem) (ino : Ino) (inode : Inode) : FileSystem :=
  { fs with inodes := fs.inodes.insert ino inode }

/-- Where the name at `path` was before the subtree at `src` moved to `dst`. -/
def movedFrom (src dst path : FsPath) : Option FsPath :=
  if dst <+: path then some (rebase dst src path)
  else if src <+: path then none
  else some path

def moveNames (fs : FileSystem) (src dst : FsPath) : FileSystem :=
  { fs with
    names := collect (fs.names.keys ∪ fs.names.keys.image (rebase src dst)) fun path =>
      (movedFrom src dst path).bind fun old => fs.names.lookup old
    fresh := by
      intro p n h
      rw [lookup_collect] at h
      split at h
      · obtain ⟨old, -, hold⟩ := Option.bind_eq_some_iff.mp h
        exact fs.fresh old n hold
      · cases h }

/-! ## §2. Calls that read. -/

/-- An existing node: its resolved path, its inode number, its inode. -/
structure Found where
  path : FsPath
  ino : Ino
  inode : Inode
  deriving DecidableEq

def locate (fs : FileSystem) (follow : Bool) (path : FsPath) : Except Errno FsPath :=
  Host.locate fs.kindAt follow path

def find (fs : FileSystem) (follow : Bool) (path : FsPath) : Except Errno Found :=
  match fs.locate follow path with
  | .error e => .error e
  | .ok q =>
    match fs.names.lookup q with
    | none => .error .enoent
    | some ino =>
      match fs.inodes.lookup ino with
      | none => .error .enoent
      | some inode => .ok ⟨q, ino, inode⟩

def symlinkMetadata (fs : FileSystem) (path : FsPath) : Except Errno Inode :=
  (fs.find false path).map (·.inode)

/-- `Path::exists`: links are followed, every error is `false`. -/
def «exists» (fs : FileSystem) (path : FsPath) : Bool := (fs.find true path).isOk

/-- The names directly below a resolved directory, with the kinds of their nodes. -/
def entriesAt (fs : FileSystem) (dir : FsPath) : List (Name × Kind) :=
  (sortedKeys fs.names.keys).filterMap fun path =>
    if path.parent = some dir then
      path.fileName.bind fun n => (fs.kindAt path).map fun kind => (n, kind)
    else none

def readDir (fs : FileSystem) (path : FsPath) : Except Errno (List (Name × Kind)) :=
  match fs.find true path with
  | .error e => .error e
  | .ok found =>
    match found.inode.content with
    | .dir =>
      if fs.reader.reads found.inode.perm then .ok (fs.entriesAt found.path) else .error .eacces
    | _ => .error .enotdir

def readLink (fs : FileSystem) (path : FsPath) : Except Errno Bytes :=
  match fs.find false path with
  | .error e => .error e
  | .ok found =>
    match found.inode.content with
    | .symlink target => .ok target
    | _ => .error .einval

/-- What `fs::copy` reads: it opens the source and accepts a regular file only. -/
def readFile (fs : FileSystem) (path : FsPath) : Except Errno Bytes :=
  match fs.find true path with
  | .error e => .error e
  | .ok found =>
    match found.inode.content with
    | .file data => .ok data
    | _ => .error .einval

/-- `read` on a descriptor. -/
def readIno (fs : FileSystem) (ino : Ino) (offset len : Nat) : Except Errno Bytes :=
  match fs.inodes.lookup ino with
  | none => .error .eio
  | some inode =>
    match inode.content with
    | .file data => .ok (readAt data offset len)
    | .dir => .error .eisdir
    | .symlink _ => .error .ebadf

/-! ## §3. Calls on a descriptor. -/

/-- Change the content of the regular file behind a descriptor.  No request writes zero bytes,
which would leave the mode alone. -/
def modifyIno (fs : FileSystem) (ino : Ino) (f : Bytes → Bytes) : Except Errno FileSystem :=
  match fs.inodes.lookup ino with
  | none => .error .eio
  | some inode =>
    match inode.content with
    | .file data => .ok (fs.putInode ino (inode.rewrite (f data)))
    | _ => .error .einval

/-- `write`: with `O_APPEND` at the end of the file, wherever the offset is. -/
def writeIno (fs : FileSystem) (ino : Ino) (append : Bool) (offset : Nat) (data : Bytes) :
    Except Errno FileSystem :=
  fs.modifyIno ino fun old => writeAt old (if append then old.length else offset) data

def setLenIno (fs : FileSystem) (ino : Ino) (size : Nat) : Except Errno FileSystem :=
  fs.modifyIno ino fun old => setLen old size

/-- Change the permission bits or the owner. -/
def modifyPerm (fs : FileSystem) (ino : Ino) (f : Kind → Perm → Perm) :
    Except Errno FileSystem :=
  match fs.inodes.lookup ino with
  | none => .error .eio
  | some inode => .ok (fs.putInode ino { inode with perm := f inode.content.kind inode.perm })

def chmodIno (fs : FileSystem) (ino : Ino) (mode : UInt32) : Except Errno FileSystem :=
  fs.modifyPerm ino fun _ perm => { perm with mode := mode &&& 0o7777 }

/-- The mode after a `chown`, also one that names no owner; a directory keeps its bits. -/
def chownMode (kind : Kind) (mode : UInt32) : UInt32 :=
  if kind = .dir then mode else dropSetIds mode

def chownIno (fs : FileSystem) (ino : Ino) (uid gid : Option UInt32) : Except Errno FileSystem :=
  fs.modifyPerm ino fun kind perm =>
    ⟨chownMode kind perm.mode, uid.getD perm.uid, gid.getD perm.gid⟩

/-! ## §4. Calls on a path. -/

/-- `OpenOptions::open`: the inode behind the new descriptor.

That `create` without `write` is `EINVAL` is the standard library's doing; its later releases give
an error without a number there. -/
def openFile (fs : FileSystem) (cred : Cred) (opts : OpenOptions) (path : FsPath) :
    Except Errno (Ino × FileSystem) :=
  if opts.create ∧ opts.write = false ∧ opts.append = false then .error .einval
  else
    match fs.locate true path with
    | .error e => .error e
    | .ok q =>
      match fs.names.lookup q with
      | some ino =>
        if fs.kindAt q = some .dir ∧ (opts.write ∨ opts.append ∨ opts.create) then .error .eisdir
        else .ok (ino, fs)
      | none =>
        if opts.create then
          .ok (.created fs.nextIno,
            fs.addNode q ⟨.file [], ⟨opts.mode &&& 0o7777 &&& ~~~cred.umask, cred.uid, cred.gid⟩⟩)
        else .error .enoent

/-- `fs::set_permissions` and `chown`: the last component's link is followed. -/
def setPermissions (fs : FileSystem) (path : FsPath) (mode : UInt32) : Except Errno FileSystem :=
  match fs.find true path with
  | .error e => .error e
  | .ok found => fs.chmodIno found.ino mode

def chown (fs : FileSystem) (path : FsPath) (uid gid : Option UInt32) :
    Except Errno FileSystem :=
  match fs.find true path with
  | .error e => .error e
  | .ok found => fs.chownIno found.ino uid gid

def removeFile (fs : FileSystem) (path : FsPath) : Except Errno FileSystem :=
  match fs.find false path with
  | .error e => .error e
  | .ok found =>
    if found.inode.content.kind = .dir then .error .eisdir else .ok (fs.dropName found.path)

/-- Does a resolved directory have a name in it? -/
def hasEntry (fs : FileSystem) (dir : FsPath) : Bool :=
  decide (∃ path ∈ fs.names.keys, Below dir path)

def removeDir (fs : FileSystem) (path : FsPath) : Except Errno FileSystem :=
  match fs.find false path with
  | .error e => .error e
  | .ok found =>
    if found.path = [] then .error .ebusy
    else if found.inode.content.kind ≠ .dir then .error .enotdir
    else if fs.hasEntry found.path then .error .enotempty
    else .ok (fs.dropName found.path)

/-- Put a new node where nothing is. -/
def makeNode (fs : FileSystem) (path : FsPath) (inode : Inode) : Except Errno FileSystem :=
  match fs.locate false path with
  | .error e => .error e
  | .ok q =>
    match fs.names.lookup q with
    | some _ => .error .eexist
    | none => .ok (fs.addNode q inode)

/-- `fs::create_dir`: mode `0o777` before the umask. -/
def createDir (fs : FileSystem) (cred : Cred) (path : FsPath) : Except Errno FileSystem :=
  fs.makeNode path ⟨.dir, ⟨0o777 &&& ~~~cred.umask, cred.uid, cred.gid⟩⟩

def symlink (fs : FileSystem) (cred : Cred) (target : Bytes) (path : FsPath) :
    Except Errno FileSystem :=
  if target = [] then .error .enoent
  else fs.makeNode path ⟨.symlink target, ⟨0o777, cred.uid, cred.gid⟩⟩

/-- May the node `old` replace what is at the resolved path `q`? -/
def replaceable (fs : FileSystem) (old : Inode) (q : FsPath) : Except Errno Unit :=
  match fs.kindAt q with
  | none => .ok ()
  | some .dir =>
    if old.content.kind ≠ .dir then .error .eisdir
    else if fs.hasEntry q then .error .enotempty
    else .ok ()
  | some _ => if old.content.kind = .dir then .error .enotdir else .ok ()

/-- `rename(2)`; no link is followed at either end. -/
def rename (fs : FileSystem) (src dst : FsPath) : Except Errno FileSystem :=
  match fs.find false src with
  | .error e => .error e
  | .ok found =>
    match fs.locate false dst with
    | .error e => .error e
    | .ok q =>
      if found.path = [] ∨ q = [] then .error .ebusy
      else if Below found.path q then .error .einval
      else if Below q found.path then .error .enotempty
      else if fs.names.lookup q = some found.ino then .ok fs
      else
        match fs.replaceable found.inode q with
        | .error e => .error e
        | .ok () => .ok (fs.moveNames found.path q)

/-! ## §5. What a call leaves alone. -/

/-- Outside `S` every path has the node it had. -/
def Untouched (S : FsPath → Prop) (fs fs' : FileSystem) : Prop :=
  ∀ p, ¬ S p → fs'.node p = fs.node p

/-- The names of one inode. -/
def NamedBy (fs : FileSystem) (ino : Ino) (p : FsPath) : Prop := fs.names.lookup p = some ino

/-- The names that a move takes away and those that it puts or replaces. -/
def MoveTouches (fs : FileSystem) (src dst p : FsPath) : Prop :=
  (src <+: p ∧ p ∈ fs.names) ∨ (dst <+: p ∧ (p ∈ fs.names ∨ rebase dst src p ∈ fs.names))

variable {fs fs' : FileSystem}

theorem Untouched.refl {S : FsPath → Prop} : Untouched S fs fs := fun _ _ => rfl

theorem Untouched.trans {S : FsPath → Prop} {fs₁ fs₂ : FileSystem} (h : Untouched S fs fs₁)
    (h' : Untouched S fs₁ fs₂) : Untouched S fs fs₂ := fun p hp => (h' p hp).trans (h p hp)

theorem Untouched.mono {S S' : FsPath → Prop} (h : Untouched S fs fs') (hS : ∀ p, S p → S' p) :
    Untouched S' fs fs' := fun p hp => h p fun hs => hp (hS p hs)

theorem node_addNode (path : FsPath) (inode : Inode) (p : FsPath) :
    (fs.addNode path inode).node p = if p = path then some inode else fs.node p := by
  show ((fs.names.insert path _).lookup p).bind _ = _
  rw [lookup_insert_ite]
  by_cases h : p = path
  · rw [if_pos h, if_pos h]
    exact Finmap.lookup_insert _
  · rw [if_neg h, if_neg h]
    show (fs.names.lookup p).bind _ = (fs.names.lookup p).bind _
    cases hn : fs.names.lookup p with
    | none => rfl
    | some ino =>
      show (fs.inodes.insert _ inode).lookup ino = fs.inodes.lookup ino
      apply Finmap.lookup_insert_of_ne
      intro e
      subst e
      exact absurd (fs.fresh p _ hn) (by omega)

theorem node_dropName (path p : FsPath) :
    (fs.dropName path).node p = if p = path then none else fs.node p := by
  show ((fs.names.erase path).lookup p).bind _ = _
  rw [lookup_erase_ite]
  split <;> rfl

theorem node_putInode (ino : Ino) (inode : Inode) (p : FsPath) :
    (fs.putInode ino inode).node p
      = if fs.names.lookup p = some ino then some inode else fs.node p := by
  show (fs.names.lookup p).bind (fs.inodes.insert ino inode).lookup = _
  cases hn : fs.names.lookup p with
  | none =>
    rw [if_neg (by simp)]
    unfold node
    rw [hn]
    rfl
  | some ino' =>
    show (fs.inodes.insert ino inode).lookup ino' = _
    rw [lookup_insert_ite]
    by_cases h : ino' = ino
    · rw [if_pos h, if_pos (congrArg some h)]
    · rw [if_neg h, if_neg fun e => h (Option.some.inj e)]
      unfold node
      rw [hn]
      rfl

theorem untouched_addNode (path : FsPath) (inode : Inode) :
    Untouched (· = path) fs (fs.addNode path inode) := by
  intro p hp
  rw [node_addNode, if_neg hp]

theorem untouched_dropName (path : FsPath) : Untouched (· = path) fs (fs.dropName path) := by
  intro p hp
  rw [node_dropName, if_neg hp]

theorem untouched_putInode (ino : Ino) (inode : Inode) :
    Untouched (fs.NamedBy ino) fs (fs.putInode ino inode) := by
  intro p hp
  rw [node_putInode]
  exact if_neg hp

theorem names_moveNames (src dst p : FsPath) :
    (fs.moveNames src dst).names.lookup p
      = (movedFrom src dst p).bind fun old => fs.names.lookup old := by
  show (collect _ _).lookup p = _
  rw [lookup_collect]
  split
  · rfl
  · next hp =>
    -- a path outside both key sets had no name to move or keep
    rw [Finset.mem_union, not_or] at hp
    obtain ⟨hkeep, hmove⟩ := hp
    symm
    rw [Option.bind_eq_none_iff]
    intro old hold
    apply Finmap.lookup_eq_none.mpr
    intro hmem
    unfold movedFrom at hold
    split_ifs at hold with hdst hsrc
    · apply hmove
      refine Finset.mem_image.mpr ⟨old, Finmap.mem_keys.mpr hmem, ?_⟩
      cases hold
      exact rebase_rebase hdst
    · cases hold
      exact hkeep (Finmap.mem_keys.mpr hmem)

theorem untouched_moveNames (src dst : FsPath) :
    Untouched (fs.MoveTouches src dst) fs (fs.moveNames src dst) := by
  intro p hp
  have hnames : (fs.moveNames src dst).names.lookup p = fs.names.lookup p := by
    rw [names_moveNames]
    unfold movedFrom
    split_ifs with hdst hsrc
    · have hnew : rebase dst src p ∉ fs.names := fun h => hp (Or.inr ⟨hdst, Or.inr h⟩)
      have hold : p ∉ fs.names := fun h => hp (Or.inr ⟨hdst, Or.inl h⟩)
      exact (Finmap.lookup_eq_none.mpr hnew).trans (Finmap.lookup_eq_none.mpr hold).symm
    · have hold : p ∉ fs.names := fun h => hp (Or.inl ⟨hsrc, h⟩)
      exact (Finmap.lookup_eq_none.mpr hold).symm
    · rfl
  show ((fs.moveNames src dst).names.lookup p).bind _ = _
  rw [hnames]
  rfl

/-! ## §6. The frame of each call. -/

/-- `path` resolves to `p`. -/
def At (fs : FileSystem) (follow : Bool) (path p : FsPath) : Prop := fs.locate follow path = .ok p

/-- `path` resolves to `p`, where nothing is yet. -/
def NewAt (fs : FileSystem) (follow : Bool) (path p : FsPath) : Prop :=
  fs.At follow path p ∧ p ∉ fs.names

/-- `p` is a name of the node that `path` leads to. -/
def SameNodeAs (fs : FileSystem) (path p : FsPath) : Prop :=
  ∃ q ino, fs.At true path q ∧ fs.NamedBy ino q ∧ fs.NamedBy ino p

/-- What renaming `src` to `dst` takes away, puts or replaces. -/
def RenameTouches (fs : FileSystem) (src dst p : FsPath) : Prop :=
  ∃ s d, fs.At false src s ∧ fs.At false dst d ∧ fs.MoveTouches s d p

theorem find_ok {follow : Bool} {path : FsPath} {found : Found}
    (h : fs.find follow path = .ok found) :
    fs.At follow path found.path ∧ fs.names.lookup found.path = some found.ino
      ∧ fs.inodes.lookup found.ino = some found.inode := by
  unfold find at h
  split at h
  · cases h
  · next q hq =>
    split at h
    · cases h
    · next ino hino =>
      split at h
      · cases h
      · next inode hinode =>
        cases h
        exact ⟨hq, hino, hinode⟩

theorem untouched_modifyIno {ino : Ino} {f : Bytes → Bytes} (h : fs.modifyIno ino f = .ok fs') :
    Untouched (fs.NamedBy ino) fs fs' := by
  unfold modifyIno at h
  split at h
  · cases h
  · split at h
    · cases h
      exact untouched_putInode _ _
    · cases h

theorem untouched_modifyPerm {ino : Ino} {f : Kind → Perm → Perm} (h : fs.modifyPerm ino f = .ok fs') :
    Untouched (fs.NamedBy ino) fs fs' := by
  unfold modifyPerm at h
  split at h
  · cases h
  · cases h
    exact untouched_putInode _ _

theorem untouched_setPermissions {path : FsPath} {mode : UInt32}
    (h : fs.setPermissions path mode = .ok fs') : Untouched (fs.SameNodeAs path) fs fs' := by
  unfold setPermissions at h
  split at h
  · cases h
  · next found hfound =>
    obtain ⟨hat, hname, -⟩ := find_ok hfound
    exact (untouched_modifyPerm h).mono fun p hp => ⟨found.path, found.ino, hat, hname, hp⟩

theorem untouched_chown {path : FsPath} {uid gid : Option UInt32}
    (h : fs.chown path uid gid = .ok fs') : Untouched (fs.SameNodeAs path) fs fs' := by
  unfold chown at h
  split at h
  · cases h
  · next found hfound =>
    obtain ⟨hat, hname, -⟩ := find_ok hfound
    exact (untouched_modifyPerm h).mono fun p hp => ⟨found.path, found.ino, hat, hname, hp⟩

/-- An open changes nothing or, with `create`, makes a file where the path led to nothing. -/
theorem openFile_ok {cred : Cred} {opts : OpenOptions} {path : FsPath} {ino : Ino}
    (h : fs.openFile cred opts path = .ok (ino, fs')) :
    fs' = fs ∨ opts.create = true ∧ ∃ q inode, fs.NewAt true path q ∧ fs' = fs.addNode q inode := by
  unfold openFile at h
  split at h
  · cases h
  · split at h
    · cases h
    · next q hq =>
      split at h
      · split at h
        · cases h
        · cases h
          exact Or.inl rfl
      · next hnew =>
        split at h
        · next hcreate =>
          cases h
          exact Or.inr ⟨hcreate, q, _, ⟨hq, Finmap.lookup_eq_none.mp hnew⟩, rfl⟩
        · cases h

theorem untouched_openFile {cred : Cred} {opts : OpenOptions} {path : FsPath} {ino : Ino}
    (h : fs.openFile cred opts path = .ok (ino, fs')) :
    Untouched (fun p => opts.create = true ∧ fs.NewAt true path p) fs fs' := by
  rcases openFile_ok h with rfl | ⟨hcreate, q, inode, hq, rfl⟩
  · exact Untouched.refl
  · apply (untouched_addNode q inode).mono
    intro p hp
    subst hp
    exact ⟨hcreate, hq⟩

/-- Without `create` an open finds an inode and changes nothing. -/
theorem openFile_existing {cred : Cred} {opts : OpenOptions} {path : FsPath} {ino : Ino}
    (hopts : opts.create = false) (h : fs.openFile cred opts path = .ok (ino, fs')) :
    fs' = fs ∧ ∃ q, fs.At true path q ∧ fs.NamedBy ino q := by
  unfold openFile at h
  rw [hopts] at h
  split at h
  · cases h
  · split at h
    · cases h
    · next q hq =>
      split at h
      · next i hi =>
        split at h
        · cases h
        · cases h
          exact ⟨rfl, q, hq, hi⟩
      · cases h

theorem makeNode_ok {path : FsPath} {inode : Inode} (h : fs.makeNode path inode = .ok fs') :
    ∃ q, fs.NewAt false path q ∧ fs' = fs.addNode q inode := by
  unfold makeNode at h
  split at h
  · cases h
  · next q hq =>
    split at h
    · cases h
    · next hnew =>
      cases h
      exact ⟨q, ⟨hq, Finmap.lookup_eq_none.mp hnew⟩, rfl⟩

theorem untouched_makeNode {path : FsPath} {inode : Inode}
    (h : fs.makeNode path inode = .ok fs') : Untouched (fs.NewAt false path) fs fs' := by
  obtain ⟨q, hq, rfl⟩ := makeNode_ok h
  apply (untouched_addNode q inode).mono
  intro p hp
  subst hp
  exact hq

theorem untouched_removeFile {path : FsPath} (h : fs.removeFile path = .ok fs') :
    Untouched (fs.At false path) fs fs' := by
  unfold removeFile at h
  split at h
  · cases h
  · next found hfound =>
    split at h
    · cases h
    · cases h
      apply (untouched_dropName found.path).mono
      intro p hp
      subst hp
      exact (find_ok hfound).1

theorem untouched_removeDir {path : FsPath} (h : fs.removeDir path = .ok fs') :
    Untouched (fs.At false path) fs fs' := by
  unfold removeDir at h
  split at h
  · cases h
  · next found hfound =>
    split_ifs at h
    cases h
    apply (untouched_dropName found.path).mono
    intro p hp
    subst hp
    exact (find_ok hfound).1

theorem untouched_rename {src dst : FsPath} (h : fs.rename src dst = .ok fs') :
    Untouched (fs.RenameTouches src dst) fs fs' := by
  unfold rename at h
  split at h
  · cases h
  · next found hfound =>
    split at h
    · cases h
    · next q hq =>
      split_ifs at h
      · cases h
        exact Untouched.refl
      · split at h
        · cases h
        · cases h
          apply (untouched_moveNames found.path q).mono
          intro p hp
          exact ⟨found.path, q, (find_ok hfound).1, hq, hp⟩

/-! ## §7. Calls that move no name. -/

/-- The names and the kinds behind them are as before, so every path resolves as before. -/
structure SameShape (fs fs' : FileSystem) : Prop where
  names : fs'.names = fs.names
  kinds : ∀ ino, (fs'.inodes.lookup ino).map (·.content.kind)
    = (fs.inodes.lookup ino).map (·.content.kind)

theorem SameShape.refl : SameShape fs fs := ⟨rfl, fun _ => rfl⟩

theorem SameShape.trans {fs₁ fs₂ : FileSystem} (h : SameShape fs fs₁) (h' : SameShape fs₁ fs₂) :
    SameShape fs fs₂ := ⟨h'.names.trans h.names, fun ino => (h'.kinds ino).trans (h.kinds ino)⟩

theorem SameShape.kindAt (h : SameShape fs fs') : fs'.kindAt = fs.kindAt := by
  funext p
  unfold FileSystem.kindAt node
  rw [h.names]
  cases fs.names.lookup p with
  | none => rfl
  | some ino => exact h.kinds ino

theorem SameShape.locate (h : SameShape fs fs') : fs'.locate = fs.locate := by
  unfold FileSystem.locate
  rw [h.kindAt]

/-- A path that leads to a node leads to the same inode. -/
theorem SameShape.sameNodeAs (h : SameShape fs fs') {path p : FsPath}
    (hp : fs'.SameNodeAs path p) : fs.SameNodeAs path p := by
  obtain ⟨q, ino, hat, hname, hnamed⟩ := hp
  unfold At at hat
  unfold NamedBy at hname hnamed
  rw [h.locate] at hat
  rw [h.names] at hname hnamed
  exact ⟨q, ino, hat, hname, hnamed⟩

theorem sameShape_putInode {ino : Ino} {inode inode' : Inode}
    (h : fs.inodes.lookup ino = some inode) (hkind : inode'.content.kind = inode.content.kind) :
    SameShape fs (fs.putInode ino inode') := by
  refine ⟨rfl, fun i => ?_⟩
  show ((fs.inodes.insert ino inode').lookup i).map _ = _
  rw [lookup_insert_ite]
  by_cases hi : i = ino
  · rw [if_pos hi, hi, h]
    exact congrArg some hkind
  · rw [if_neg hi]

theorem sameShape_modifyIno {ino : Ino} {f : Bytes → Bytes} (h : fs.modifyIno ino f = .ok fs') :
    SameShape fs fs' := by
  unfold modifyIno at h
  split at h
  · cases h
  · next inode hinode =>
    split at h
    · next data hdata =>
      cases h
      exact sameShape_putInode hinode (by rw [hdata]; rfl)
    · cases h

theorem sameShape_modifyPerm {ino : Ino} {f : Kind → Perm → Perm} (h : fs.modifyPerm ino f = .ok fs') :
    SameShape fs fs' := by
  unfold modifyPerm at h
  split at h
  · cases h
  · next inode hinode =>
    cases h
    exact sameShape_putInode hinode rfl

theorem sameShape_setPermissions {path : FsPath} {mode : UInt32}
    (h : fs.setPermissions path mode = .ok fs') : SameShape fs fs' := by
  unfold setPermissions at h
  split at h
  · cases h
  · exact sameShape_modifyPerm h

theorem sameShape_chown {path : FsPath} {uid gid : Option UInt32}
    (h : fs.chown path uid gid = .ok fs') : SameShape fs fs' := by
  unfold chown at h
  split at h
  · cases h
  · exact sameShape_modifyPerm h

theorem NewAt.node {follow : Bool} {path q : FsPath} (hq : fs.NewAt follow path q) :
    fs.node q = none := by
  unfold FileSystem.node
  rw [Finmap.lookup_eq_none.mpr hq.2]
  rfl

/-- A node appears where a path ended: without the last link the path leads where it led. -/
theorem locate_addNode {follow : Bool} {path q : FsPath} {inode : Inode}
    (hq : fs.NewAt follow path q) :
    (fs.addNode q inode).locate false path = fs.locate false path := by
  apply Host.locate_unfollowed _ _ hq.1
  · show (fs.node q).map _ = none
    rw [hq.node]
    rfl
  · intro p hp
    show ((fs.addNode q inode).node p).map _ = (fs.node p).map _
    rw [node_addNode, if_neg hp]

/-- A directory that appears is where the path leads, also with its last link followed. -/
theorem locate_addDir {follow : Bool} {path q : FsPath} {inode : Inode}
    (hq : fs.NewAt follow path q) (hdir : inode.content = .dir) :
    (fs.addNode q inode).locate true path = .ok q := by
  have hold : Host.locate fs.kindAt follow path = .ok q := hq.1
  apply Host.locate_created _ _ _ hold
  · show (fs.node q).map _ = none
    rw [hq.node]
    rfl
  · intro x hx
    show ((fs.addNode q inode).node x).map _ = (fs.node x).map _
    rw [node_addNode, if_neg hx]
  · right
    show ((fs.addNode q inode).node q).map _ = _
    rw [node_addNode, if_pos rfl]
    simp [hdir, Content.kind]

/-- A directory just made is the only name of its inode, and its path leads there. -/
theorem sameNodeAs_created {path q p : FsPath} {inode : Inode} (hq : fs.NewAt false path q)
    (hdir : inode.content = .dir) (hp : (fs.addNode q inode).SameNodeAs path p) : p = q := by
  obtain ⟨r, ino, hat, hname, hnamed⟩ := hp
  have hat' : (fs.addNode q inode).At true path q := locate_addDir hq hdir
  obtain rfl : r = q := Except.ok.inj (hat.symm.trans hat')
  have hname' : (fs.names.insert r (.created fs.nextIno)).lookup r = some ino := hname
  have hnamed' : (fs.names.insert r (.created fs.nextIno)).lookup p = some ino := hnamed
  rw [Finmap.lookup_insert] at hname'
  obtain rfl : Ino.created fs.nextIno = ino := Option.some.inj hname'
  rw [lookup_insert_ite] at hnamed'
  by_contra hne
  rw [if_neg hne] at hnamed'
  exact absurd (fs.fresh p _ hnamed') (by omega)

end FileSystem

end Cas.Host
