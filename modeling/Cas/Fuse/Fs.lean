/-
  Cas.Fuse.Fs — the FUSE operations (`fuse/fs.rs`, `fuse/inner.rs`,
  `fuse/attr.rs`).

  `serveFuse` answers one request.  Left out: locks, `lseek`, `fallocate`,
  `fsyncdir`, extended attributes, `statfs`, and in a reply the times, the
  link and block counts, the entry TTL and the FOPEN flags.
-/
import Cas.Fuse.Executor

namespace Cas.Fuse

open Cas.Lib Cas.Host Cas.Syncing

/-! ## §1. Attributes. -/

/-- An overflow id is shown as root. -/
def mapNobody (id : UInt32) : UInt32 := if id ≥ 65534 then 0 else id

/-- The size that a directory reports. -/
def DIR_SIZE : Nat := 4096

def Content.size : Content → Nat
  | .file data => data.length
  | .dir => DIR_SIZE
  | .symlink target => target.length

def attrFromMeta (ino : UInt64) (inode : Inode) : FileAttr where
  ino
  size := Content.size inode.content
  kind := .ofKind inode.content.kind
  perm := inode.perm.mode &&& 0o7777
  uid := mapNobody inode.perm.uid
  gid := mapNobody inode.perm.gid

def attrFromDaemon (ino : UInt64) (md : FileMetadata) (kind : FileType) : FileAttr where
  ino
  size := md.size.toNat
  kind
  perm := md.mode &&& 0o7777
  uid := md.uid
  gid := md.gid

/-- The kind an entry shows: a `File` entry may carry another kind in its mode. -/
def kindFromEntry (entry : FuseEntry) : Option FileType :=
  match entry.entryType with
  | .whiteout => none
  | .dir => some .directory
  | .symlink => some .symlink
  | .file =>
    let ft := entry.metadata.mode &&& S_IFMT
    if ft = S_IFLNK then some .symlink
    else if ft = S_IFDIR then some .directory
    else some .regularFile

def statRealPath (path : FsPath) : FuseM (FileType × FileAttr) := do
  let inode ← readHost fun fs => fs.symlinkMetadata path
  let ino ← getOrInsert path
  pure (.ofKind inode.content.kind, attrFromMeta ino inode)

def statFusePath (env : Env) (path : FsPath) : FuseM (FileType × FileAttr) := do
  match ← Client.getEntry env path with
  | none => throw (.ofErrno .enoent)
  | some entry =>
    match kindFromEntry entry with
    | none => throw (.ofErrno .enoent)
    | some kind => do
      let ino ← getOrInsert path
      pure (kind, attrFromDaemon ino entry.metadata kind)

def statPath (pol : Policy) (env : Env) (path : FsPath) : FuseM (FileType × FileAttr) := do
  connectDaemon
  let state ← loadStatState pol env path
  match decideStat state with
  | .useReal => statRealPath path
  | .useFuse => statFusePath env path
  | .notFound => throw (.ofErrno .enoent)

/-! ## §2. Requests and replies. -/

/-- The name in a request; `.` and `..` may occur. -/
inductive Component
  | cur
  | parent
  | name (n : Name)
  deriving DecidableEq

/-- The requests of the model.  Not among them are `lseek`, `fallocate`, `setlk` and `getlk`, which
act on the descriptor behind a handle (for the locks see `Cas.Fuse.LockRanges`), and `fsyncdir`,
`poll`, `releasedir`, `statfs`, `ioctl` and `getxattr`, which change nothing; none of them takes a
connection to the daemon. -/
inductive FuseRequest
  | lookup (parent : UInt64) (name : Component)
  | getattr (ino : UInt64)
  | setattr (ino : UInt64) (mode uid gid : Option UInt32) (size : Option UInt64)
      (fh : Option UInt64)
  | readlink (ino : UInt64)
  | mkdir (parent : UInt64) (name : Component) (mode : UInt32)
  | unlink (parent : UInt64) (name : Component)
  | rmdir (parent : UInt64) (name : Component)
  /-- The flags of a rename are ignored. -/
  | rename (parent : UInt64) (name : Component) (newparent : UInt64) (newname : Component)
  | symlink (parent : UInt64) (name : Component) (target : Bytes)
  | link (ino newparent : UInt64) (newname : Component)
  | «open» (ino : UInt64) (flags : OpenFlags)
  | create (parent : UInt64) (name : Component) (mode : UInt32) (flags : OpenFlags)
  | read (ino fh : UInt64) (offset size : Nat)
  | write (ino fh : UInt64) (offset : Nat) (data : Bytes)
  | copyFileRange (inoIn fhIn : UInt64) (offsetIn : Nat) (inoOut fhOut : UInt64)
      (offsetOut len : Nat)
  | flush (fh : UInt64)
  | release (fh : UInt64) (flush : Bool)
  | fsync (fh : UInt64)
  | opendir (ino : UInt64)
  | readdir (ino : UInt64) (offset capacity : Nat)
  | access (ino : UInt64)
  deriving DecidableEq

/-- One entry of a readdir reply, with the offset of the entry after it. -/
structure DirEntry where
  ino : UInt64
  offset : Nat
  kind : FileType
  name : Bytes
  deriving DecidableEq

inductive Reply
  | entry (attr : FileAttr)
  | attr (attr : FileAttr)
  | data (bytes : Bytes)
  | ok
  | opened (fh : UInt64)
  | created (attr : FileAttr) (fh : UInt64)
  | written (count : Nat)
  | directory (entries : List DirEntry)
  | error (errno : Errno)
  deriving DecidableEq

def Component.under (path : FsPath) : Component → FsPath
  | .cur => path
  | .parent => path.pop
  | .name n => path ++ [n]

/-- `get_path!` with a component. -/
def getPath (parent : UInt64) (comp : Component) : FuseM FsPath := do
  let path ← pathOf parent
  pure (comp.under path)

/-! ## §3. Operations. -/

section Operations

variable (pol : Policy) (env : Env)

/-- Only `open` reports a path to log. -/
def reqStart (operation : String) (path : FsPath) : FuseM Unit :=
  onlyIf (pol.shouldLog path) <| ignore do
    connectDaemon
    ignore (Client.logAccess env path operation)

def entryReply (path : FsPath) : FuseM Reply := do
  let (_, attr) ← statPath pol env path
  pure (.entry attr)

def attrReply (path : FsPath) : FuseM Reply := do
  let (_, attr) ← statPath pol env path
  pure (.attr attr)

def lookup (parent : UInt64) (name : Component) : FuseM Reply := do
  let path ← getPath parent name
  entryReply pol env path

def getattr (ino : UInt64) : FuseM Reply := do
  let path ← pathOf ino
  attrReply pol env path

/-- `UpdateOpenHandle`: only `set_len` can fail the request. -/
def setattrOpenHandle (fd : Fd) (mode uid gid : Option UInt32) (size : Option UInt64) :
    FuseM Unit := do
  forSome size fun sz => fd.setLen sz.toNat
  forSome mode fun m => ignore (fd.setPermissions (m &&& 0o7777))
  onlyIf (mode.isSome || uid.isSome || gid.isSome) (ignore (fd.chown uid gid))

/-- Open for writing, then `set_len`. -/
def truncateReal (path : FsPath) (size : Nat) : FuseM Unit := do
  let ino ← onHost fun fs => fs.openFile env.cred
    { read := false, write := true, append := false, create := false, mode := 0 } path
  changeHost fun fs => fs.setLenIno ino size

/-- `UpdateRealFs`: links at the end of the path are followed. -/
def setattrReal (path : FsPath) (mode uid gid : Option UInt32) (size : Option UInt64) :
    FuseM Unit := do
  forSome size fun sz => truncateReal env path sz.toNat
  forSome mode fun m => ignore (changeHost fun fs => fs.setPermissions path (m &&& 0o7777))
  onlyIf (mode.isSome || uid.isSome || gid.isSome)
    (ignore (changeHost fun fs => fs.chown path uid gid))

/-- The metadata with the requested fields replaced. -/
def updateMeta (md : FileMetadata) (mode uid gid : Option UInt32) (size : Option UInt64) :
    FileMetadata :=
  { md with
    mode := match mode with
      | some v => (md.mode &&& ~~~0o7777) ||| (v &&& 0o7777)
      | none => md.mode
    uid := uid.getD md.uid
    gid := gid.getD md.gid
    size := size.getD md.size
    ctime := env.now }

/-- `UpdateDaemonMeta`: every failure is ignored. -/
def setattrMeta (path : FsPath) (mode uid gid : Option UInt32) (size : Option UInt64) :
    FuseM Unit := do
  match ← attempt (Client.getFileMeta env path) with
  | .ok (some md) =>
    ignore (Client.putFileMeta env path (updateMeta env md mode uid gid size))
  | _ => pure ()

/-- The open file of an optional handle, if it is there. -/
def openFile? (fh : Option UInt64) : FuseM (Option OpenFile) := fun w =>
  .ok (fh.bind fun fh => w.openFiles.lookup fh) w

/-- The three ways to carry out a `setattr`. -/
def applySetattr (decision : SetattrDecision) (path : FsPath) (file : Option OpenFile)
    (mode uid gid : Option UInt32) (size : Option UInt64) : FuseM Unit :=
  match decision with
  | .updateOpenHandle => forSome file fun file => setattrOpenHandle file.file mode uid gid size
  | .updateRealFs => setattrReal env path mode uid gid size
  | .updateDaemonMeta => setattrMeta env path mode uid gid size

def setattr (ino : UInt64) (mode uid gid : Option UInt32) (size : Option UInt64)
    (fh : Option UInt64) : FuseM Reply := do
  let path ← pathOf ino
  connectDaemon
  let file ← openFile? fh
  let state := loadSetattrState pol path fh.isSome file.isSome mode uid gid size
  applySetattr env (decideSetattr state) path file mode uid gid size
  attrReply pol env path

def readlink (ino : UInt64) : FuseM Reply := do
  let path ← pathOf ino
  connectDaemon
  let state ← loadReadlinkState pol env path
  let data ← executeReadlink env (decideReadlink state) path
  pure (.data data)

/-- What `mkdir` and `create` reply when the new node cannot be read back. -/
def newAttr (ino : UInt64) (kind : FileType) (mode : UInt32) : FileAttr :=
  { ino, size := 0, kind, perm := mode &&& 0o7777, uid := env.uid, gid := env.gid }

def mkdir (parent : UInt64) (name : Component) (mode : UInt32) : FuseM Reply := do
  let path ← getPath parent name
  connectDaemon
  executeMkdir env (decideMkdir (loadMkdirState pol path)) path mode
  let ino ← getOrInsert path
  match ← attempt (statPath pol env path) with
  | .ok (_, attr) => pure (.entry attr)
  | .error _ => pure (.entry (newAttr env ino .directory mode))

def unlink (parent : UInt64) (name : Component) : FuseM Reply := do
  let path ← getPath parent name
  connectDaemon
  executeUnlink env (decideUnlink (loadUnlinkState pol path)) path
  pure .ok

/-- The stack of `recursive_real_descendants`: the top directory, its entries, the rest. -/
def descendantsLoop (fs : FileSystem) : Nat → List FsPath → List FsPath
  | 0, _ => []
  | _, [] => []
  | fuel + 1, dir :: stack =>
    match fs.readDir dir with
    | .error _ => descendantsLoop fs fuel stack
    | .ok entries =>
      let dirs := (entries.filter fun entry => decide (entry.2 = .dir)).map
        fun entry => dir ++ [entry.1]
      entries.map (fun entry => dir ++ [entry.1]) ++
        descendantsLoop fs fuel (dirs.reverse ++ stack)

/-- Each name is pushed at most once, so the names bound the number of rounds. -/
def recursiveRealDescendants (fs : FileSystem) (path : FsPath) : List FsPath :=
  descendantsLoop fs (fs.names.keys.card + 1) [path]

def rmdir (parent : UInt64) (name : Component) : FuseM Reply := do
  let path ← getPath parent name
  connectDaemon
  let descendants ← peekHost fun fs => recursiveRealDescendants fs path
  executeRmdir env (decideRmdir (loadRmdirState pol path)) path descendants
  pure .ok

def rename (parent : UInt64) (name : Component) (newparent : UInt64) (newname : Component) :
    FuseM Reply := do
  let src ← getPath parent name
  let dst ← getPath newparent newname
  connectDaemon
  let state ← loadRenameState pol env src dst
  executeRename env (decideRename state) src dst
  pure .ok

def symlink (parent : UInt64) (name : Component) (target : Bytes) : FuseM Reply := do
  let path ← getPath parent name
  connectDaemon
  let md := fileMetaNow env target.length.toUInt64 (S_IFLNK ||| 0o777) env.uid env.gid
  executeSymlink env (pol.classify path) path target md
  entryReply pol env path

def «open» (ino : UInt64) (flags : OpenFlags) : FuseM Reply := do
  let path ← pathOf ino
  reqStart pol env "open" path
  connectDaemon
  let state ← loadOpenState pol env path flags.needWrite flags.trunc
  let defaultMeta := fileMetaNow env 0 (S_IFREG ||| 0o644) env.uid env.gid
  let file ← executeOpen env (decideOpen state) path flags defaultMeta
  let fh ← addOpenFile file
  pure (.opened fh)

def create (parent : UInt64) (name : Component) (mode : UInt32) (flags : OpenFlags) :
    FuseM Reply := do
  let path ← getPath parent name
  connectDaemon
  let md := fileMetaNow env 0 (S_IFREG ||| (mode &&& 0o7777)) env.uid env.gid
  let file ← executeCreate env (decideCreate (loadCreateState pol path)) path mode flags md
  let fh ← addOpenFile file
  match ← attempt (statPath pol env path) with
  | .ok (_, attr) => pure (.created attr fh)
  | .error _ => do
    let ino ← getOrInsert path
    pure (.created (newAttr env ino .regularFile mode) fh)

def read (ino fh : UInt64) (offset size : Nat) : FuseM Reply := do
  connectDaemon
  let _ ← pathOf ino
  let file ← openFileOf fh
  let bytes ← file.file.readAt offset size
  pure (.data bytes)

def write (ino fh : UInt64) (offset : Nat) (data : Bytes) : FuseM Reply := do
  connectDaemon
  let _ ← pathOf ino
  let file ← openFileOf fh
  let count ← file.file.writeAt offset data
  pure (.written count)

def copyFileRange (inoIn fhIn : UInt64) (offsetIn : Nat) (inoOut fhOut : UInt64)
    (offsetOut len : Nat) : FuseM Reply := do
  let _ ← pathOf inoIn
  let _ ← pathOf inoOut
  connectDaemon
  let input ← openFileOf fhIn
  let data ← input.file.readAt offsetIn len
  let output ← openFileOf fhOut
  let count ← output.file.writeAt offsetOut data
  pure (.written count)

/-- `flush` and `fsync`: the data is in the file already. -/
def flushToDaemon (fh : UInt64) : FuseM Reply := do
  connectDaemon
  let _ ← openFileOf fh
  pure .ok

def release (fh : UInt64) (flush : Bool) : FuseM Reply := do
  onlyIf flush connectDaemon
  removeOpenFile fh
  pure .ok

/-! ## §4. Directory listings. -/

/-- The children that the decision shows, in name order. -/
def visibleChildren (state : ReaddirState) : List (Name × FileType × FsPath) :=
  let perChild := decideReaddir state
  (sortedKeys perChild.keys).filterMap fun name =>
    (perChild.lookup name).bind fun decision =>
      (chooseVisibleChild state name decision).map fun shown => (name, shown)

/-- Give every visible child its inode number. -/
def childEntries : List (Name × FileType × FsPath) → FuseM (List (UInt64 × FileType × Bytes))
  | [] => pure []
  | (name, kind, full) :: rest => do
    let ino ← getOrInsert full
    let entries ← childEntries rest
    pure ((ino, kind, name.bytes) :: entries)

/-- The room one entry takes in the reply buffer: a header and the name, padded to eight. -/
def direntSize (name : Bytes) : Nat := (24 + name.length + 7) / 8 * 8

/-- The reply loop: `add` answers `true` when the entry does not fit, and the loop goes on for as
long as it does. -/
def fillReply (room : Nat) : Nat → List (UInt64 × FileType × Bytes) → List DirEntry
  | _, [] => []
  | i, (ino, kind, name) :: rest =>
    if room < direntSize name then fillReply room (i + 1) rest
    else [{ ino, offset := i + 1, kind, name }]

def readdir (ino : UInt64) (offset capacity : Nat) : FuseM Reply := do
  let path ← pathOf ino
  connectDaemon
  let state ← loadReaddirState pol env path
  match validateReaddirDecision state (decideReaddir state) with
  | .error err => throw err
  | .ok () => do
    let parentIno ← getOrInsert (path.parent.getD [])
    let children ← childEntries (visibleChildren state)
    let entries := (ino, .directory, [46]) :: (parentIno, .directory, [46, 46]) :: children
    pure (.directory (fillReply capacity offset (entries.drop offset)))

/-! ## §5. One request. -/

def handle : FuseRequest → FuseM Reply
  | .lookup parent name => lookup pol env parent name
  | .getattr ino => getattr pol env ino
  | .setattr ino mode uid gid size fh => setattr pol env ino mode uid gid size fh
  | .readlink ino => readlink pol env ino
  | .mkdir parent name mode => mkdir pol env parent name mode
  | .unlink parent name => unlink pol env parent name
  | .rmdir parent name => rmdir pol env parent name
  | .rename parent name newparent newname => rename pol env parent name newparent newname
  | .symlink parent name target => symlink pol env parent name target
  | .link _ _ _ => throw (.ofErrno .eperm)
  | .open ino flags => «open» pol env ino flags
  | .create parent name mode flags => create pol env parent name mode flags
  | .read ino fh offset size => read ino fh offset size
  | .write ino fh offset data => write ino fh offset data
  | .copyFileRange inoIn fhIn offsetIn inoOut fhOut offsetOut len =>
    copyFileRange inoIn fhIn offsetIn inoOut fhOut offsetOut len
  | .flush fh => flushToDaemon fh
  | .release fh flush => release fh flush
  | .fsync fh => flushToDaemon fh
  | .opendir ino => do
    let _ ← pathOf ino
    pure (.opened ino)
  | .readdir ino offset capacity => readdir pol env ino offset capacity
  | .access ino => do
    let _ ← pathOf ino
    pure .ok

/-- Serve one request: an error becomes an error reply. -/
def serveFuse (w : World) (req : FuseRequest) : Reply × World :=
  match handle pol env req { w with faults := env.faults } with
  | .ok reply w => (reply, w)
  | .error err w => (.error (errToErrno err), w)

end Operations

/-- A FUSE daemon just mounted, over a host and a syncing daemon. -/
def World.mount (host : FileSystem) (daemon : Server) : World where
  host
  daemon
  inodes := InodeTable.new []
  openFiles := ∅
  nextFh := 1
  faults := []

end Cas.Fuse
