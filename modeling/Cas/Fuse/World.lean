/-
  Cas.Fuse.World — what a FUSE daemon acts on and its primitive actions
  (`fuse/inode.rs`, `fuse/open_file.rs`, `fuse/attr.rs`,
  `syncing/client.rs`).

  One `World` holds the host, the syncing daemon and the FUSE daemon's own
  tables.  A handler is an `EStateM`; every primitive action below touches
  one part of the world.
-/
import Cas.Fuse.Decision
import Cas.Host.Calls
import Cas.Lib.Effect
import Cas.Syncing.Server

namespace Cas.Fuse

open Cas.Lib Cas.Host Cas.Syncing

/-! ## §1. Tables. -/

structure InodeTable where
  inoToPath : FMap UInt64 FsPath
  pathToIno : FMap FsPath UInt64
  nextIno : UInt64
  deriving DecidableEq

namespace InodeTable

/-- A new table with the root inode, 1. -/
def new (root : FsPath) : InodeTable where
  inoToPath := Finmap.singleton 1 root
  pathToIno := Finmap.singleton root 1
  nextIno := 2

/-- The inode of `path`, assigned now if there is none. -/
def getOrInsert (t : InodeTable) (path : FsPath) : UInt64 × InodeTable :=
  match t.pathToIno.lookup path with
  | some ino => (ino, t)
  | none =>
    (t.nextIno, { inoToPath := t.inoToPath.insert t.nextIno path
                  pathToIno := t.pathToIno.insert path t.nextIno
                  nextIno := t.nextIno + 1 })

def getPath (t : InodeTable) (ino : UInt64) : Option FsPath := t.inoToPath.lookup ino

end InodeTable

/-- The file behind a descriptor. -/
inductive Backing
  | host (ino : Ino)
  | object (path : ObjectPath)
  deriving DecidableEq

/-- A `std::fs::File`.  Every opener asks for read access. -/
structure Fd where
  backing : Backing
  writable : Bool
  append : Bool
  deriving DecidableEq

inductive OpenFile
  | passthroughReal (file : Fd)
  | passthroughObject (file : Fd) (objectId : UInt64)
  deriving DecidableEq

def OpenFile.file : OpenFile → Fd
  | .passthroughReal file => file
  | .passthroughObject file _ => file

structure FileAttr where
  ino : UInt64
  size : Nat
  kind : FileType
  perm : UInt32
  uid : UInt32
  gid : UInt32
  deriving DecidableEq

/-! ## §2. The world. -/

/-- What goes wrong with one message to the syncing daemon. -/
inductive RpcFault
  /-- Connecting, encoding (a path that is not UTF-8) or sending fails. -/
  | unsent (err : ClientError)
  /-- The daemon serves the request, the reply does not arrive. -/
  | lost (err : ClientError)
  deriving DecidableEq

structure World where
  host : FileSystem
  daemon : Server
  inodes : InodeTable
  openFiles : FMap UInt64 OpenFile
  nextFh : UInt64
  /-- What the next messages of the request being served run into; none when the list ends. -/
  faults : List (Option RpcFault)

/-- What one FUSE request brings with it. -/
structure Env where
  uid : UInt32
  gid : UInt32
  pid : UInt32
  now : UInt64
  /-- The FUSE daemon's own process. -/
  cred : Cred
  storeIo : StoreIo
  faults : List (Option RpcFault)

/-- A request of root at time zero, with every operation succeeding. -/
def Env.quiet : Env :=
  { uid := 0, gid := 0, pid := 1, now := 0, cred := ⟨0, 0, 0o022⟩, storeIo := .ok, faults := [] }

abbrev FuseM := EStateM Error World

/-! ## §3. Primitive actions. -/

/-- A host call that only reads and cannot fail. -/
def peekHost {α : Type} (f : FileSystem → α) : FuseM α := fun w => .ok (f w.host) w

/-- A host call that only reads. -/
def readHost {α : Type} (f : FileSystem → Except Errno α) : FuseM α := fun w =>
  match f w.host with
  | .ok a => .ok a w
  | .error errno => .error (.ofErrno errno) w

/-- A host call that may change the host. -/
def onHost {α : Type} (f : FileSystem → Except Errno (α × FileSystem)) : FuseM α := fun w =>
  match f w.host with
  | .ok (a, host) => .ok a { w with host }
  | .error errno => .error (.ofErrno errno) w

def changeHost (f : FileSystem → Except Errno FileSystem) : FuseM Unit :=
  onHost fun fs => (f fs).map fun fs => ((), fs)

section OnHost

variable {α : Type} {w : World}

theorem peekHost_eq (f : FileSystem → α) (w : World) : peekHost f w = .ok (f w.host) w := rfl

theorem readHost_ok {f : FileSystem → Except Errno α} {a : α} (h : f w.host = .ok a) :
    readHost f w = .ok a w := by
  unfold readHost
  rw [h]

theorem readHost_error {f : FileSystem → Except Errno α} {errno : Errno}
    (h : f w.host = .error errno) : readHost f w = .error (.ofErrno errno) w := by
  unfold readHost
  rw [h]

theorem onHost_ok {f : FileSystem → Except Errno (α × FileSystem)} {a : α} {host : FileSystem}
    (h : f w.host = .ok (a, host)) : onHost f w = .ok a { w with host } := by
  unfold onHost
  rw [h]

theorem onHost_error {f : FileSystem → Except Errno (α × FileSystem)} {errno : Errno}
    (h : f w.host = .error errno) : onHost f w = .error (.ofErrno errno) w := by
  unfold onHost
  rw [h]

theorem changeHost_ok {f : FileSystem → Except Errno FileSystem} {host : FileSystem}
    (h : f w.host = .ok host) : changeHost f w = .ok () { w with host } := by
  apply onHost_ok
  show (f w.host).map _ = _
  rw [h]
  rfl

theorem changeHost_error {f : FileSystem → Except Errno FileSystem} {errno : Errno}
    (h : f w.host = .error errno) : changeHost f w = .error (.ofErrno errno) w := by
  apply onHost_error
  show (f w.host).map _ = _
  rw [h]
  rfl

end OnHost

/-- Take the fault of the next message. -/
def nextFault : FuseM (Option RpcFault) := fun w =>
  .ok w.faults.head?.join { w with faults := w.faults.tail }

/-- `SyncClientPool::checkout`. -/
def connectDaemon : FuseM Unit := do
  match ← nextFault with
  | none => pure ()
  | some (.unsent err) => throw (.syncingClient err)
  | some (.lost err) => throw (.syncingClient err)

def Env.dispatchEnv (env : Env) (host : FileSystem) : DispatchEnv where
  real path := (host.readFile path).mapError fun _ => "os error"
  storeIo := env.storeIo
  flushIo := .ok
  order := .sorted

def dispatchNow (env : Env) (req : Request) : FuseM Response := fun w =>
  let (reply, daemon) := dispatch (env.dispatchEnv w.host) w.daemon req
  .ok reply { w with daemon }

def sendRequest (env : Env) (req : Request) : FuseM Response := do
  match ← nextFault with
  | none => dispatchNow env req
  | some (.unsent err) => throw (.syncingClient err)
  | some (.lost err) => do
    let _ ← dispatchNow env req
    throw (.syncingClient err)

/-- Work on the object files that the daemons share. -/
def onObjects {α : Type}
    (f : FMap ObjectPath Bytes → Except Errno (α × FMap ObjectPath Bytes)) : FuseM α := fun w =>
  match f w.daemon.storage.objects with
  | .ok (a, objects) =>
    .ok a { w with daemon := { w.daemon with storage := { w.daemon.storage with objects } } }
  | .error errno => .error (.ofErrno errno) w

theorem onObjects_ok {α : Type} {w : World}
    {f : FMap ObjectPath Bytes → Except Errno (α × FMap ObjectPath Bytes)} {a : α}
    {objects : FMap ObjectPath Bytes} (h : f w.daemon.storage.objects = .ok (a, objects)) :
    onObjects f w = .ok a { w with daemon :=
      { w.daemon with storage := { w.daemon.storage with objects } } } := by
  unfold onObjects
  rw [h]

theorem onObjects_error {α : Type} {w : World}
    {f : FMap ObjectPath Bytes → Except Errno (α × FMap ObjectPath Bytes)} {errno : Errno}
    (h : f w.daemon.storage.objects = .error errno) :
    onObjects f w = .error (.ofErrno errno) w := by
  unfold onObjects
  rw [h]

/-- The path of an inode number. -/
def pathOf (ino : UInt64) : FuseM FsPath := fun w =>
  match w.inodes.getPath ino with
  | some path => .ok path w
  | none => .error (.ofErrno .enoent) w

theorem pathOf_ok {w : World} {ino : UInt64} {path : FsPath}
    (h : w.inodes.getPath ino = some path) : pathOf ino w = .ok path w := by
  unfold pathOf
  rw [h]

def getOrInsert (path : FsPath) : FuseM UInt64 := fun w =>
  let (ino, inodes) := w.inodes.getOrInsert path
  .ok ino { w with inodes }

/-- The open file of a handle. -/
def openFileOf (fh : UInt64) : FuseM OpenFile := fun w =>
  match w.openFiles.lookup fh with
  | some file => .ok file w
  | none => .error (.ofErrno .ebadf) w

theorem openFileOf_ok {w : World} {fh : UInt64} {file : OpenFile}
    (h : w.openFiles.lookup fh = some file) : openFileOf fh w = .ok file w := by
  unfold openFileOf
  rw [h]

/-- `alloc_fh`, then insert the file. -/
def addOpenFile (file : OpenFile) : FuseM UInt64 := fun w =>
  .ok w.nextFh { w with nextFh := w.nextFh + 1, openFiles := w.openFiles.insert w.nextFh file }

def removeOpenFile (fh : UInt64) : FuseM Unit := fun w =>
  .ok () { w with openFiles := w.openFiles.erase fh }

/-! ## §4. The client's methods. -/

def unexpected : Error := .syncingClient (.server "Unexpected response")

/-- Send a request and take the expected reply apart. -/
def call {α : Type} (env : Env) (req : Request) (take : Response → Option α) : FuseM α := do
  let response ← sendRequest env req
  match take response with
  | some a => pure a
  | none =>
    match response with
    | .error msg => throw (.syncingClient (.server msg))
    | _ => throw unexpected

def takeUnit (expected : Response) (response : Response) : Option Unit :=
  if response = expected then some () else none

def takeObject : Response → Option (UInt64 × ObjectPath)
  | .ensureFileObject id path => some (id, path)
  | _ => none

namespace Client

variable (env : Env)

def ensureFileObject (path : FsPath) (md : FileMetadata) : FuseM (UInt64 × ObjectPath) :=
  call env (.ensureFileObject path md) takeObject

def ensureFileObjectFromReal (path : FsPath) (md : FileMetadata) :
    FuseM (UInt64 × ObjectPath) :=
  call env (.ensureFileObjectFromReal path md) takeObject

/-- Alone in answering `NotFound` with an error of its own. -/
def getObjectPath (id : UInt64) : FuseM ObjectPath := do
  let response ← sendRequest env (.getObjectPath id)
  match response with
  | .getObjectPath path => pure path
  | .notFound => throw (.syncingClient .notFound)
  | .error msg => throw (.syncingClient (.server msg))
  | _ => throw unexpected

def putFileMeta (path : FsPath) (md : FileMetadata) : FuseM Unit :=
  call env (.putFileMeta path md) (takeUnit .putFileMeta)

def getFileMeta (path : FsPath) : FuseM (Option FileMetadata) :=
  call env (.getFileMeta path) fun | .getFileMeta md => some md | _ => none

def getEntry (path : FsPath) : FuseM (Option FuseEntry) :=
  call env (.getEntry path) fun | .getEntry entry => some entry | _ => none

def deleteFile (path : FsPath) : FuseM Unit :=
  call env (.deleteFile path) (takeUnit .deleteFile)

def renameFile (src dst : FsPath) : FuseM Unit :=
  call env (.renameFile src dst) (takeUnit .renameFile)

def putDir (path : FsPath) (md : FileMetadata) : FuseM Unit :=
  call env (.putDir path md) (takeUnit .putDir)

def putSymlink (path : FsPath) (target : Bytes) (md : FileMetadata) : FuseM Unit :=
  call env (.putSymlink path target md) (takeUnit .putSymlink)

def putWhiteout (path : FsPath) : FuseM Unit :=
  call env (.putWhiteout path) (takeUnit .putWhiteout)

def deleteWhiteout (path : FsPath) : FuseM Unit :=
  call env (.deleteWhiteout path) (takeUnit .deleteWhiteout)

def readDirAll (path : FsPath) : FuseM (List (FsPath × FuseEntry)) :=
  call env (.readDirAll path) fun | .dirEntries entries => some entries | _ => none

def renameTree (src dst : FsPath) : FuseM Unit :=
  call env (.renameTree src dst) (takeUnit .renameTree)

def logAccess (path : FsPath) (operation : String) : FuseM Unit :=
  call env (.logAccess path operation env.pid) (takeUnit .logAccess)

end Client

/-! ## §5. Descriptors. -/

/-- The open options of `execute_open`, with O_WRONLY widened to read and write. -/
inductive AccMode
  | rdonly
  | wronly
  | rdwr
  deriving DecidableEq

structure OpenFlags where
  accMode : AccMode
  append : Bool
  trunc : Bool
  deriving DecidableEq

def OpenFlags.needWrite (flags : OpenFlags) : Bool :=
  match flags.accMode with
  | .rdonly => false
  | .wronly | .rdwr => true

def OpenFlags.options (flags : OpenFlags) : OpenOptions :=
  { read := true, write := flags.needWrite, append := flags.append, create := false, mode := 0 }

def fdOf (opts : OpenOptions) (backing : Backing) : Fd :=
  { backing, writable := opts.write || opts.append, append := opts.append }

/-- `options.open(path)` on the host. -/
def openHost (env : Env) (opts : OpenOptions) (path : FsPath) : FuseM Fd := do
  let ino ← onHost fun fs => fs.openFile env.cred opts path
  pure (fdOf opts (.host ino))

/-- `options.open(object_path)`.

`create` without `write` or `append` is refused by the standard library itself: with `EINVAL`, or,
in its later releases, without an error number, which the daemon would answer as `EIO`. -/
def openObject (opts : OpenOptions) (path : ObjectPath) : FuseM Fd := do
  onObjects fun objects =>
    if opts.create ∧ opts.write = false ∧ opts.append = false then .error .einval
    else if path ∈ objects then .ok ((), objects)
    else if opts.create then .ok ((), objects.insert path [])
    else .error .enoent
  pure (fdOf opts (.object path))

/-- `fs::copy` of a host file onto an object: the object's old content is gone. -/
def copyToObject (path : FsPath) (objectPath : ObjectPath) : FuseM Unit := do
  let data ← readHost fun fs => fs.readFile path
  onObjects fun objects => .ok ((), objects.insert objectPath data)

namespace Fd

/-- Change the content of an object file. -/
def modifyObject (path : ObjectPath) (f : Bytes → Bytes) : FuseM Unit :=
  onObjects fun objects =>
    match objects.lookup path with
    | none => .error .eio
    | some data => .ok ((), objects.insert path (f data))

theorem modifyObject_missing {w : World} {path : ObjectPath} (f : Bytes → Bytes)
    (h : w.daemon.storage.objects.lookup path = none) :
    modifyObject path f w = .error (.ofErrno .eio) w := by
  apply onObjects_error
  rw [h]

theorem modifyObject_found {w : World} {path : ObjectPath} (f : Bytes → Bytes) {data : Bytes}
    (h : w.daemon.storage.objects.lookup path = some data) :
    modifyObject path f w = .ok () { w with daemon := { w.daemon with storage :=
      { w.daemon.storage with
        objects := w.daemon.storage.objects.insert path (f data) } } } := by
  apply onObjects_ok
  rw [h]

/-- Seek and one `read`. -/
def readAt (fd : Fd) (offset len : Nat) : FuseM Bytes :=
  match fd.backing with
  | .host ino => readHost fun fs => fs.readIno ino offset len
  | .object path => onObjects fun objects =>
    match objects.lookup path with
    | none => .error .eio
    | some data => .ok (Lib.readAt data offset len, objects)

/-- One `write` of a non-empty buffer. -/
def write (fd : Fd) (offset : Nat) (data : Bytes) : FuseM Unit :=
  if fd.writable = false then throw (.ofErrno .ebadf)
  else
    match fd.backing with
    | .host ino => changeHost fun fs => fs.writeIno ino fd.append offset data
    | .object path => modifyObject path fun old =>
      Lib.writeAt old (if fd.append then old.length else offset) data

/-- `write_all_at`: no call is made when `data` is empty. -/
def writeAt (fd : Fd) (offset : Nat) (data : Bytes) : FuseM Nat :=
  if data = [] then pure 0
  else do
    fd.write offset data
    pure data.length

def setLen (fd : Fd) (size : Nat) : FuseM Unit :=
  if fd.writable = false then throw (.ofErrno .einval)
  else
    match fd.backing with
    | .host ino => changeHost fun fs => fs.setLenIno ino size
    | .object path => modifyObject path fun old => Lib.setLen old size

/-- `fchmod`: any descriptor will do.  The bits of an object file are nobody's. -/
def setPermissions (fd : Fd) (mode : UInt32) : FuseM Unit :=
  match fd.backing with
  | .host ino => changeHost fun fs => fs.chmodIno ino mode
  | .object _ => pure ()

def chown (fd : Fd) (uid gid : Option UInt32) : FuseM Unit :=
  match fd.backing with
  | .host ino => changeHost fun fs => fs.chownIno ino uid gid
  | .object _ => pure ()

end Fd

end Cas.Fuse
