/-
  Cas.Fuse.Executor — loading the state of a request and carrying out the
  decision (`fuse/state_loader.rs`, `fuse/executor.rs`).
-/
import Cas.Fuse.World

namespace Cas.Fuse

open Cas.Lib Cas.Host Cas.Syncing

variable (pol : Policy) (env : Env)

/-! ## §1. State loader. -/

def loadStatState (path : FsPath) : FuseM StatState := do
  let realExists ← peekHost fun fs => (fs.symlinkMetadata path).isOk
  let fuseEntry ← Client.getEntry env path
  pure { accessMode := pol.classify path, realExists, fuseEntry }

/-- The children that `read_dir` yields; an unreadable directory has none. -/
def realChildren (fs : FileSystem) (path : FsPath) : FMap Name ReaddirChildState :=
  match fs.readDir path with
  | .error _ => ∅
  | .ok entries => entries.foldl (fun children (name, kind) =>
      children.insert name
        { real := some { kind := .ofKind kind, path := path ++ [name] }, fuse := none }) ∅

/-- Add one entry of `ReadDirAll` to the children. -/
def addFuseChild (children : FMap Name ReaddirChildState) (entry : FsPath × FuseEntry) :
    FMap Name ReaddirChildState :=
  match entry.1.fileName with
  | none => children
  | some name => children.insert name
      { real := (children.lookup name).bind (·.real)
        fuse := some { entryType := entry.2.entryType, path := entry.1 } }

def loadReaddirState (path : FsPath) : FuseM ReaddirState := do
  let children ← peekHost fun fs => realChildren fs path
  let fuseEntries ← Client.readDirAll env path
  pure { accessMode := pol.classify path, children := fuseEntries.foldl addFuseChild children }

/-- The object file of an entry, if the daemon says that it exists. -/
def loadObjectPath (fuseEntry : Option FuseEntry) : FuseM (Option ObjectPath) :=
  match fuseEntry.bind (·.objectId) with
  | some id => do
    let result ← attempt (Client.getObjectPath env id)
    pure result.toOption
  | none => pure none

def loadOpenState (path : FsPath) (needWrite truncateRequested : Bool) : FuseM OpenState := do
  let fuseEntry ← Client.getEntry env path
  let objectPath ← loadObjectPath env fuseEntry
  let realExists ← peekHost fun fs => fs.exists path
  pure { accessMode := pol.classify path, path, needWrite, truncateRequested, realExists
         fuseEntry, objectPath }

def loadCreateState (path : FsPath) : CreateState := { accessMode := pol.classify path, path }

def loadUnlinkState (path : FsPath) : UnlinkState := { accessMode := pol.classify path, path }

def loadRmdirState (path : FsPath) : RmdirState := { accessMode := pol.classify path, path }

def loadSetattrState (path : FsPath) (fhPresent hasOpenHandle : Bool)
    (mode uid gid : Option UInt32) (size : Option UInt64) : SetattrState :=
  { accessMode := pol.classify path, path, fhPresent, hasOpenHandle, mode, uid, gid, size }

def loadReadlinkState (path : FsPath) : FuseM ReadlinkState := do
  let fuseEntry ← Client.getEntry env path
  pure { accessMode := pol.classify path, path, fuseEntry }

def loadMkdirState (path : FsPath) : MkdirState := { accessMode := pol.classify path, path }

/-- The entry at the destination is asked for and dropped. -/
def loadRenameState (src dst : FsPath) : FuseM RenameState := do
  let srcEntry ← Client.getEntry env src
  let _ ← Client.getEntry env dst
  pure { accessMode := pol.classify src, src, dst, srcEntry }

/-! ## §2. Executor. -/

/-- The object that an open works on. -/
def objectForOpen (path : FsPath) (defaultMeta : FileMetadata)
    (existingObjectId : Option UInt64) (needsEnsure copyUpFromReal : Bool) :
    FuseM (UInt64 × ObjectPath) :=
  if needsEnsure then
    if copyUpFromReal then Client.ensureFileObjectFromReal env path defaultMeta
    else Client.ensureFileObject env path defaultMeta
  else
    match existingObjectId with
    | none => throw (.ofErrno .eio)
    | some oid => do
      let objectPath ← Client.getObjectPath env oid
      pure (oid, objectPath)

def executeOpen (decision : OpenDecision) (path : FsPath) (flags : OpenFlags)
    (defaultMeta : FileMetadata) : FuseM OpenFile :=
  match decision with
  | .notFound => throw (.ofErrno .enoent)
  | .error => throw (.ofErrno .eio)
  | .openReal => do
    let file ← openHost env flags.options path
    pure (.passthroughReal file)
  | .openObject existingObjectId needsEnsure copyUpFromReal deleteWhiteout => do
    let (oid, objectPath) ←
      objectForOpen env path defaultMeta existingObjectId needsEnsure copyUpFromReal
    onlyIf copyUpFromReal (ignore (copyToObject path objectPath))
    onlyIf deleteWhiteout (ignore (Client.deleteWhiteout env path))
    let file ← openObject flags.options objectPath
    pure (.passthroughObject file oid)

def executeCreate (decision : CreateDecision) (path : FsPath) (mode : UInt32)
    (flags : OpenFlags) (md : FileMetadata) : FuseM OpenFile := do
  let opts := { flags.options with create := true, mode }
  match decision with
  | .createReal => do
    let file ← openHost env opts path
    pure (.passthroughReal file)
  | .createObject => do
    let (oid, objectPath) ← Client.ensureFileObject env path md
    ignore (Client.deleteWhiteout env path)
    let file ← openObject opts objectPath
    pure (.passthroughObject file oid)

def executeUnlink (decision : UnlinkDecision) (path : FsPath) : FuseM Unit :=
  match decision with
  | .removeReal => changeHost fun fs => fs.removeFile path
  | .whiteout => do
    ignore (Client.deleteFile env path)
    Client.putWhiteout env path

def executeRmdir (decision : RmdirDecision) (path : FsPath) (descendants : List FsPath) :
    FuseM Unit :=
  match decision with
  | .removeReal => changeHost fun fs => fs.removeDir path
  | .whiteoutRecursive => do
    ignore (Client.deleteFile env path)
    Client.putWhiteout env path
    forEach descendants fun p => ignore (Client.putWhiteout env p)

def executeRename (decision : RenameDecision) (src dst : FsPath) : FuseM Unit :=
  match decision with
  | .renameReal => changeHost fun fs => fs.rename src dst
  | .renameFuseFileOrSymlink => do
    Client.renameFile env src dst
    ignore (Client.deleteWhiteout env dst)
  | .renameFuseTree => do
    Client.renameTree env src dst
    ignore (Client.deleteWhiteout env dst)

def executeSymlink (accessMode : AccessMode) (path : FsPath) (target : Bytes)
    (md : FileMetadata) : FuseM Unit :=
  match accessMode with
  | .passthrough => changeHost fun fs => fs.symlink env.cred target path
  | .fuseOnly | .copyOnWrite => do
    Client.putSymlink env path target md
    ignore (Client.deleteWhiteout env path)

def executeReadlink (decision : ReadlinkDecision) (path : FsPath) : FuseM Bytes :=
  match decision with
  | .useFuse => do
    let entry ← Client.getEntry env path
    pure ((entry.bind (·.symlinkTarget)).getD [])
  | .useReal => readHost fun fs => fs.readLink path
  | .notFound => throw (.ofErrno .enoent)

/-- `S_IFDIR`, `S_IFREG`, `S_IFLNK`, `S_IFMT`. -/
def S_IFDIR : UInt32 := 0o040000
def S_IFREG : UInt32 := 0o100000
def S_IFLNK : UInt32 := 0o120000
def S_IFMT : UInt32 := 0o170000

def fileMetaNow (size : UInt64) (mode uid gid : UInt32) : FileMetadata :=
  { size, mode, uid, gid, mtime := env.now, atime := env.now, ctime := env.now }

def executeMkdir (decision : MkdirDecision) (path : FsPath) (mode : UInt32) : FuseM Unit :=
  match decision with
  | .createReal => do
    changeHost fun fs => fs.createDir env.cred path
    changeHost fun fs => fs.setPermissions path (mode &&& 0o7777)
  | .createDaemon => do
    Client.putDir env path (fileMetaNow env 0 (S_IFDIR ||| (mode &&& 0o7777)) env.uid env.gid)
    ignore (Client.deleteWhiteout env path)

end Cas.Fuse
