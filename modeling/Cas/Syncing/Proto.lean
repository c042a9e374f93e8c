/-
  Cas.Syncing.Proto — the metadata protocol between FUSE daemons and the
  syncing daemon (`syncing/proto.rs`).

  File content never crosses the socket: the protocol maps paths to
  entries and object ids to object files.
-/
import Cas.Paths

namespace Cas.Syncing

/-! ## §1. Entries. -/

structure FileMetadata where
  size : UInt64
  mode : UInt32
  uid : UInt32
  gid : UInt32
  mtime : UInt64
  atime : UInt64
  ctime : UInt64
  deriving DecidableEq

def FileMetadata.zero : FileMetadata :=
  { size := 0, mode := 0, uid := 0, gid := 0, mtime := 0, atime := 0, ctime := 0 }

inductive EntryType
  | file
  | dir
  | symlink
  | whiteout
  deriving DecidableEq

structure FuseEntry where
  entryType : EntryType
  metadata : FileMetadata
  objectId : Option UInt64
  symlinkTarget : Option (List UInt8)
  deriving DecidableEq

/-- Where an object file lives: `objects/<shard>/<hex>`. -/
structure ObjectPath where
  shard : List Char
  hex : List Char
  deriving DecidableEq

/-! ## §2. Messages. -/

inductive Request
  | ensureFileObject (path : FsPath) (md : FileMetadata)
  | ensureFileObjectFromReal (path : FsPath) (md : FileMetadata)
  | getObjectPath (id : UInt64)
  | upsertFileEntry (path : FsPath) (objectId : UInt64) (md : FileMetadata)
  | putFileMeta (path : FsPath) (md : FileMetadata)
  | getFileMeta (path : FsPath)
  | getEntry (path : FsPath)
  | deleteFile (path : FsPath)
  | renameFile (src dst : FsPath)
  | putDir (path : FsPath) (md : FileMetadata)
  | putSymlink (path : FsPath) (target : List UInt8) (md : FileMetadata)
  | putWhiteout (path : FsPath)
  | deleteWhiteout (path : FsPath)
  | readDirAll (path : FsPath)
  | listWhiteoutUnder (path : FsPath)
  | renameTree (src dst : FsPath)
  | logAccess (path : FsPath) (operation : String) (pid : UInt32)
  | flush
  deriving DecidableEq

inductive Response
  | ensureFileObject (id : UInt64) (path : ObjectPath)
  | getObjectPath (path : ObjectPath)
  | upsertFileEntry
  | putFileMeta
  | getFileMeta (md : Option FileMetadata)
  | getEntry (entry : Option FuseEntry)
  | deleteFile
  | renameFile
  | putDir
  | putSymlink
  | putWhiteout
  | deleteWhiteout
  | dirEntries (entries : List (FsPath × FuseEntry))
  | whiteoutPaths (paths : List FsPath)
  | renameTree
  | logAccess
  | flush
  | ok
  | notFound
  | error (msg : String)
  deriving DecidableEq

namespace FuseEntry

def isWhiteout (e : FuseEntry) : Bool := e.entryType == .whiteout

/-- The entry that `EnsureFileObject` and `EnsureFileObjectFromReal` publish. -/
def ofObject (md : FileMetadata) (id : UInt64) : FuseEntry :=
  { entryType := .file, metadata := md, objectId := some id, symlinkTarget := none }

/-- The entry that `PutDir` publishes. -/
def ofDir (md : FileMetadata) : FuseEntry :=
  { entryType := .dir, metadata := md, objectId := none, symlinkTarget := none }

/-- The entry that `PutSymlink` publishes. -/
def ofSymlink (target : List UInt8) (md : FileMetadata) : FuseEntry :=
  { entryType := .symlink, metadata := md, objectId := none, symlinkTarget := some target }

/-- The entry that `PutWhiteout` publishes: all-zero metadata. -/
def whiteout : FuseEntry :=
  { entryType := .whiteout, metadata := .zero, objectId := none, symlinkTarget := none }

/-- The object of an entry that `EnsureFileObject` reuses: a `File` with an object id and no
symlink target. -/
def reusableObject (e : FuseEntry) : Option UInt64 :=
  if e.entryType = .file ∧ e.symlinkTarget = none then e.objectId else none

@[simp] theorem reusableObject_ofObject (md : FileMetadata) (id : UInt64) :
    (ofObject md id).reusableObject = some id := rfl

end FuseEntry

end Cas.Syncing
