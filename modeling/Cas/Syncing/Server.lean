/-
  Cas.Syncing.Server — the syncing daemon's state and `dispatch`
  (`syncing/server.rs`).

  The daemon answers one request after another from a map of entries, a
  closure table of the same paths and the object store.  What a request
  finds outside the daemon (the host file it copies, how the file
  operations end, the iteration order of a hash map) is a `DispatchEnv`.
-/
import Cas.Syncing.Disk

namespace Cas.Syncing

open Cas.Lib

/-! ## §1. State. -/

/-- What one daemon process holds in memory. -/
structure ServerState where
  nextId : UInt64
  fuseMap : FuseMap
  pathTree : PathTree
  shmName : String
  abiVersion : UInt32
  deriving DecidableEq

/-- A daemon together with `.sandbox/data`. -/
structure Server where
  state : ServerState
  storage : Storage
  deriving DecidableEq

/-- What one request finds outside the daemon. -/
structure DispatchEnv where
  /-- What `fs::copy` reads at a host path. -/
  real : FsPath → Except String Bytes
  storeIo : StoreIo
  flushIo : FlushIo
  order : IterOrder FsPath

/-- No host file to copy, and no file operation fails. -/
def DispatchEnv.quiet : DispatchEnv :=
  { real := fun _ => .error "No such file or directory (os error 2)"
    storeIo := .ok, flushIo := .ok, order := .sorted }

namespace ServerState

def upsertTree (s : ServerState) (path : FsPath) : ServerState :=
  { s with pathTree := s.pathTree.insert path }

def deleteTree (s : ServerState) (path : FsPath) : ServerState :=
  { s with pathTree := (s.pathTree.remove path).2 }

/-- `to` joined with what is left of `path` below `from`. -/
def movedPath (src dst path : FsPath) : FsPath :=
  if src <+: path then rebase src dst path else dst

def renameTree (s : ServerState) (src dst : FsPath) : ServerState :=
  let subtree := s.pathTree.subtreePaths src
  let tree := (s.pathTree.remove src).2
  { s with pathTree := subtree.foldl (fun tree old => tree.insert (movedPath src dst old)) tree }

/-- `fuse_map.insert` and `upsert_tree`: how every arm publishes an entry. -/
def publish (s : ServerState) (path : FsPath) (entry : FuseEntry) : ServerState :=
  { s with fuseMap := s.fuseMap.insert path entry }.upsertTree path

/-- The loop body of `RenameTree`: move one entry, if there is one. -/
def moveEntry (src dst : FsPath) (fuseMap : FuseMap) (oldPath : FsPath) : FuseMap :=
  match fuseMap.lookup oldPath with
  | none => fuseMap
  | some entry => (fuseMap.erase oldPath).insert (movedPath src dst oldPath) entry

def snapshot (s : ServerState) : SandboxMeta :=
  { shmName := s.shmName, abiVersion := s.abiVersion, nextId := s.nextId }

end ServerState

/-! ## §2. Requests. -/

namespace Server

def objects (s : Server) : ObjectStore := ⟨s.state.nextId, s.storage.objects⟩

def withObjects (s : Server) (store : ObjectStore) : Server where
  state := { s.state with nextId := store.nextId }
  storage := { s.storage with objects := store.files }

def withState (s : Server) (state : ServerState) : Server := { s with state }

/-- The arms of `EnsureFileObject` and `EnsureFileObjectFromReal`: reuse the object of the entry,
or allocate one. -/
def ensureObject (s : Server) (path : FsPath) (md : FileMetadata)
    (alloc : ObjectStore → Except String UInt64 × ObjectStore) : Response × Server :=
  match (s.state.fuseMap.lookup path).bind FuseEntry.reusableObject with
  | some id =>
    (.ensureFileObject id (objectPath id), s.withState (s.state.publish path (.ofObject md id)))
  | none =>
    match alloc s.objects with
    | (.ok id, store) =>
      let s := s.withObjects store
      (.ensureFileObject id (objectPath id), s.withState (s.state.publish path (.ofObject md id)))
    | (.error err, store) => (.error err, s.withObjects store)

def getObjectPath (s : Server) (id : UInt64) : Response × Server :=
  if s.objects.exists id then (.getObjectPath (s.objects.pathFor id), s) else (.notFound, s)

/-- The arms that publish an entry unconditionally. -/
def putEntry (s : Server) (reply : Response) (path : FsPath) (entry : FuseEntry) :
    Response × Server :=
  (reply, s.withState (s.state.publish path entry))

def putFileMeta (s : Server) (path : FsPath) (md : FileMetadata) : Response × Server :=
  match s.state.fuseMap.lookup path with
  | some entry => (.putFileMeta, s.withState
      { s.state with fuseMap := s.state.fuseMap.insert path { entry with metadata := md } })
  | none => (.error "File not found", s)

/-- One key of the map, the whole subtree of the table. -/
def deleteFile (s : Server) (path : FsPath) : Response × Server :=
  (.deleteFile, s.withState ({ s.state with fuseMap := s.state.fuseMap.erase path }.deleteTree path))

/-- One key of the map, the whole subtree of the table. -/
def renameFile (s : Server) (src dst : FsPath) : Response × Server :=
  match s.state.fuseMap.lookup src with
  | some entry => (.renameFile, s.withState
      ({ s.state with fuseMap := (s.state.fuseMap.erase src).insert dst entry }.renameTree src dst))
  | none => (.error "Source path not found", s)

/-- The table keeps the node. -/
def deleteWhiteout (s : Server) (path : FsPath) : Response × Server :=
  match s.state.fuseMap.lookup path with
  | some existing =>
    if existing.entryType = .whiteout then
      (.deleteWhiteout, s.withState { s.state with fuseMap := s.state.fuseMap.erase path })
    else (.deleteWhiteout, s)
  | none => (.deleteWhiteout, s)

def readDirAll (s : Server) (path : FsPath) : List (FsPath × FuseEntry) :=
  (s.state.pathTree.childrenOf path).filterMap fun child =>
    (s.state.fuseMap.lookup child).map fun entry => (child, entry)

def listWhiteoutUnder (s : Server) (path : FsPath) : List FsPath :=
  (s.state.pathTree.descendantsOf path).filter fun descendant =>
    (s.state.fuseMap.lookup descendant).any fun entry => entry.isWhiteout

/-- Every entry of the subtree moves, then the subtree of the table does. -/
def renameTree (s : Server) (src dst : FsPath) : Response × Server :=
  let entries := s.state.pathTree.subtreePaths src
  let fuseMap := entries.foldl (ServerState.moveEntry src dst) s.state.fuseMap
  (.renameTree, s.withState ({ s.state with fuseMap }.renameTree src dst))

/-- Write the whole state out. -/
def flushState (s : Server) (io : FlushIo) (order : IterOrder FsPath) :
    Except DiskError Unit × Server :=
  let (result, storage) := flush s.storage io order s.state.snapshot s.state.fuseMap s.state.pathTree
  (result, { s with storage })

def flushRequest (s : Server) (io : FlushIo) (order : IterOrder FsPath) : Response × Server :=
  match s.flushState io order with
  | (.ok (), s) => (.flush, s)
  | (.error err, s) => (.error err.toString, s)

end Server

/-- Answer one request. -/
def dispatch (env : DispatchEnv) (s : Server) : Request → Response × Server
  | .ensureFileObject path md => s.ensureObject path md fun store => store.allocEmpty env.storeIo
  | .ensureFileObjectFromReal path md =>
    s.ensureObject path md fun store => store.putCopyFrom env.storeIo (env.real path)
  | .getObjectPath id => s.getObjectPath id
  | .upsertFileEntry path objectId md => s.putEntry .upsertFileEntry path (.ofObject md objectId)
  | .putFileMeta path md => s.putFileMeta path md
  | .getFileMeta path => (.getFileMeta ((s.state.fuseMap.lookup path).map (·.metadata)), s)
  | .getEntry path => (.getEntry (s.state.fuseMap.lookup path), s)
  | .deleteFile path => s.deleteFile path
  | .renameFile src dst => s.renameFile src dst
  | .putDir path md => s.putEntry .putDir path (.ofDir md)
  | .putSymlink path target md => s.putEntry .putSymlink path (.ofSymlink target md)
  | .putWhiteout path => s.putEntry .putWhiteout path .whiteout
  | .deleteWhiteout path => s.deleteWhiteout path
  | .readDirAll path => (.dirEntries (s.readDirAll path), s)
  | .listWhiteoutUnder path => (.whiteoutPaths (s.listWhiteoutUnder path), s)
  | .renameTree src dst => s.renameTree src dst
  | .logAccess _ _ _ => (.error "LogAccess is not implemented", s)
  | .flush => s.flushRequest env.flushIo env.order

/-! ## §3. Start and stop. -/

def buildServerState (storage : Storage) (order : IterOrder FsPath) :
    Except String ServerState :=
  match load storage order with
  | .error err => .error err.toString
  | .ok (md, fuseMap, tree) =>
    .ok { nextId := md.nextId, fuseMap, pathTree := tree, shmName := md.shmName
          abiVersion := md.abiVersion }

/-- A flush error is logged and nothing else. -/
def flushAndRemoveSocket (s : Server) (io : FlushIo) (order : IterOrder FsPath) : Server :=
  (s.flushState io order).2

/-- The daemon that a first start on an empty sandbox gives. -/
def Server.init (shmName : String) : Server where
  state := { nextId := 1, fuseMap := ∅, pathTree := PathTree.new, shmName
             abiVersion := SUPPORTED_ABI_VERSION }
  storage := ⟨none, none, ∅⟩

/-! ## §4. What a request leaves alone. -/

/-- The identity of the sandbox and the two state files are as before. -/
structure Server.Frames (s s' : Server) : Prop where
  shmName : s'.state.shmName = s.state.shmName
  abiVersion : s'.state.abiVersion = s.state.abiVersion
  metadataBin : s'.storage.metadataBin = s.storage.metadataBin
  dataBin : s'.storage.dataBin = s.storage.dataBin

theorem Server.Frames.rfl {s : Server} : s.Frames s := ⟨Eq.refl _, Eq.refl _, Eq.refl _, Eq.refl _⟩

theorem frames_ensureObject (s : Server) (path : FsPath) (md : FileMetadata)
    (alloc : ObjectStore → Except String UInt64 × ObjectStore) :
    s.Frames (s.ensureObject path md alloc).2 := by
  unfold Server.ensureObject
  cases (s.state.fuseMap.lookup path).bind FuseEntry.reusableObject with
  | some id => exact ⟨rfl, rfl, rfl, rfl⟩
  | none =>
    rcases alloc s.objects with ⟨r, store⟩
    cases r <;> exact ⟨rfl, rfl, rfl, rfl⟩

theorem frames_deleteWhiteout (s : Server) (path : FsPath) :
    s.Frames (s.deleteWhiteout path).2 := by
  unfold Server.deleteWhiteout
  cases s.state.fuseMap.lookup path with
  | none => exact Server.Frames.rfl
  | some existing =>
    by_cases hw : existing.entryType = .whiteout
    · simp only [if_pos hw]
      exact ⟨rfl, rfl, rfl, rfl⟩
    · simp only [if_neg hw]
      exact Server.Frames.rfl

/-- Only `Flush` writes the state files. -/
theorem frames_dispatch (env : DispatchEnv) (s : Server) {req : Request} (hreq : req ≠ .flush) :
    s.Frames (dispatch env s req).2 := by
  cases req with
  | ensureFileObject path md => exact frames_ensureObject s path md _
  | ensureFileObjectFromReal path md => exact frames_ensureObject s path md _
  | getObjectPath id =>
    show s.Frames (s.getObjectPath id).2
    unfold Server.getObjectPath
    split <;> exact Server.Frames.rfl
  | putFileMeta path md =>
    show s.Frames (s.putFileMeta path md).2
    unfold Server.putFileMeta
    cases s.state.fuseMap.lookup path <;> exact ⟨rfl, rfl, rfl, rfl⟩
  | renameFile src dst =>
    show s.Frames (s.renameFile src dst).2
    unfold Server.renameFile
    cases s.state.fuseMap.lookup src <;> exact ⟨rfl, rfl, rfl, rfl⟩
  | deleteWhiteout path => exact frames_deleteWhiteout s path
  | flush => exact absurd rfl hreq
  | _ => exact ⟨rfl, rfl, rfl, rfl⟩

theorem flushRequest_state (s : Server) (io : FlushIo) (order : IterOrder FsPath) :
    (s.flushRequest io order).2.state = s.state := by
  cases io <;> rfl

end Cas.Syncing
