/-
  Cas.Syncing.Disk — what the syncing daemon keeps on disk
  (`syncing/disk.rs`).

  `metadata.bin` and `data.bin` are modelled by what postcard decodes
  from them; `corrupt` stands for bytes it does not decode.  The closure
  table is written as its rows, in the iteration order of a hash map, so
  a reload gives a table of the same set but not the same table.
-/
import Cas.Syncing.Closure
import Cas.Syncing.Object

namespace Cas.Syncing

open Cas.Lib

/-! ## §1. Files. -/

def SUPPORTED_ABI_VERSION : UInt32 := 3

structure SandboxMeta where
  shmName : String
  abiVersion : UInt32
  nextId : UInt64
  deriving DecidableEq

/-- The map from paths to entries. -/
abbrev FuseMap := FMap FsPath FuseEntry

/-- The content of `metadata.bin`. -/
inductive MetadataBin
  | sandboxMeta (md : SandboxMeta)
  | corrupt
  deriving DecidableEq

/-- The content of `data.bin`: the present format, or the older one without the table. -/
inductive DataBin
  | syncState (fuseMap : FuseMap) (rows : List ClosureRow)
  | fuseMapOnly (fuseMap : FuseMap)
  | corrupt
  deriving DecidableEq

/-- `.sandbox/data`; a file that does not exist is `none`. -/
structure Storage where
  metadataBin : Option MetadataBin
  dataBin : Option DataBin
  objects : FMap ObjectPath Bytes
  deriving DecidableEq

inductive DiskError
  | io (err : String)
  | serialize
  | abiMismatch (found expected : UInt32)
  deriving DecidableEq

def DiskError.toString : DiskError → String
  | .io err => "IO error: " ++ err
  | .serialize => "Serialization error: postcard"
  | .abiMismatch found expected =>
    "ABI version mismatch: found " ++ (ToString.toString found) ++ ", expected "
      ++ (ToString.toString expected) ++ ". Run `cas clean && cas init` to reinitialize."

/-! ## §2. Load. -/

def loadMeta (storage : Storage) : Except DiskError SandboxMeta :=
  match storage.metadataBin with
  | some (.sandboxMeta md) =>
    if md.abiVersion ≠ SUPPORTED_ABI_VERSION then
      .error (.abiMismatch md.abiVersion SUPPORTED_ABI_VERSION)
    else .ok md
  | some .corrupt => .error .serialize
  | none => .ok { shmName := "", abiVersion := SUPPORTED_ABI_VERSION, nextId := 1 }

/-- The older format has no table: it is rebuilt from the keys of the map. -/
def loadMap (storage : Storage) (order : IterOrder FsPath) :
    Except DiskError (FuseMap × PathTree) :=
  match storage.dataBin with
  | some (.syncState fuseMap rows) => .ok (fuseMap, PathTree.fromRows rows)
  | some (.fuseMapOnly fuseMap) => .ok (fuseMap, PathTree.fromPaths (order.list fuseMap.keys))
  | some .corrupt => .error .serialize
  | none => .ok (∅, PathTree.new)

def load (storage : Storage) (order : IterOrder FsPath) :
    Except DiskError (SandboxMeta × FuseMap × PathTree) := do
  let md ← loadMeta storage
  let (fuseMap, tree) ← loadMap storage order
  return (md, fuseMap, tree)

/-! ## §3. Flush. -/

/-- How the two file writes of a flush end.  A failed write leaves `left` behind. -/
inductive FlushIo
  | ok
  | metadataFails (left : Option MetadataBin) (err : String)
  | dataFails (left : Option DataBin) (err : String)
  deriving DecidableEq

/-- `metadata.bin` is complete before `data.bin` is touched. -/
def flush (storage : Storage) (io : FlushIo) (order : IterOrder FsPath) (md : SandboxMeta)
    (fuseMap : FuseMap) (tree : PathTree) : Except DiskError Unit × Storage :=
  match io with
  | .metadataFails left err => (.error (.io err), { storage with metadataBin := left })
  | .dataFails left err =>
    (.error (.io err), { storage with metadataBin := some (.sandboxMeta md), dataBin := left })
  | .ok =>
    (.ok (), { storage with
      metadataBin := some (.sandboxMeta md)
      dataBin := some (.syncState fuseMap (tree.rows order)) })

def initSandbox (shmName : String) (order : IterOrder FsPath) : Storage :=
  (flush ⟨none, none, ∅⟩ .ok order
    { shmName, abiVersion := SUPPORTED_ABI_VERSION, nextId := 1 } ∅ PathTree.new).2

/-- What a complete flush wrote, the next load reads: metadata and map as they were, the table
rebuilt from its rows. -/
theorem load_flush (storage : Storage) (order order' : IterOrder FsPath) (md : SandboxMeta)
    (fuseMap : FuseMap) (tree : PathTree) (habi : md.abiVersion = SUPPORTED_ABI_VERSION) :
    load (flush storage .ok order md fuseMap tree).2 order'
      = .ok (md, fuseMap, PathTree.fromRows (tree.rows order)) := by
  show (loadMeta _ >>= _) = _
  have hmeta : loadMeta (flush storage .ok order md fuseMap tree).2 = .ok md := by
    show (if md.abiVersion ≠ SUPPORTED_ABI_VERSION then _ else Except.ok md) = _
    rw [if_neg (not_not_intro habi)]
  rw [hmeta]
  rfl

/-- Loading never touches the object files, and neither does a flush. -/
theorem flush_objects (storage : Storage) (io : FlushIo) (order : IterOrder FsPath)
    (md : SandboxMeta) (fuseMap : FuseMap) (tree : PathTree) :
    (flush storage io order md fuseMap tree).2.objects = storage.objects := by
  cases io <;> rfl

end Cas.Syncing
