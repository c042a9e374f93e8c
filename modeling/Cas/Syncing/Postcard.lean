/-
  Cas.Syncing.Postcard — the bytes of the two state files.

  Nothing in the daemon depends on how postcard writes a value, only on
  the laws of a `Codec`: `Formats` is what it writes the two files with.
  `Formats.postcard` is the format itself: integers base 128, sequences
  and strings counted, options tagged, an enum as its index, a struct as
  its fields in order, a path as its string.
-/
import Cas.Lib.Codec
import Cas.Syncing.Disk

namespace Cas.Syncing

open Cas.Lib

/-- The formats of the three values that the state files hold.  A map is written as its entries,
a table as its rows. -/
structure Formats where
  sandboxMeta : Codec SandboxMeta
  fuseMap : Codec (List (FsPath × FuseEntry))
  tree : Codec (List ClosureRow)

/-! ## §1. Maps as lists of entries. -/

/-- The entries of a map in an iteration order. -/
def entriesOf (order : IterOrder FsPath) (m : FuseMap) : List (FsPath × FuseEntry) :=
  (order.list m.keys).filterMap fun path => (m.lookup path).map fun entry => (path, entry)

/-- The map that a list of entries is read into. -/
def ofEntries (entries : List (FsPath × FuseEntry)) : FuseMap :=
  entries.foldl (fun m pe => m.insert pe.1 pe.2) ∅

/-- The entries of a map read back into the same map. -/
theorem ofEntries_entriesOf (order : IterOrder FsPath) (m : FuseMap) :
    ofEntries (entriesOf order m) = m := by
  have hkeys := order.enumerates m.keys
  have henum : Enumerates (entriesOf order m) fun pe => pe.1 ∈ m.keys ∧ m.lookup pe.1 = some pe.2 :=
    hkeys.filterMap_pair _
  have hnd : ((entriesOf order m).map Prod.fst).Nodup := by
    refine henum.1.map_on fun pe hpe qe hqe he => Prod.ext he ?_
    have h₁ := ((henum.2 pe).mp hpe).2
    have h₂ := ((henum.2 qe).mp hqe).2
    rw [he, h₂] at h₁
    exact (Option.some.inj h₁).symm
  apply Finmap.ext_lookup
  intro path
  unfold ofEntries
  rw [lookup_foldl_insert Prod.fst Prod.snd _ ∅ hnd, Finmap.lookup_empty, Option.or_none]
  cases hl : m.lookup path with
  | none =>
    rw [henum.find?_eq_none]
    · rfl
    · intro pe hpe hp
      have hsome := hpe.2
      rw [of_decide_eq_true hp, hl] at hsome
      cases hsome
  | some entry =>
    have hkey : path ∈ m.keys := by
      rw [Finmap.mem_keys, ← Finmap.lookup_isSome, hl]
      rfl
    rw [henum.find?_eq_some (a := (path, entry)) ⟨hkey, hl⟩ (decide_eq_true rfl)]
    · rfl
    · intro pe hpe hp
      have hpath : pe.1 = path := of_decide_eq_true hp
      have hsome := hpe.2
      rw [hpath, hl] at hsome
      exact Prod.ext hpath (Option.some.inj hsome).symm

/-! ## §2. What `load` reads from the bytes.  Bytes after the value are ignored. -/

def MetadataBin.ofBytes (fmt : Formats) (bytes : Bytes) : MetadataBin :=
  match fmt.sandboxMeta.decode bytes with
  | some (md, _) => .sandboxMeta md
  | none => .corrupt

def DataBin.ofBytes (fmt : Formats) (bytes : Bytes) : DataBin :=
  match (fmt.fuseMap.pair fmt.tree).decode bytes with
  | some ((entries, rows), _) => .syncState (ofEntries entries) rows
  | none =>
    match fmt.fuseMap.decode bytes with
    | some (entries, _) => .fuseMapOnly (ofEntries entries)
    | none => .corrupt

/-! ## §3. The postcard format. -/

namespace Postcard

open Codec

def u32 : Codec UInt32 :=
  varint.via UInt32.toNat (fun n => if n < 2 ^ 32 then some (UInt32.ofNat n) else none) fun a => by
    rw [if_pos a.toNat_lt, UInt32.ofNat_toNat]

def u64 : Codec UInt64 :=
  varint.via UInt64.toNat (fun n => if n < 2 ^ 64 then some (UInt64.ofNat n) else none) fun a => by
    rw [if_pos a.toNat_lt, UInt64.ofNat_toNat]

def str : Codec String :=
  byte.list.via (fun s => s.toUTF8.data.toList) (fun bytes => String.fromUTF8? ⟨bytes.toArray⟩)
    fun s => by
      have hbytes : (⟨s.toUTF8.data.toList.toArray⟩ : ByteArray) = s.toUTF8 := rfl
      rw [hbytes, String.fromUTF8?]
      exact dif_pos s.isValidUTF8

/-! ### Paths. -/

/-- The components between the separators of an absolute path. -/
def splitPath (p : FsPath) : List (List UInt8) :=
  [] :: if p = [] then [[]] else p.map Name.bytes

def pathBytes (p : FsPath) : Bytes := List.intercalate [47] (splitPath p)

def nameOfBytes (bytes : List UInt8) : Option Name :=
  if h : ValidName bytes then some ⟨bytes, h⟩ else none

def pathOfBytes (bytes : Bytes) : Option FsPath :=
  if bytes = [47] then some []
  else
    match bytes.splitOn 47 with
    | [] :: names => names.mapM nameOfBytes
    | _ => none

theorem mapM_nameOfBytes (p : FsPath) : (p.map Name.bytes).mapM nameOfBytes = some p := by
  induction p with
  | nil => rfl
  | cons n p ih =>
    have hn : nameOfBytes n.bytes = some n := dif_pos n.valid
    rw [List.map_cons, List.mapM_cons, hn, ih]
    rfl

theorem pathOfBytes_pathBytes (p : FsPath) : pathOfBytes (pathBytes p) = some p := by
  cases p with
  | nil => rfl
  | cons n p =>
    have hsplit : (pathBytes (n :: p)).splitOn 47 = [] :: (n :: p).map Name.bytes := by
      apply List.splitOn_intercalate
      · intro part hpart
        rcases List.mem_cons.mp hpart with rfl | hpart
        · exact List.not_mem_nil
        · obtain ⟨m, -, rfl⟩ := List.mem_map.mp hpart
          exact m.valid.2.1
      · exact List.cons_ne_nil _ _
    have hroot : pathBytes (n :: p) ≠ [47] := by
      intro he
      rw [he] at hsplit
      have hempty : n.bytes = [] := by
        have h2 : [[], []] = ([] : List UInt8) :: (n :: p).map Name.bytes := hsplit
        simp only [List.map_cons, List.cons.injEq, true_and] at h2
        exact h2.1.symm
      exact n.valid.1 hempty
    rw [pathOfBytes, if_neg hroot, hsplit]
    exact mapM_nameOfBytes (n :: p)

def path : Codec FsPath := byte.list.via pathBytes pathOfBytes pathOfBytes_pathBytes

/-! ### Entries, rows, metadata. -/

def fileMetadata : Codec FileMetadata :=
  (u64.pair <| u32.pair <| u32.pair <| u32.pair <| u64.pair <| u64.pair u64).via
    (fun md => (md.size, md.mode, md.uid, md.gid, md.mtime, md.atime, md.ctime))
    (fun r => some ⟨r.1, r.2.1, r.2.2.1, r.2.2.2.1, r.2.2.2.2.1, r.2.2.2.2.2.1, r.2.2.2.2.2.2⟩)
    fun _ => rfl

def entryType : Codec EntryType :=
  varint.via
    (fun | .file => 0 | .dir => 1 | .symlink => 2 | .whiteout => 3)
    (fun | 0 => some .file | 1 => some .dir | 2 => some .symlink | 3 => some .whiteout | _ => none)
    fun entryType => by cases entryType <;> rfl

def fuseEntry : Codec FuseEntry :=
  (entryType.pair <| fileMetadata.pair <| u64.option.pair byte.list.option).via
    (fun e => (e.entryType, e.metadata, e.objectId, e.symlinkTarget))
    (fun r => some ⟨r.1, r.2.1, r.2.2.1, r.2.2.2⟩) fun _ => rfl

def closureRow : Codec ClosureRow :=
  (path.pair <| path.pair varint).via (fun row => (row.ancestor, row.descendant, row.distance))
    (fun r => some ⟨r.1, r.2.1, r.2.2⟩) fun _ => rfl

def sandboxMeta : Codec SandboxMeta :=
  (str.pair <| u32.pair u64).via (fun md => (md.shmName, md.abiVersion, md.nextId))
    (fun r => some ⟨r.1, r.2.1, r.2.2⟩) fun _ => rfl

/-! ### Messages. -/

def requestVariants : List (Variant Request) :=
  [ ⟨path.pair fileMetadata, fun x => .ensureFileObject x.1 x.2, fun | .ensureFileObject a b => some (a, b) | _ => none,
    fun a b h => by (cases a <;> cases h); rfl⟩,
    ⟨path.pair fileMetadata, fun x => .ensureFileObjectFromReal x.1 x.2, fun | .ensureFileObjectFromReal a b => some (a, b) | _ => none,
    fun a b h => by (cases a <;> cases h); rfl⟩,
    ⟨u64, .getObjectPath, fun | .getObjectPath a => some a | _ => none,
    fun a b h => by (cases a <;> cases h); rfl⟩,
    ⟨path.pair (u64.pair fileMetadata), fun x => .upsertFileEntry x.1 x.2.1 x.2.2, fun | .upsertFileEntry a b c => some (a, b, c) | _ => none,
    fun a b h => by (cases a <;> cases h); rfl⟩,
    ⟨path.pair fileMetadata, fun x => .putFileMeta x.1 x.2, fun | .putFileMeta a b => some (a, b) | _ => none,
    fun a b h => by (cases a <;> cases h); rfl⟩,
    ⟨path, .getFileMeta, fun | .getFileMeta a => some a | _ => none,
    fun a b h => by (cases a <;> cases h); rfl⟩,
    ⟨path, .getEntry, fun | .getEntry a => some a | _ => none,
    fun a b h => by (cases a <;> cases h); rfl⟩,
    ⟨path, .deleteFile, fun | .deleteFile a => some a | _ => none,
    fun a b h => by (cases a <;> cases h); rfl⟩,
    ⟨path.pair path, fun x => .renameFile x.1 x.2, fun | .renameFile a b => some (a, b) | _ => none,
    fun a b h => by (cases a <;> cases h); rfl⟩,
    ⟨path.pair fileMetadata, fun x => .putDir x.1 x.2, fun | .putDir a b => some (a, b) | _ => none,
    fun a b h => by (cases a <;> cases h); rfl⟩,
    ⟨path.pair (byte.list.pair fileMetadata), fun x => .putSymlink x.1 x.2.1 x.2.2, fun | .putSymlink a b c => some (a, b, c) | _ => none,
    fun a b h => by (cases a <;> cases h); rfl⟩,
    ⟨path, .putWhiteout, fun | .putWhiteout a => some a | _ => none,
    fun a b h => by (cases a <;> cases h); rfl⟩,
    ⟨path, .deleteWhiteout, fun | .deleteWhiteout a => some a | _ => none,
    fun a b h => by (cases a <;> cases h); rfl⟩,
    ⟨path, .readDirAll, fun | .readDirAll a => some a | _ => none,
    fun a b h => by (cases a <;> cases h); rfl⟩,
    ⟨path, .listWhiteoutUnder, fun | .listWhiteoutUnder a => some a | _ => none,
    fun a b h => by (cases a <;> cases h); rfl⟩,
    ⟨path.pair path, fun x => .renameTree x.1 x.2, fun | .renameTree a b => some (a, b) | _ => none,
    fun a b h => by (cases a <;> cases h); rfl⟩,
    ⟨path.pair (str.pair u32), fun x => .logAccess x.1 x.2.1 x.2.2, fun | .logAccess a b c => some (a, b, c) | _ => none,
    fun a b h => by (cases a <;> cases h); rfl⟩,
    .bare .flush ]

/-- `objectPath` writes the path of an object file. -/
def responseVariants (objectPath : Codec ObjectPath) : List (Variant Response) :=
  [ ⟨u64.pair objectPath, fun x => .ensureFileObject x.1 x.2, fun | .ensureFileObject a b => some (a, b) | _ => none,
    fun a b h => by (cases a <;> cases h); rfl⟩,
    ⟨objectPath, .getObjectPath, fun | .getObjectPath a => some a | _ => none,
    fun a b h => by (cases a <;> cases h); rfl⟩,
    .bare .upsertFileEntry,
    .bare .putFileMeta,
    ⟨fileMetadata.option, .getFileMeta, fun | .getFileMeta a => some a | _ => none,
    fun a b h => by (cases a <;> cases h); rfl⟩,
    ⟨fuseEntry.option, .getEntry, fun | .getEntry a => some a | _ => none,
    fun a b h => by (cases a <;> cases h); rfl⟩,
    .bare .deleteFile,
    .bare .renameFile,
    .bare .putDir,
    .bare .putSymlink,
    .bare .putWhiteout,
    .bare .deleteWhiteout,
    ⟨(path.pair fuseEntry).list, .dirEntries, fun | .dirEntries a => some a | _ => none,
    fun a b h => by (cases a <;> cases h); rfl⟩,
    ⟨path.list, .whiteoutPaths, fun | .whiteoutPaths a => some a | _ => none,
    fun a b h => by (cases a <;> cases h); rfl⟩,
    .bare .renameTree,
    .bare .logAccess,
    .bare .flush,
    .bare .ok,
    .bare .notFound,
    ⟨str, .error, fun | .error a => some a | _ => none,
    fun a b h => by (cases a <;> cases h); rfl⟩ ]

def request : Codec Request := union requestVariants fun a => by cases a <;> rfl

def response (objectPath : Codec ObjectPath) : Codec Response :=
  union (responseVariants objectPath) fun a => by cases a <;> rfl

/-- The two names of an object path, for want of the directory that the store is in. -/
def objectNames : Codec ObjectPath :=
  (str.pair str).via (fun p => (String.ofList p.shard, String.ofList p.hex))
    (fun r => some ⟨r.1.toList, r.2.toList⟩) fun p => by simp

end Postcard

def Formats.postcard : Formats where
  sandboxMeta := Postcard.sandboxMeta
  fuseMap := (Postcard.path.pair Postcard.fuseEntry).list
  tree := Postcard.closureRow.list

end Cas.Syncing
