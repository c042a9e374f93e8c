/-
  Cas.Syncing.Crash — a crash in the middle of a flush.

  `flush` truncates `metadata.bin`, writes it, syncs it, then does the
  same with `data.bin`.  A crash leaves the effects of some prefix of
  these steps, byte by byte.  A file cut short inside a value does not
  decode, and `load` then fails; a `data.bin` cut after the map still
  loads through the older format.  `SafePoint` is the exact set of crash
  points from which the next load is good.
-/
import Cas.Syncing.Postcard
import Cas.Syncing.Server

namespace Cas.Syncing

open Cas.Lib

/-! ## §1. The effects of a flush. -/

inductive StateFile
  | metadataBin
  | dataBin
  deriving DecidableEq

inductive FlushEffect
  | create (file : StateFile)
  | write (file : StateFile) (byte : UInt8)
  | sync (file : StateFile)

/-- The bytes of the two state files; a file that does not exist is `none`. -/
abbrev RawFiles := StateFile → Option Bytes

/-- `create` truncates; every `write` appends one byte. -/
def FlushEffect.apply (raw : RawFiles) : FlushEffect → RawFiles
  | .create file => Function.update raw file (some [])
  | .write file byte => Function.update raw file ((raw file).map fun bytes => bytes ++ [byte])
  | .sync _ => raw

/-- What one flush writes: a state of the supported version, and the orders in which its hash maps
are iterated meanwhile. -/
structure Snapshot where
  md : SandboxMeta
  fuseMap : FuseMap
  tree : PathTree
  entryOrder : IterOrder FsPath
  rowOrder : IterOrder FsPath
  /-- `load` accepts nothing else, so no daemon has anything else to write. -/
  abi : md.abiVersion = SUPPORTED_ABI_VERSION

namespace Snapshot

variable (fmt : Formats) (s : Snapshot)

def entries : List (FsPath × FuseEntry) := entriesOf s.entryOrder s.fuseMap

def metaData : Bytes := fmt.sandboxMeta.encode s.md

/-- The map comes first, the rows of the table after it. -/
def mapData : Bytes := fmt.fuseMap.encode s.entries ++ fmt.tree.encode (s.tree.rows s.rowOrder)

end Snapshot

/-- `File::create`, `write_all`, `sync_all`. -/
def writeFile (file : StateFile) (bytes : Bytes) : List FlushEffect :=
  .create file :: (bytes.map (.write file) ++ [.sync file])

def flushEffects (fmt : Formats) (s : Snapshot) : List FlushEffect :=
  writeFile .metadataBin (s.metaData fmt) ++ writeFile .dataBin (s.mapData fmt)

/-- The disk after a complete flush. -/
def completed (fmt : Formats) (s : Snapshot) : RawFiles
  | .metadataBin => some (s.metaData fmt)
  | .dataBin => some (s.mapData fmt)

/-- The disk when a crash stops the flush of `new` after `k` of its effects. -/
def crashed (fmt : Formats) (old new : Snapshot) (k : Nat) : RawFiles :=
  ((flushEffects fmt new).take k).foldl FlushEffect.apply (completed fmt old)

/-- What the next daemon finds. -/
def RawFiles.storage (fmt : Formats) (raw : RawFiles) (objects : FMap ObjectPath Bytes) :
    Storage where
  metadataBin := (raw .metadataBin).map (MetadataBin.ofBytes fmt)
  dataBin := (raw .dataBin).map (DataBin.ofBytes fmt)
  objects := objects

/-! ## §2. What a prefix of the effects leaves. -/

theorem foldl_write (file : StateFile) (bytes : Bytes) : ∀ (raw : RawFiles) (done : Bytes),
    raw file = some done →
      (bytes.map (FlushEffect.write file)).foldl FlushEffect.apply raw
        = Function.update raw file (some (done ++ bytes)) := by
  induction bytes with
  | nil =>
    intro raw done h
    rw [List.append_nil, ← h, Function.update_eq_self]
    rfl
  | cons b bytes ih =>
    intro raw done h
    have hstep : FlushEffect.apply raw (.write file b)
        = Function.update raw file (some (done ++ [b])) := by
      show Function.update raw file ((raw file).map _) = _
      rw [h]
      rfl
    rw [List.map_cons, List.foldl_cons, hstep, ih _ (done ++ [b]) (Function.update_self ..),
      Function.update_idem, List.append_assoc]
    rfl

/-- A prefix of writing one file: nothing yet, or the file holds a prefix of the bytes. -/
theorem foldl_writeFile (file : StateFile) (bytes : Bytes) (raw : RawFiles) (k : Nat) :
    ((writeFile file bytes).take k).foldl FlushEffect.apply raw
      = if k = 0 then raw else Function.update raw file (some (bytes.take (k - 1))) := by
  cases k with
  | zero => rfl
  | succ k =>
    have hsync : ∀ (n : Nat) (r : RawFiles),
        (([FlushEffect.sync file]).take n).foldl FlushEffect.apply r = r := by
      intro n r
      cases n with
      | zero => rfl
      | succ n => rw [List.take_succ_cons, List.take_nil]; rfl
    rw [if_neg (Nat.succ_ne_zero k), writeFile, List.take_succ_cons, List.foldl_cons,
      List.take_append, List.foldl_append, hsync, ← List.map_take]
    show List.foldl _ (Function.update raw file (some [])) _ = _
    rw [foldl_write file (bytes.take k) _ [] (Function.update_self ..), Function.update_idem]
    rfl

theorem length_writeFile (file : StateFile) (bytes : Bytes) :
    (writeFile file bytes).length = bytes.length + 2 := by
  simp [writeFile]

theorem crashed_eq (fmt : Formats) (old new : Snapshot) (k : Nat) :
    crashed fmt old new k =
      if k = 0 then completed fmt old
      else if k ≤ (new.metaData fmt).length + 2 then
        Function.update (completed fmt old) .metadataBin (some ((new.metaData fmt).take (k - 1)))
      else
        Function.update (completed fmt new) .dataBin
          (some ((new.mapData fmt).take (k - ((new.metaData fmt).length + 3)))) := by
  unfold crashed flushEffects
  rw [List.take_append, List.foldl_append, length_writeFile, foldl_writeFile, foldl_writeFile]
  by_cases h0 : k = 0
  · rw [if_pos h0, if_pos h0, if_pos (by omega)]
  · rw [if_neg h0, if_neg h0]
    by_cases hm : k ≤ (new.metaData fmt).length + 2
    · rw [if_pos hm, if_pos (by omega)]
    · have hall : (new.metaData fmt).take (k - 1) = new.metaData fmt :=
        List.take_of_length_le (by omega)
      have hidx : k - ((new.metaData fmt).length + 2) - 1
          = k - ((new.metaData fmt).length + 3) := by omega
      rw [if_neg hm, if_neg (by omega), hall, hidx]
      funext file
      cases file <;> rfl

/-- Without a crash the new state is on disk. -/
theorem flushEffects_complete (fmt : Formats) (old new : Snapshot) :
    (flushEffects fmt new).foldl FlushEffect.apply (completed fmt old) = completed fmt new := by
  have hall := crashed_eq fmt old new (flushEffects fmt new).length
  rw [crashed, List.take_length] at hall
  have hlen : (flushEffects fmt new).length
      = (new.metaData fmt).length + 2 + ((new.mapData fmt).length + 2) := by
    rw [flushEffects, List.length_append, length_writeFile, length_writeFile]
  rw [hall, hlen, if_neg (by omega), if_neg (by omega), List.take_of_length_le (by omega)]
  funext file
  cases file <;> rfl

/-! ## §3. What `load` makes of it. -/

section Load

variable (fmt : Formats) (s : Snapshot)

theorem ofBytes_metaData : MetadataBin.ofBytes fmt (s.metaData fmt) = .sandboxMeta s.md := by
  unfold MetadataBin.ofBytes Snapshot.metaData
  rw [fmt.sandboxMeta.decode_encode]

theorem ofBytes_metaData_cut {k : Nat} (h : k < (s.metaData fmt).length) :
    MetadataBin.ofBytes fmt ((s.metaData fmt).take k) = .corrupt := by
  unfold MetadataBin.ofBytes Snapshot.metaData
  rw [fmt.sandboxMeta.decode_take h]

theorem ofBytes_mapData :
    DataBin.ofBytes fmt (s.mapData fmt) = .syncState s.fuseMap (s.tree.rows s.rowOrder) := by
  have hd := (fmt.fuseMap.pair fmt.tree).decode_encode (s.entries, s.tree.rows s.rowOrder)
  have hbytes : s.mapData fmt
      = (fmt.fuseMap.pair fmt.tree).encode (s.entries, s.tree.rows s.rowOrder) := rfl
  unfold DataBin.ofBytes
  rw [hbytes, hd]
  show DataBin.syncState (ofEntries (entriesOf s.entryOrder s.fuseMap)) _ = _
  rw [ofEntries_entriesOf]

/-- Cut inside the map: neither format reads it. -/
theorem ofBytes_mapData_cut {k : Nat} (h : k < (fmt.fuseMap.encode s.entries).length) :
    DataBin.ofBytes fmt ((s.mapData fmt).take k) = .corrupt := by
  have htake : (s.mapData fmt).take k = (fmt.fuseMap.encode s.entries).take k :=
    List.take_append_of_le_length (Nat.le_of_lt h)
  have hmap : fmt.fuseMap.decode ((s.mapData fmt).take k) = none := by
    rw [htake, fmt.fuseMap.decode_take h]
  have hpair : (fmt.fuseMap.pair fmt.tree).decode ((s.mapData fmt).take k) = none := by
    show (fmt.fuseMap.decode _).bind _ = none
    rw [hmap]
    rfl
  unfold DataBin.ofBytes
  rw [hpair, hmap]

/-- Cut after the map, but not complete: only the older format reads it. -/
theorem ofBytes_mapData_short {k : Nat} (h : (fmt.fuseMap.encode s.entries).length ≤ k)
    (hk : k < (s.mapData fmt).length) :
    DataBin.ofBytes fmt ((s.mapData fmt).take k) = .fuseMapOnly s.fuseMap := by
  have hbytes : s.mapData fmt
      = (fmt.fuseMap.pair fmt.tree).encode (s.entries, s.tree.rows s.rowOrder) := rfl
  have hpair : (fmt.fuseMap.pair fmt.tree).decode ((s.mapData fmt).take k) = none := by
    rw [hbytes] at hk ⊢
    exact (fmt.fuseMap.pair fmt.tree).decode_take hk
  have htake : (s.mapData fmt).take k = fmt.fuseMap.encode s.entries
      ++ (fmt.tree.encode (s.tree.rows s.rowOrder)).take
        (k - (fmt.fuseMap.encode s.entries).length) := by
    rw [Snapshot.mapData, List.take_append, List.take_of_length_le h]
  unfold DataBin.ofBytes
  rw [hpair, htake, fmt.fuseMap.decode_front]
  show DataBin.fuseMapOnly (ofEntries (entriesOf s.entryOrder s.fuseMap)) = _
  rw [ofEntries_entriesOf]

/-- Cut after the map: the map is read, in the present format or in the older one. -/
theorem ofBytes_mapData_kept {k : Nat} (h : (fmt.fuseMap.encode s.entries).length ≤ k) :
    (∃ rows, DataBin.ofBytes fmt ((s.mapData fmt).take k) = .syncState s.fuseMap rows) ∨
      DataBin.ofBytes fmt ((s.mapData fmt).take k) = .fuseMapOnly s.fuseMap := by
  by_cases hk : k < (s.mapData fmt).length
  · exact Or.inr (ofBytes_mapData_short fmt s h hk)
  · rw [List.take_of_length_le (Nat.le_of_not_lt hk), ofBytes_mapData]
    exact Or.inl ⟨_, rfl⟩

end Load

/-! ## §4. Good crash points. -/

/-- Every object id in the map is below `nextId`. -/
def IdsBelow (m : FuseMap) (nextId : UInt64) : Prop :=
  ∀ p e id, m.lookup p = some e → e.objectId = some id → id < nextId

/-- The next load succeeds, its map is the old one or the new one, and its `next_id` is above every
id in that map. -/
def LoadsGood (old new : Snapshot) (storage : Storage) (order : IterOrder FsPath) : Prop :=
  ∃ md m tree, load storage order = .ok (md, m, tree) ∧
    (m = old.fuseMap ∨ m = new.fuseMap) ∧ IdsBelow m md.nextId

/-- The crash points from which the next load is good: before the first effect, between the last
byte of `metadata.bin` and the truncation of `data.bin`, and from the last byte of the map on;
each time the ids of the map on disk have to be below the `next_id` on disk. -/
def SafePoint (fmt : Formats) (old new : Snapshot) (k : Nat) : Prop :=
  (k = 0 ∧ IdsBelow old.fuseMap old.md.nextId) ∨
    ((new.metaData fmt).length < k ∧ k ≤ (new.metaData fmt).length + 2 ∧
      IdsBelow old.fuseMap new.md.nextId) ∨
    ((new.metaData fmt).length + 3 + (fmt.fuseMap.encode new.entries).length ≤ k ∧
      IdsBelow new.fuseMap new.md.nextId)

section LoadsGood

variable {old new : Snapshot} {objects : FMap ObjectPath Bytes} {order : IterOrder FsPath}

theorem loadMeta_ok {md : SandboxMeta} (habi : md.abiVersion = SUPPORTED_ABI_VERSION)
    (data : Option DataBin) : loadMeta ⟨some (.sandboxMeta md), data, objects⟩ = .ok md :=
  if_neg (not_not_intro habi)

/-- A readable `metadata.bin` of the supported version, and a `data.bin` that holds `m`. -/
theorem loadsGood_stored_iff {md : SandboxMeta} {m : FuseMap} {data : DataBin}
    (habi : md.abiVersion = SUPPORTED_ABI_VERSION) (hm : m = old.fuseMap ∨ m = new.fuseMap)
    (hdata : (∃ rows, data = .syncState m rows) ∨ data = .fuseMapOnly m) :
    LoadsGood old new ⟨some (.sandboxMeta md), some data, objects⟩ order
      ↔ IdsBelow m md.nextId := by
  obtain ⟨tree, hl⟩ : ∃ tree, load ⟨some (.sandboxMeta md), some data, objects⟩ order
      = .ok (md, m, tree) := by
    unfold load
    rw [loadMeta_ok habi]
    rcases hdata with ⟨rows, rfl⟩ | rfl
    · exact ⟨_, rfl⟩
    · exact ⟨_, rfl⟩
  constructor
  · rintro ⟨md', m', tree', hl', -, hids⟩
    rw [hl] at hl'
    cases hl'
    exact hids
  · intro hids
    exact ⟨md, m, tree, hl, hm, hids⟩

theorem not_loadsGood_corruptMeta (data : Option DataBin) :
    ¬ LoadsGood old new ⟨some .corrupt, data, objects⟩ order := by
  rintro ⟨md, m, tree, hl, -⟩
  cases hl

theorem not_loadsGood_corruptData {md : SandboxMeta}
    (habi : md.abiVersion = SUPPORTED_ABI_VERSION) :
    ¬ LoadsGood old new ⟨some (.sandboxMeta md), some .corrupt, objects⟩ order := by
  rintro ⟨md', m', tree', hl, -⟩
  unfold load at hl
  rw [loadMeta_ok habi] at hl
  cases hl

variable (fmt : Formats) (old new) (objects) (order)

/-- The disk before the first effect. -/
theorem loadsGood_completed_iff :
    LoadsGood old new ((completed fmt old).storage fmt objects) order
      ↔ IdsBelow old.fuseMap old.md.nextId := by
  have hstorage : (completed fmt old).storage fmt objects
      = ⟨some (.sandboxMeta old.md), some (.syncState old.fuseMap (old.tree.rows old.rowOrder)),
        objects⟩ := by
    rw [← ofBytes_metaData fmt, ← ofBytes_mapData fmt]
    rfl
  rw [hstorage]
  exact loadsGood_stored_iff old.abi (Or.inl rfl) (Or.inl ⟨_, rfl⟩)

/-- The first `j` bytes of the new `metadata.bin`, the old `data.bin`. -/
theorem loadsGood_metaCut_iff (j : Nat) :
    LoadsGood old new (RawFiles.storage fmt (Function.update (completed fmt old) .metadataBin
        (some ((new.metaData fmt).take j))) objects) order
      ↔ (new.metaData fmt).length ≤ j ∧ IdsBelow old.fuseMap new.md.nextId := by
  have hstorage : RawFiles.storage fmt (Function.update (completed fmt old) .metadataBin
        (some ((new.metaData fmt).take j))) objects
      = ⟨some (MetadataBin.ofBytes fmt ((new.metaData fmt).take j)),
        some (.syncState old.fuseMap (old.tree.rows old.rowOrder)), objects⟩ := by
    rw [← ofBytes_mapData fmt]
    rfl
  rw [hstorage]
  by_cases hj : (new.metaData fmt).length ≤ j
  · rw [List.take_of_length_le hj, ofBytes_metaData,
      loadsGood_stored_iff new.abi (Or.inl rfl) (Or.inl ⟨_, rfl⟩)]
    exact (and_iff_right hj).symm
  · rw [ofBytes_metaData_cut fmt new (Nat.lt_of_not_le hj)]
    exact iff_of_false (not_loadsGood_corruptMeta _) fun h => hj h.1

/-- The new `metadata.bin`, the first `j` bytes of the new `data.bin`. -/
theorem loadsGood_dataCut_iff (j : Nat) :
    LoadsGood old new (RawFiles.storage fmt (Function.update (completed fmt new) .dataBin
        (some ((new.mapData fmt).take j))) objects) order
      ↔ (fmt.fuseMap.encode new.entries).length ≤ j ∧ IdsBelow new.fuseMap new.md.nextId := by
  have hstorage : RawFiles.storage fmt (Function.update (completed fmt new) .dataBin
        (some ((new.mapData fmt).take j))) objects
      = ⟨some (.sandboxMeta new.md), some (DataBin.ofBytes fmt ((new.mapData fmt).take j)),
        objects⟩ := by
    rw [← ofBytes_metaData fmt]
    rfl
  rw [hstorage]
  by_cases hj : (fmt.fuseMap.encode new.entries).length ≤ j
  · rw [loadsGood_stored_iff new.abi (Or.inr rfl) (ofBytes_mapData_kept fmt new hj)]
    exact (and_iff_right hj).symm
  · rw [ofBytes_mapData_cut fmt new (Nat.lt_of_not_le hj)]
    exact iff_of_false (not_loadsGood_corruptData new.abi) fun h => hj h.1

end LoadsGood

/-- **Crash atomicity of a flush, exactly.** After a crash at any point of the flush, the next load
is good iff the point is safe. -/
theorem loadsGood_crashed_iff (fmt : Formats) (old new : Snapshot) (k : Nat)
    (objects : FMap ObjectPath Bytes) (order : IterOrder FsPath) :
    LoadsGood old new ((crashed fmt old new k).storage fmt objects) order
      ↔ SafePoint fmt old new k := by
  unfold SafePoint
  rw [crashed_eq]
  by_cases h0 : k = 0
  · rw [if_pos h0, loadsGood_completed_iff]
    constructor
    · exact fun h => Or.inl ⟨h0, h⟩
    · rintro (h | h | h)
      · exact h.2
      · omega
      · omega
  · rw [if_neg h0]
    by_cases hm : k ≤ (new.metaData fmt).length + 2
    · rw [if_pos hm, loadsGood_metaCut_iff]
      constructor
      · exact fun h => Or.inr (Or.inl ⟨by omega, hm, h.2⟩)
      · rintro (h | h | h)
        · exact absurd h.1 h0
        · exact ⟨by omega, h.2.2⟩
        · omega
    · rw [if_neg hm, loadsGood_dataCut_iff]
      constructor
      · exact fun h => Or.inr (Or.inr ⟨by omega, h.2⟩)
      · rintro (h | h | h)
        · exact absurd h.1 h0
        · omega
        · exact ⟨by omega, h.2⟩

/-- Over states whose ids are below their `next_id`, with a `next_id` that only grows, the crash
point alone decides. -/
theorem safePoint_iff_of_growing {fmt : Formats} {old new : Snapshot} {k : Nat}
    (hold : IdsBelow old.fuseMap old.md.nextId) (hnew : IdsBelow new.fuseMap new.md.nextId)
    (hgrow : old.md.nextId ≤ new.md.nextId) :
    SafePoint fmt old new k ↔
      k = 0 ∨ ((new.metaData fmt).length < k ∧ k ≤ (new.metaData fmt).length + 2) ∨
        (new.metaData fmt).length + 3 + (fmt.fuseMap.encode new.entries).length ≤ k := by
  have hmixed : IdsBelow old.fuseMap new.md.nextId := by
    intro p e id he hid
    have hlt := UInt64.lt_iff_toNat_lt.mp (hold p e id he hid)
    have hle := UInt64.le_iff_toNat_le.mp hgrow
    rw [UInt64.lt_iff_toNat_lt]
    omega
  unfold SafePoint
  tauto

/-! ## §5. The daemon's own flush. -/

/-- A complete flush of the daemon leaves what its effects leave. -/
theorem storage_completed (fmt : Formats) (s : Snapshot) (storage : Storage) :
    (completed fmt s).storage fmt storage.objects
      = (flush storage .ok s.rowOrder s.md s.fuseMap s.tree).2 := by
  show Storage.mk (some (MetadataBin.ofBytes fmt (s.metaData fmt)))
    (some (DataBin.ofBytes fmt (s.mapData fmt))) storage.objects = _
  rw [ofBytes_metaData, ofBytes_mapData]
  rfl

/-- A sandbox as `cas init` leaves it. -/
def Snapshot.fresh : Snapshot where
  md := { shmName := "", abiVersion := SUPPORTED_ABI_VERSION, nextId := 1 }
  fuseMap := ∅
  tree := PathTree.new
  entryOrder := .sorted
  rowOrder := .sorted
  abi := rfl

/-- The flush of an unchanged sandbox, stopped right after `metadata.bin` is truncated: the next
load fails. -/
theorem not_loadsGood_truncated :
    load ((crashed .postcard .fresh .fresh 1).storage .postcard ∅) .sorted = .error .serialize ∧
      ¬ LoadsGood .fresh .fresh ((crashed .postcard .fresh .fresh 1).storage .postcard ∅)
        .sorted := by
  have hload : load ((crashed .postcard .fresh .fresh 1).storage .postcard ∅) .sorted
      = .error .serialize := rfl
  refine ⟨hload, ?_⟩
  rintro ⟨md, m, tree, hok, -⟩
  rw [hload] at hok
  cases hok

end Cas.Syncing
