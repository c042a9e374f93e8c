/-
  Cas.Syncing.Torn — a `data.bin` that was cut short.

  `load` tells the present format from the older one, the map alone, by
  whether the bytes decode as the present one, and ignores what follows
  the map in the older one.  A file that was cut anywhere could pass for
  an older file.  What it is read as is always the map that was written,
  and a table of that map's paths; or it is not read at all.
-/
import Cas.Syncing.Crash
import Cas.Syncing.RoundTrip

namespace Cas.Syncing

open Cas.Lib Descriptive

/-- The table holds the keys of `m`, their ancestors, and nothing else. -/
def HoldsKeys (m : FuseMap) (tree : PathTree) : Prop :=
  ∃ S, tree.Rep S ∧ ∀ p, p ∈ S ↔ ∃ key ∈ m.keys, p <+: key

/-- What the older format rebuilds. -/
theorem holdsKeys_fromPaths (m : FuseMap) (order : IterOrder FsPath) :
    HoldsKeys m (PathTree.fromPaths (order.list m.keys)) := by
  refine ⟨_, rep_fromPaths (order.list m.keys), fun p => ?_⟩
  show p ∈ (order.list m.keys).foldl (fun S p => PrefixTree.insert S (id p)) ⊥ ↔ _
  rw [PrefixTree.mem_foldl_insert, or_iff_right (PrefixTree.notMem_bot p)]
  apply exists_congr
  intro key
  rw [(order.enumerates m.keys).2 key]
  rfl

section Torn

variable (fmt : Formats) (s : Snapshot) {S : tree Name} {raw : RawFiles} {bytes : Bytes}
  {objects : FMap ObjectPath Bytes} {md : SandboxMeta}

/-- With a valid `metadata.bin` the rest of `load` is what `data.bin` reads as. -/
theorem load_dataBin (hdata : raw .dataBin = some bytes)
    (hmeta : loadMeta (raw.storage fmt objects) = .ok md) (order : IterOrder FsPath) :
    load (raw.storage fmt objects) order
      = match DataBin.ofBytes fmt bytes with
        | .syncState fuseMap rows => .ok (md, fuseMap, PathTree.fromRows rows)
        | .fuseMapOnly fuseMap => .ok (md, fuseMap, PathTree.fromPaths (order.list fuseMap.keys))
        | .corrupt => .error .serialize := by
  have hbin : (raw.storage fmt objects).dataBin = some (DataBin.ofBytes fmt bytes) := by
    show (raw .dataBin).map _ = _
    rw [hdata]
    rfl
  unfold load loadMap
  rw [hmeta, hbin]
  cases DataBin.ofBytes fmt bytes <;> rfl

/-- **A torn `data.bin`.** Cut inside the map it is not read.  Cut later it is read as the map that
was written, with the table that was written if nothing is missing, and else with the table of the
map's own paths. -/
theorem load_torn (hrep : s.tree.Rep S) (hdata : raw .dataBin = some bytes)
    (hpre : bytes <+: s.mapData fmt) (hmeta : loadMeta (raw.storage fmt objects) = .ok md)
    (order : IterOrder FsPath) :
    if bytes.length < (fmt.fuseMap.encode s.entries).length then
      load (raw.storage fmt objects) order = .error .serialize
    else
      ∃ tree, load (raw.storage fmt objects) order = .ok (md, s.fuseMap, tree) ∧
        if bytes = s.mapData fmt then
          ∀ updates : List TreeOp, SameAnswers (updates.foldl TreeOp.apply s.tree)
            (updates.foldl TreeOp.apply tree)
        else HoldsKeys s.fuseMap tree := by
  have htake : bytes = (s.mapData fmt).take bytes.length := List.prefix_iff_eq_take.mp hpre
  rw [load_dataBin fmt hdata hmeta order]
  by_cases hmap : bytes.length < (fmt.fuseMap.encode s.entries).length
  · rw [if_pos hmap, htake, ofBytes_mapData_cut fmt s hmap]
  · rw [if_neg hmap]
    by_cases hwhole : bytes = s.mapData fmt
    · refine ⟨PathTree.fromRows (s.tree.rows s.rowOrder), ?_, ?_⟩
      · rw [hwhole, ofBytes_mapData]
      · rw [if_pos hwhole]
        exact sameAnswers_foldl hrep (PathTree.rep_fromRows hrep s.rowOrder)
    · have hshort : bytes.length < (s.mapData fmt).length := by
        apply lt_of_le_of_ne hpre.length_le
        exact fun hlen => hwhole (hpre.eq_of_length hlen)
      refine ⟨PathTree.fromPaths (order.list s.fuseMap.keys), ?_, ?_⟩
      · rw [htake, ofBytes_mapData_short fmt s (Nat.le_of_not_lt hmap) hshort]
      · rw [if_neg hwhole]
        exact holdsKeys_fromPaths s.fuseMap order

end Torn

/-- A sandbox with one directory. -/
def Snapshot.oneDir : Snapshot where
  md := Snapshot.fresh.md
  fuseMap := Finmap.singleton [.a] (.ofDir .zero)
  tree := PathTree.fromPaths [[.a]]
  entryOrder := .sorted
  rowOrder := .sorted
  abi := Snapshot.fresh.abi

/-- Its `data.bin` cut exactly after the map, which is a file of the older format. -/
def Snapshot.oneDirOlder : RawFiles :=
  Function.update (completed .postcard .oneDir) .dataBin
    (some (Formats.postcard.fuseMap.encode Snapshot.oneDir.entries))

theorem load_torn_olderFormat :
    ∃ tree, load (Snapshot.oneDirOlder.storage .postcard ∅) .sorted
        = .ok (Snapshot.oneDir.md, Snapshot.oneDir.fuseMap, tree) ∧
      HoldsKeys Snapshot.oneDir.fuseMap tree := by
  have hpre : Formats.postcard.fuseMap.encode Snapshot.oneDir.entries
      <+: Snapshot.oneDir.mapData .postcard := List.prefix_append _ _
  have hmeta : loadMeta (Snapshot.oneDirOlder.storage .postcard ∅) = .ok Snapshot.oneDir.md := by
    show loadMeta ⟨some (MetadataBin.ofBytes .postcard (Snapshot.oneDir.metaData .postcard)), _, _⟩
      = _
    rw [ofBytes_metaData, loadMeta_ok Snapshot.oneDir.abi]
  have hcut : Formats.postcard.fuseMap.encode Snapshot.oneDir.entries
      ≠ Snapshot.oneDir.mapData .postcard := by
    intro he
    have hrows : Formats.postcard.tree.encode
        (Snapshot.oneDir.tree.rows Snapshot.oneDir.rowOrder) = [] :=
      List.self_eq_append_right.mp he
    have hread := Formats.postcard.tree.decode_encode
      (Snapshot.oneDir.tree.rows Snapshot.oneDir.rowOrder)
    rw [hrows] at hread
    cases hread
  have key := load_torn .postcard .oneDir (rep_fromPaths [[.a]]) rfl hpre hmeta .sorted
  rw [if_neg (Nat.lt_irrefl _)] at key
  obtain ⟨tree, hload, hkeys⟩ := key
  rw [if_neg hcut] at hkeys
  exact ⟨tree, hload, hkeys⟩

end Cas.Syncing
