/-
  Cas.Syncing.Closure — `PathTree`, the closure table of the syncing
  server (`syncing/closure.rs`).

  Three maps hold one row `(ancestor, descendant, distance)` for every
  pair of a path and one of its ancestors-or-self, indexed by ancestor,
  by descendant and, for distance 1, by parent.  The definitions follow
  the source; what the table means is in `Cas.Syncing.ClosureRep`.

  A distance is a `Nat` here and a `u32` in the source: `insert` collects
  all prefixes of a path first, and those of a path with 2³² components
  take more than 2⁶⁴ bytes.
-/
import Cas.Syncing.Proto

namespace Cas.Syncing

open Cas.Lib

/-- One row of the closure table as it is written to disk. -/
structure ClosureRow where
  ancestor : FsPath
  descendant : FsPath
  distance : Nat
  deriving DecidableEq

structure PathTree where
  byAncestor : FMap FsPath (List (FsPath × Nat))
  byDescendant : FMap FsPath (List (FsPath × Nat))
  byParent : FMap FsPath (List FsPath)
  deriving DecidableEq

namespace PathTree

/-! ## §1. Rows. -/

def new : PathTree := ⟨∅, ∅, ∅⟩

/-- Every ancestor-or-self of `path` with its distance. -/
def ancestorsWithDistance (path : FsPath) : List (FsPath × Nat) :=
  (ancestors path).map fun ancestor => (ancestor, path.depth - FsPath.depth ancestor)

def insertRow (t : PathTree) (ancestor descendant : FsPath) (distance : Nat) : PathTree where
  byAncestor := pushAt t.byAncestor ancestor (descendant, distance)
  byDescendant := pushAt t.byDescendant descendant (ancestor, distance)
  byParent := if distance = 1 then pushAt t.byParent ancestor descendant else t.byParent

/-- The body of the loop of `removeOne` over the ancestors of `path`. -/
def detach (path : FsPath) (t : PathTree) (ancestor : FsPath) : PathTree :=
  { t with
    byAncestor := retainAt t.byAncestor ancestor fun row => decide (row.1 ≠ path)
    byParent := retainAt t.byParent ancestor fun descendant => decide (descendant ≠ path) }

def removeOne (t : PathTree) (path : FsPath) : PathTree :=
  let ancestors := mapAt t.byDescendant path
  let t := { t with byDescendant := t.byDescendant.erase path }
  let t := ancestors.foldl (fun t row => detach path t row.1) t
  { t with byAncestor := t.byAncestor.erase path, byParent := t.byParent.erase path }

/-! ## §2. Queries. -/

def contains (t : PathTree) (path : FsPath) : Bool := (t.byDescendant.lookup path).isSome

def childrenOf (t : PathTree) (path : FsPath) : List FsPath := mapAt t.byParent path

def descendantsOf (t : PathTree) (path : FsPath) : List FsPath :=
  ((mapAt t.byAncestor path).filter fun row => decide (0 < row.2)).map Prod.fst

def ancestorsOf (t : PathTree) (path : FsPath) : List FsPath :=
  ((mapAt t.byDescendant path).filter fun row => decide (0 < row.2)).map Prod.fst

def subtreePaths (t : PathTree) (path : FsPath) : List FsPath :=
  if t.contains path then path :: t.descendantsOf path else []

/-- The rows, in an iteration order of `by_ancestor`. -/
def rows (t : PathTree) (order : IterOrder FsPath) : List ClosureRow :=
  (order.list t.byAncestor.keys).flatMap fun ancestor =>
    (mapAt t.byAncestor ancestor).map fun row => ⟨ancestor, row.1, row.2⟩

/-! ## §3. Updates. -/

/-- The body of the loop of `insert`: publish all rows of one prefix unless it is there already. -/
def insertPrefix (t : PathTree) (p : FsPath) : PathTree :=
  if t.contains p then t
  else (ancestorsWithDistance p).foldl (fun t row => t.insertRow row.1 p row.2) t

def insert (t : PathTree) (path : FsPath) : PathTree :=
  (ancestors path).reverse.foldl insertPrefix t

/-- The subtree in the order of removal, deepest paths first. -/
def removalOrder (t : PathTree) (path : FsPath) : List FsPath :=
  (t.subtreePaths path).insertionSort fun p q => q.length ≤ p.length

def remove (t : PathTree) (path : FsPath) : List FsPath × PathTree :=
  if t.contains path then
    (t.removalOrder path, (t.removalOrder path).foldl removeOne t)
  else ([], t)

def clear (_ : PathTree) : PathTree := new

def fromPaths (paths : List FsPath) : PathTree :=
  (paths.insertionSort fun p q => FsPath.depth p ≤ FsPath.depth q).foldl insert new

def fromRows (rows : List ClosureRow) : PathTree :=
  rows.foldl (fun t row => t.insertRow row.ancestor row.descendant row.distance) new

end PathTree

end Cas.Syncing
