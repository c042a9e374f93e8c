/-
  Cas.Paths — path components and absolute paths.

  An `OsStr` path component is a non-empty byte string without `/`; the
  components `.` and `..` never survive in a normalised path.  `Name`
  carries this as a field, so `FsPath` (the components of an absolute
  path, root first) holds absolute paths made of normal components only.
-/
import Mathlib.Data.List.Lex
import Mathlib.Order.Fin.Basic
import Cas.Lib.Prefix

namespace Cas

open Cas.Lib

/-! ## §1. Components. -/

/-- A byte string that `Path::components` yields as `Component::Normal`. -/
def ValidName (bytes : List UInt8) : Prop :=
  bytes ≠ [] ∧ 47 ∉ bytes ∧ bytes ≠ [46] ∧ bytes ≠ [46, 46]

instance (bytes : List UInt8) : Decidable (ValidName bytes) :=
  inferInstanceAs (Decidable (_ ∧ _ ∧ _ ∧ _))

/-- A normal path component. -/
structure Name where
  bytes : List UInt8
  valid : ValidName bytes := by decide
  deriving DecidableEq

/-- The key by which an ordered map of `OsString`s compares two names. -/
def Name.key (n : Name) : List (Fin 256) := n.bytes.map UInt8.toFin

theorem Name.key_injective : Function.Injective Name.key := by
  intro a b h
  have hb : a.bytes = b.bytes :=
    List.map_injective_iff.mpr (fun x y hxy => UInt8.toFin_inj.mp hxy) h
  cases a
  cases b
  simpa using hb

instance : LinearOrder Name := LinearOrder.lift' Name.key Name.key_injective

/-- Short names for concrete runs. -/
def Name.a : Name := ⟨[97], by decide⟩
def Name.b : Name := ⟨[98], by decide⟩
def Name.c : Name := ⟨[99], by decide⟩

/-! ## §2. Absolute paths. -/

/-- An absolute normalised path: its components, root first; `/` is `[]`. -/
abbrev FsPath := List Name

namespace FsPath

/-- `Path::parent`. -/
def parent (p : FsPath) : Option FsPath := if p = [] then none else some p.dropLast

/-- `Path::file_name`. -/
def fileName (p : FsPath) : Option Name := p.getLast?

/-- `PathBuf::pop`; popping `/` leaves it as it is. -/
def pop (p : FsPath) : FsPath := p.dropLast

/-- The number of `Component::Normal` components. -/
def depth (p : FsPath) : Nat := p.length

theorem parent_eq_some_iff {p d : FsPath} : p.parent = some d ↔ ∃ n, p = d ++ [n] := by
  unfold parent
  rcases List.eq_nil_or_concat p with rfl | ⟨q, n, rfl⟩
  · simp
  · simp

theorem pop_eq_parent (p : FsPath) : p.pop = p.parent.getD [] := by
  unfold pop parent
  by_cases hp : p = []
  · rw [hp]
    rfl
  · rw [if_neg hp]
    rfl

@[simp] theorem parent_snoc (d : FsPath) (n : Name) : FsPath.parent (d ++ [n]) = some d :=
  parent_eq_some_iff.mpr ⟨n, rfl⟩

@[simp] theorem fileName_snoc (d : FsPath) (n : Name) : FsPath.fileName (d ++ [n]) = some n := by
  simp [fileName]

end FsPath

end Cas
