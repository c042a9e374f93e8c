/-
  Cas.Lib.FlatStore — the plainest file system there is: a map from keys
  to byte strings, with handles.

  A handle follows the file that was opened: once that file is removed, a
  write through the handle changes no key, also when the key has been
  created again.
-/
import Mathlib.Logic.Function.Basic
import Cas.Lib.Bytes

namespace Cas.Lib

/-! ## §1. The store. -/

/-- An open handle; `key` is gone when the file has been removed. -/
structure FlatHandle (K : Type) where
  key : Option K
  append : Bool

/-- Files by key, handles by number. -/
structure FlatStore (K H : Type) where
  files : K → Option Bytes
  handles : H → Option (FlatHandle K)

namespace FlatStore

variable {K H : Type}

def init (files : K → Option Bytes) : FlatStore K H := ⟨files, fun _ => none⟩

def put [DecidableEq K] (s : FlatStore K H) (k : K) (data : Option Bytes) : FlatStore K H :=
  { s with files := Function.update s.files k data }

def create [DecidableEq K] (s : FlatStore K H) (k : K) : FlatStore K H := s.put k (some [])

/-- A handle for writing. -/
def openAt [DecidableEq H] (s : FlatStore K H) (h : H) (k : K) (append : Bool) : FlatStore K H :=
  { s with handles := Function.update s.handles h (some ⟨some k, append⟩) }

/-- The number is given up, or stands for something that cannot write. -/
def close [DecidableEq H] (s : FlatStore K H) (h : H) : FlatStore K H :=
  { s with handles := Function.update s.handles h none }

/-- What becomes of a handle when the file at `k` is removed. -/
def FlatHandle.detach [DecidableEq K] (k : K) (h : FlatHandle K) : FlatHandle K :=
  if h.key = some k then { h with key := none } else h

def remove [DecidableEq K] (s : FlatStore K H) (k : K) : FlatStore K H where
  files := Function.update s.files k none
  handles h := (s.handles h).map (FlatHandle.detach k)

/-- Write through a handle, at the end of the file with `append`. -/
def write [DecidableEq K] (s : FlatStore K H) (h : H) (offset : Nat) (data : Bytes) : FlatStore K H :=
  match s.handles h with
  | none => s
  | some handle =>
    match handle.key with
    | none => s
    | some k =>
      s.put k ((s.files k).map fun old =>
        writeAt old (if handle.append then old.length else offset) data)

/-! ## §2. What an operation does to one key or one handle. -/

section Files

variable [DecidableEq K] (s : FlatStore K H)

theorem files_put (k k' : K) (data : Option Bytes) :
    (s.put k data).files k' = if k' = k then data else s.files k' := Function.update_apply ..

theorem files_remove (k k' : K) :
    (s.remove k).files k' = if k' = k then none else s.files k' := Function.update_apply ..

theorem put_self {k : K} {data : Option Bytes} (h : s.files k = data) : s.put k data = s := by
  unfold put
  rw [← h, Function.update_eq_self]

/-- A write through a detached handle changes nothing. -/
theorem write_detached {h : H} {handle : FlatHandle K} (hh : s.handles h = some handle)
    (hk : handle.key = none) (offset : Nat) (data : Bytes) : s.write h offset data = s := by
  unfold write
  simp only [hh, hk]

theorem write_attached {h : H} {handle : FlatHandle K} (hh : s.handles h = some handle) {k : K}
    (hk : handle.key = some k) {old : Bytes} (hold : s.files k = some old) (offset : Nat)
    (data : Bytes) : s.write h offset data
      = s.put k (some (writeAt old (if handle.append then old.length else offset) data)) := by
  unfold write
  simp only [hh, hk, hold, Option.map_some]

/-- A write leaves the handles alone. -/
theorem handles_write (h : H) (offset : Nat) (data : Bytes) :
    (s.write h offset data).handles = s.handles := by
  unfold write
  cases s.handles h with
  | none => rfl
  | some handle =>
    obtain ⟨key, append⟩ := handle
    cases key <;> rfl

end Files

section Handles

variable [DecidableEq H] (s : FlatStore K H)

theorem handles_openAt (h h' : H) (k : K) (append : Bool) :
    (s.openAt h k append).handles h' = if h' = h then some ⟨some k, append⟩ else s.handles h' :=
  Function.update_apply ..

theorem handles_close (h h' : H) :
    (s.close h).handles h' = if h' = h then none else s.handles h' := Function.update_apply ..

end Handles

end FlatStore

end Cas.Lib
