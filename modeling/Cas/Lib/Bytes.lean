/-
  Cas.Lib.Bytes — the content of a regular file and what a file
  descriptor does to it: positioned reads, positioned writes (a gap reads
  as zeros, an empty write does nothing) and truncation.
-/
import Mathlib.Data.List.Basic

namespace Cas.Lib

/-- The content of a regular file. -/
abbrev Bytes := List UInt8

/-- `pread`: at most `len` bytes from `offset` on. -/
def readAt (content : Bytes) (offset len : Nat) : Bytes := (content.drop offset).take len

/-- `pwrite`: the bytes from `offset` on are `data`; a gap before `offset` is filled with zeros. -/
def writeAt (content : Bytes) (offset : Nat) (data : Bytes) : Bytes :=
  if data = [] then content
  else content.take offset ++ List.replicate (offset - content.length) 0 ++ data
    ++ content.drop (offset + data.length)

/-- `ftruncate`: cut the content, or extend it with zeros. -/
def setLen (content : Bytes) (size : Nat) : Bytes :=
  content.take size ++ List.replicate (size - content.length) 0

section WriteAt

variable (content data : Bytes) (offset : Nat)

theorem writeAt_nil : writeAt content offset [] = content := by
  unfold writeAt
  rw [if_pos rfl]

private theorem length_before :
    (content.take offset ++ List.replicate (offset - content.length) (0 : UInt8)).length
      = offset := by
  rw [List.length_append, List.length_take, List.length_replicate]
  omega

/-- Inside the written range a position holds what was written. -/
theorem getElem?_writeAt_inside {i : Nat} (hlo : offset ≤ i) (hhi : i < offset + data.length) :
    (writeAt content offset data)[i]? = data[i - offset]? := by
  have hne : data ≠ [] := by
    intro e
    rw [e, List.length_nil] at hhi
    omega
  unfold writeAt
  rw [if_neg hne, List.getElem?_append_left, List.getElem?_append_right, length_before]
  · rw [length_before]
    exact hlo
  · rw [List.length_append, length_before]
    exact hhi

/-- Outside the written range an old position keeps its byte. -/
theorem getElem?_writeAt_outside {i : Nat} (hi : i < content.length)
    (hout : i < offset ∨ offset + data.length ≤ i) :
    (writeAt content offset data)[i]? = content[i]? := by
  unfold writeAt
  by_cases hne : data = []
  · rw [if_pos hne]
  · rw [if_neg hne]
    rcases hout with h | h
    · rw [List.append_assoc, List.append_assoc, List.getElem?_append_left,
        List.getElem?_take_of_lt h]
      rw [List.length_take]
      omega
    · have hlen := length_before content offset
      rw [List.getElem?_append_right, List.getElem?_drop]
      · rw [List.length_append, hlen]
        congr 1
        omega
      · rw [List.length_append, hlen]
        exact h

end WriteAt

section SetLen

variable (content : Bytes) (size : Nat)

@[simp] theorem length_setLen : (setLen content size).length = size := by
  unfold setLen
  rw [List.length_append, List.length_take, List.length_replicate]
  omega

/-- Cutting a content to its own length does nothing. -/
theorem setLen_eq_self_iff : setLen content size = content ↔ content.length = size := by
  constructor
  · intro h
    rw [← h, length_setLen]
  · intro h
    subst h
    simp [setLen]

end SetLen

end Cas.Lib
