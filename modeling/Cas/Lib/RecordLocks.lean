/-
  Cas.Lib.RecordLocks — advisory record locks (`fcntl`).

  A lock belongs to a holder and covers a range of a file, shared or
  exclusive.  Locks of one holder never conflict; a new lock replaces
  what its holder had in the range; closing a file ends every lock that
  the holder has on it.

    • `setLock`               — take a lock, unless another holder's is in
                                the way,
    • `Compatible`            — no two locks of a table conflict,
    • `compatible_place_iff`  — when a new lock keeps a table compatible.
-/
import Mathlib.Data.List.Basic

namespace Cas.Lib

variable {P F T : Type} [DecidableEq P] [DecidableEq F]

/-! ## §1. Locks. -/

/-- A lock on the bytes `first … last` of a file; `tag` is what it was taken through. -/
structure RecordLock (P F T : Type) where
  holder : P
  file : F
  first : Nat
  last : Nat
  exclusive : Bool
  tag : T
  deriving DecidableEq

/-- Different holders, common bytes, at least one exclusive. -/
def Conflicts (k l : RecordLock P F T) : Prop :=
  k.holder ≠ l.holder ∧ (k.file = l.file ∧ k.first ≤ l.last ∧ l.first ≤ k.last) ∧
    (k.exclusive = true ∨ l.exclusive = true)

instance (k l : RecordLock P F T) : Decidable (Conflicts k l) :=
  inferInstanceAs (Decidable (_ ∧ _ ∧ _))

def Compatible (locks : List (RecordLock P F T)) : Prop :=
  ∀ k ∈ locks, ∀ l ∈ locks, ¬ Conflicts k l

instance (locks : List (RecordLock P F T)) : Decidable (Compatible locks) :=
  inferInstanceAs (Decidable (∀ k ∈ locks, _))

/-- What is left of a lock when its holder gives up the bytes `first … last` of a file. -/
def RecordLock.cut (holder : P) (file : F) (first last : Nat) (l : RecordLock P F T) :
    List (RecordLock P F T) :=
  if l.holder = holder ∧ l.file = file then
    (if l.first < first then [{ l with last := min l.last (first - 1) }] else []) ++
      (if last < l.last then [{ l with first := max l.first (last + 1) }] else [])
  else [l]

def unlock (locks : List (RecordLock P F T)) (holder : P) (file : F) (first last : Nat) :
    List (RecordLock P F T) :=
  locks.flatMap (RecordLock.cut holder file first last)

/-- Put a lock in the place of what its holder has in the range. -/
def place (locks : List (RecordLock P F T)) (l : RecordLock P F T) : List (RecordLock P F T) :=
  unlock locks l.holder l.file l.first l.last ++ [l]

/-- Take a lock; `none` when another holder's is in the way. -/
def setLock (locks : List (RecordLock P F T)) (l : RecordLock P F T) :
    Option (List (RecordLock P F T)) :=
  if ∃ k ∈ locks, Conflicts k l then none else some (place locks l)

/-- The holder closes a descriptor of the file. -/
def closeFile (locks : List (RecordLock P F T)) (holder : P) (file : F) :
    List (RecordLock P F T) :=
  locks.filter fun l => decide (¬ (l.holder = holder ∧ l.file = file))

/-! ## §2. Conflicts. -/

section Conflicts

variable {k l m : RecordLock P F T}

omit [DecidableEq P] [DecidableEq F] in
theorem not_conflicts_own (h : k.holder = l.holder) : ¬ Conflicts k l := fun hc => hc.1 h

omit [DecidableEq P] [DecidableEq F] in
theorem Conflicts.symm (h : Conflicts k l) : Conflicts l k :=
  ⟨h.1.symm, ⟨h.2.1.1.symm, h.2.1.2.2, h.2.1.2.1⟩, h.2.2.symm⟩

/-- A holder is refused only for locks of others. -/
theorem setLock_isSome_iff {locks : List (RecordLock P F T)} :
    (setLock locks l).isSome = true ↔ ∀ k ∈ locks, ¬ Conflicts k l := by
  unfold setLock
  by_cases h : ∃ k ∈ locks, Conflicts k l
  · rw [if_pos h]
    obtain ⟨k, hk, hc⟩ := h
    exact iff_of_false nofun fun hall => hall k hk hc
  · rw [if_neg h]
    refine iff_of_true rfl fun k hk hc => h ⟨k, hk, hc⟩

/-- A piece of a lock conflicts only where the lock does. -/
theorem conflicts_of_cut {holder : P} {file : F} {first last : Nat}
    (hk : k ∈ l.cut holder file first last) (h : Conflicts k m) : Conflicts l m := by
  unfold RecordLock.cut at hk
  split at hk
  · rcases List.mem_append.mp hk with hk | hk
    · split at hk
      · rw [List.mem_singleton] at hk
        subst hk
        obtain ⟨hne, ⟨hfile, h1, h2⟩, he⟩ := h
        exact ⟨hne, ⟨hfile, h1, Nat.le_trans h2 (Nat.min_le_left _ _)⟩, he⟩
      · cases hk
    · split at hk
      · rw [List.mem_singleton] at hk
        subst hk
        obtain ⟨hne, ⟨hfile, h1, h2⟩, he⟩ := h
        exact ⟨hne, ⟨hfile, Nat.le_trans (Nat.le_max_left _ _) h1, h2⟩, he⟩
      · cases hk
  · rw [List.mem_singleton] at hk
    rwa [hk] at h

theorem cut_other {holder : P} {file : F} {first last : Nat} (h : l.holder ≠ holder) :
    l.cut holder file first last = [l] := if_neg fun hc => h hc.1

end Conflicts

/-! ## §3. Compatible tables. -/

section Compatible

variable {locks : List (RecordLock P F T)}

omit [DecidableEq P] [DecidableEq F] in
theorem Compatible.filter (h : Compatible locks) (p : RecordLock P F T → Bool) :
    Compatible (locks.filter p) :=
  fun k hk l hl => h k (List.mem_of_mem_filter hk) l (List.mem_of_mem_filter hl)

theorem Compatible.unlock (h : Compatible locks) (holder : P) (file : F) (first last : Nat) :
    Compatible (unlock locks holder file first last) := by
  intro k hk l hl hc
  obtain ⟨k₀, hk₀, hk⟩ := List.mem_flatMap.mp hk
  obtain ⟨l₀, hl₀, hl⟩ := List.mem_flatMap.mp hl
  have hkl : Conflicts k₀ l := conflicts_of_cut hk hc
  exact h k₀ hk₀ l₀ hl₀ (conflicts_of_cut hl hkl.symm).symm

/-- **A new lock** keeps a table compatible exactly when it conflicts with nothing there. -/
theorem compatible_place_iff (h : Compatible locks) (l : RecordLock P F T) :
    Compatible (place locks l) ↔ ∀ k ∈ locks, ¬ Conflicts k l := by
  constructor
  · intro hp k hk hc
    -- a lock of another holder is not cut
    have hkept : k ∈ Cas.Lib.unlock locks l.holder l.file l.first l.last := by
      apply List.mem_flatMap.mpr
      refine ⟨k, hk, ?_⟩
      rw [cut_other hc.1]
      exact List.mem_singleton_self k
    exact hp k (List.mem_append_left _ hkept) l (by simp [place]) hc
  · intro hnew k hk m hm hc
    have hold := h.unlock l.holder l.file l.first l.last
    have hpiece : ∀ k ∈ Cas.Lib.unlock locks l.holder l.file l.first l.last, ¬ Conflicts k l := by
      intro k hk hc
      obtain ⟨k₀, hk₀, hk⟩ := List.mem_flatMap.mp hk
      exact hnew k₀ hk₀ (conflicts_of_cut hk hc)
    rcases List.mem_append.mp hk with hk | hk
    · rcases List.mem_append.mp hm with hm | hm
      · exact hold k hk m hm hc
      · rw [List.mem_singleton.mp hm] at hc
        exact hpiece k hk hc
    · rw [List.mem_singleton.mp hk] at hc
      rcases List.mem_append.mp hm with hm | hm
      · exact hpiece m hm hc.symm
      · rw [List.mem_singleton.mp hm] at hc
        exact not_conflicts_own rfl hc

end Compatible

end Cas.Lib
