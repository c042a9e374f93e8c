/-
  Cas.Lib.Positions — reading a list that changes, position by position.

  A reader asks for the element at position 0, then 1, and so on, each
  time of the list as it then is, until there is none.  What it misses
  and what it gets twice are the elements that a change moves across the
  position (`count_readVersions`).
-/
import Mathlib.Data.List.Basic
import Mathlib.Data.List.Nodup

namespace Cas.Lib

variable {α : Type*}

/-- What the reader gets: from each version the element at the position, which goes up by one. -/
def readVersions : Nat → List (List α) → List α
  | _, [] => []
  | i, l :: ls =>
    match l[i]? with
    | some a => a :: readVersions (i + 1) ls
    | none => []

/-- The reader has reached the end, in the last of the versions. -/
def Completes : Nat → List (List α) → Prop
  | _, [] => False
  | i, [l] => l.length ≤ i
  | i, l :: l' :: ls => i < l.length ∧ Completes (i + 1) (l' :: ls)

/-- The changes from one version to the next that `P` counts; its first argument is the position
the reader has come to. -/
def countChanges (P : Nat → List α → List α → Bool) : Nat → List (List α) → Nat
  | i, l :: l' :: ls => (P (i + 1) l l').toNat + countChanges P (i + 1) (l' :: ls)
  | _, _ => 0

theorem mem_take_succ_iff {l : List α} {a : α} {i : Nat} :
    a ∈ l.take (i + 1) ↔ a ∈ l.take i ∨ l[i]? = some a := by
  rw [List.take_add_one, List.mem_append, Option.mem_toList]

/-- In a list without repetition the next element has not been read. -/
theorem notMem_take_of_getElem? {l : List α} (hnd : l.Nodup) {a : α} {i : Nat}
    (h : l[i]? = some a) : a ∉ l.take i := by
  intro hmem
  obtain ⟨hi, hget⟩ := List.getElem?_eq_some_iff.mp h
  obtain ⟨j, hj, hjget⟩ := List.mem_take_iff_getElem.mp hmem
  have hji : j = i := (hnd.getElem_inj_iff).mp (hjget.trans hget.symm)
  omega

variable [DecidableEq α]

/-- `a` moves from ahead of the position to what has been read. -/
def passedOver (a : α) (i : Nat) (l l' : List α) : Bool :=
  decide (a ∉ l.take i) && decide (a ∈ l'.take i)

/-- `a` moves from what has been read to ahead of the position. -/
def putBack (a : α) (i : Nat) (l l' : List α) : Bool :=
  decide (a ∈ l.take i) && decide (a ∉ l'.take i)

/-- **The account of one element**: what the reader gets of it and the times it is passed over make
up for the times it is put back, and for once if it is ahead at the start. -/
theorem count_readVersions [BEq α] [LawfulBEq α] (a : α) (ls : List (List α)) : ∀ i,
    Completes i ls → (∀ l ∈ ls, l.Nodup ∧ a ∈ l) → ∀ l ∈ ls.head?,
      (readVersions i ls).count a + countChanges (passedOver a) i ls
        = (decide (a ∉ l.take i)).toNat + countChanges (putBack a) i ls := by
  induction ls with
  | nil => exact fun i h => h.elim
  | cons l ls ih =>
    intro i hdone hall first hfirst
    obtain rfl : l = first := Option.some.inj hfirst
    obtain ⟨⟨hnd, hmem⟩, hrest⟩ := List.forall_mem_cons.mp hall
    cases ls with
    | nil =>
      have hend : l.length ≤ i := hdone
      have hread : a ∈ l.take i := by rwa [List.take_of_length_le hend]
      have hnone : l[i]? = none := List.getElem?_eq_none hend
      simp [readVersions, countChanges, hnone, hread]
    | cons l' ls =>
      obtain ⟨hlt, hdone⟩ := hdone
      have key := ih (i + 1) hdone hrest l' rfl
      obtain ⟨b, hb⟩ : ∃ b, l[i]? = some b := ⟨l[i], List.getElem?_eq_getElem hlt⟩
      have hread : readVersions i (l :: l' :: ls) = b :: readVersions (i + 1) (l' :: ls) := by
        rw [readVersions, hb]
      have htake : a ∈ l.take (i + 1) ↔ a ∈ l.take i ∨ b = a := by
        rw [mem_take_succ_iff, hb, Option.some.injEq]
      have hnew : b = a → a ∉ l.take i := fun e => notMem_take_of_getElem? hnd (e ▸ hb)
      rw [hread, List.count_cons, countChanges, countChanges, passedOver, putBack]
      -- read now, read before, or still ahead
      by_cases hba : b = a
      · by_cases hnext : a ∈ l'.take (i + 1) <;>
          simp [htake, hba, hnew hba, hnext] at key ⊢ <;> omega
      · by_cases hbefore : a ∈ l.take i <;> by_cases hnext : a ∈ l'.take (i + 1) <;>
          simp [htake, hba, hbefore, hnext] at key ⊢ <;> omega

/-- No change moves `a` across the position. -/
def StaysBehind (a : α) : Nat → List (List α) → Prop
  | i, l :: l' :: ls => (a ∈ l.take (i + 1) ↔ a ∈ l'.take (i + 1)) ∧ StaysBehind a (i + 1) (l' :: ls)
  | _, _ => True

instance StaysBehind.decidable (a : α) : ∀ i ls, Decidable (StaysBehind a i ls)
  | _, [] | _, [_] => isTrue trivial
  | i, l :: l' :: ls =>
    have := StaysBehind.decidable a (i + 1) (l' :: ls)
    inferInstanceAs (Decidable ((a ∈ l.take (i + 1) ↔ a ∈ l'.take (i + 1)) ∧
      StaysBehind a (i + 1) (l' :: ls)))

theorem countChanges_of_staysBehind {a : α} {ls : List (List α)} : ∀ {i}, StaysBehind a i ls →
    countChanges (passedOver a) i ls = 0 ∧ countChanges (putBack a) i ls = 0 := by
  induction ls with
  | nil => exact fun _ => ⟨rfl, rfl⟩
  | cons l ls ih =>
    intro i h
    cases ls with
    | nil => exact ⟨rfl, rfl⟩
    | cons l' ls =>
      obtain ⟨hside, hrest⟩ := h
      obtain ⟨hpassed, hput⟩ := ih hrest
      rw [countChanges, countChanges, hpassed, hput, passedOver, putBack]
      by_cases hmem : a ∈ l'.take (i + 1) <;> simp [hside, hmem]

/-- An element that stays on its side is read once. -/
theorem count_readVersions_once [BEq α] [LawfulBEq α] {a : α} {ls : List (List α)}
    (hdone : Completes 0 ls) (hall : ∀ l ∈ ls, l.Nodup ∧ a ∈ l) (hside : StaysBehind a 0 ls) :
    (readVersions 0 ls).count a = 1 := by
  cases ls with
  | nil => exact hdone.elim
  | cons l ls =>
    have key := count_readVersions a (l :: ls) 0 hdone hall l rfl
    obtain ⟨hpassed, hput⟩ := countChanges_of_staysBehind hside
    rw [hpassed, hput] at key
    simpa using key

end Cas.Lib
