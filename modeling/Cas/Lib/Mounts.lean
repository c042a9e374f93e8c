/-
  Cas.Lib.Mounts — what absolute paths stand for while file systems are
  mounted over one another.

  A `Space` says what each path (its components, root first) stands for.
  A mount at `d` puts another space there: at and below `d` only what was
  mounted is seen.  `sub d` is the space seen from `d`, as by a process
  whose root or working directory is `d`.  The rules say what a mount
  does to the space below another directory: nothing, when neither lies
  below the other (`sub_mount_apart`), and the same mount further down,
  when it lies below (`sub_mount_below`).
-/
import Cas.Lib.Prefix

namespace Cas.Lib

/-- Neither path is below the other. -/
def ApartPaths {α : Type*} (p q : List α) : Prop := ¬ p <+: q ∧ ¬ q <+: p

instance {α : Type*} [DecidableEq α] (p q : List α) : Decidable (ApartPaths p q) :=
  inferInstanceAs (Decidable (_ ∧ _))

/-- What is below a path apart is apart. -/
theorem ApartPaths.append {α : Type*} {p q : List α} (h : ApartPaths p q) (r : List α) :
    ApartPaths (p ++ r) q := by
  refine ⟨fun hp => h.1 ((List.prefix_append p r).trans hp), fun hq => ?_⟩
  rcases List.prefix_or_prefix_of_prefix hq (List.prefix_append p r) with h' | h'
  · exact h.2 h'
  · exact h.1 h'

/-- What each path stands for. -/
def Space (α ω : Type*) := List α → ω

namespace Space

variable {α ω : Type*}

/-- The space seen from `d`. -/
def sub (s : Space α ω) (d : List α) : Space α ω := fun r => s (d ++ r)

theorem sub_sub (s : Space α ω) (d r : List α) : (s.sub d).sub r = s.sub (d ++ r) := by
  funext p
  show s (d ++ (r ++ p)) = s (d ++ r ++ p)
  rw [List.append_assoc]

section Mount

variable [DecidableEq α] (s t : Space α ω) {d p : List α}

/-- `t` mounted at `d`. -/
def mount (s : Space α ω) (d : List α) (t : Space α ω) : Space α ω :=
  fun p => if d <+: p then t (p.drop d.length) else s p

@[simp] theorem mount_below (d r : List α) : s.mount d t (d ++ r) = t r := by
  unfold mount
  rw [if_pos (List.prefix_append d r), List.drop_left]

theorem mount_outside (h : ¬ d <+: p) : s.mount d t p = s p := if_neg h

/-- A mount is what is seen from where it is. -/
@[simp] theorem sub_mount_self (d : List α) : (s.mount d t).sub d = t := by
  funext r
  exact mount_below s t d r

/-- A mount further down is seen further down. -/
theorem sub_mount_below (d r : List α) : (s.mount (d ++ r) t).sub d = (s.sub d).mount r t := by
  funext p
  show (if d ++ r <+: d ++ p then t ((d ++ p).drop (d ++ r).length) else s (d ++ p))
    = if r <+: p then t (p.drop r.length) else s (d ++ p)
  by_cases h : r <+: p
  · have h' : d ++ r <+: d ++ p := (List.prefix_append_right_inj d).mpr h
    rw [if_pos h, if_pos h', List.length_append, ← List.drop_drop, List.drop_left]
  · have h' : ¬ d ++ r <+: d ++ p := fun hp => h ((List.prefix_append_right_inj d).mp hp)
    rw [if_neg h, if_neg h']

/-- A mount elsewhere is not seen. -/
theorem sub_mount_apart (h : ApartPaths d p) : (s.mount d t).sub p = s.sub p := by
  funext r
  refine mount_outside s t fun hd => ?_
  rcases List.prefix_or_prefix_of_prefix hd (List.prefix_append p r) with h' | h'
  · exact h.1 h'
  · exact h.2 h'

/-! Many mounts, one over another. -/

/-- Mounts in the order made. -/
def mounts (s : Space α ω) (ms : List (List α × Space α ω)) : Space α ω :=
  ms.foldl (fun s m => s.mount m.1 m.2) s

theorem mounts_append (ms ns : List (List α × Space α ω)) :
    s.mounts (ms ++ ns) = (s.mounts ms).mounts ns := List.foldl_append

/-- The mount made last is the one that is seen. -/
theorem mounts_apply (ms : List (List α × Space α ω)) (p : List α) :
    s.mounts ms p = match ms.reverse.find? fun m => m.1 <+: p with
      | some m => m.2 (p.drop m.1.length)
      | none => s p := by
  induction ms using List.reverseRecOn with
  | nil => rfl
  | append_singleton ms m ih =>
    rw [mounts_append, List.reverse_append]
    show (s.mounts ms).mount m.1 m.2 p = match (m :: ms.reverse).find? _ with
      | some m => m.2 (p.drop m.1.length)
      | none => s p
    rw [List.find?_cons]
    by_cases h : m.1 <+: p
    · simp [mount, h]
    · simp [mount, h, ih]

end Mount

end Space

end Cas.Lib
