/-
  Cas.Fuse.Descendants — what `recursive_real_descendants` finds.

  The walk keeps a stack of directories.  It pops each host directory
  once, one that cannot be read too: the names below the directories on
  the stack (`room`) get fewer with every round, so the fuel suffices and
  the walk finds exactly the nodes that `HostBelow` describes
  (`mem_recursiveRealDescendants`).
-/
import Cas.Fuse.Observers
import Cas.Host.AgreeOn
import Mathlib.Algebra.BigOperators.Group.Finset.Basic
import Mathlib.Algebra.GroupWithZero.Nat

namespace Cas.Fuse

open Cas.Lib Cas.Host Cas.Syncing

/-! ## §1. Nodes below a host directory. -/

/-- The host lists `p` somewhere below `dir`; the directories on the way down from `dir` are real
ones, not links, and can be read. -/
inductive HostBelow (fs : FileSystem) : FsPath → FsPath → Prop
  | child {dir : FsPath} {n : Name} {kind : Kind} (h : hostListed fs dir n = some kind) :
    HostBelow fs dir (dir ++ [n])
  | deeper {dir p : FsPath} {n : Name} (h : hostListed fs dir n = some .dir)
    (hp : HostBelow fs (dir ++ [n]) p) : HostBelow fs dir p

section Walk

variable {fs : FileSystem} {dir q : FsPath} {n : Name}

theorem dirPlace_eq_some_iff :
    dirPlace fs dir = some q ↔ fs.locate true dir = .ok q ∧ fs.kindAt q = some .dir := by
  unfold dirPlace dirOf
  cases fs.locate true dir with
  | error errno => simp [Except.toOption]
  | ok q' =>
    simp only [Except.toOption, Option.filter_eq_some_iff, Option.some.injEq, decide_eq_true_eq,
      Except.ok.injEq]

theorem dirPlace_of_hostDir (h : hostDir fs dir = some q) : dirPlace fs dir = some q := by
  rw [hostDir_eq] at h
  exact (Option.filter_eq_some_iff.mp h).1

/-- A directory below a resolved directory resolves to the path below it. -/
theorem dirPlace_child (h : dirPlace fs dir = some q) (hn : fs.kindAt (q ++ [n]) = some .dir) :
    dirPlace fs (dir ++ [n]) = some (q ++ [n]) := by
  obtain ⟨hloc, hq⟩ := dirPlace_eq_some_iff.mp h
  exact dirPlace_eq_some_iff.mpr ⟨locate_below hloc hq hn, hn⟩

theorem hostListed_of_hostDir (h : hostDir fs dir = some q) :
    hostListed fs dir n = fs.kindAt (q ++ [n]) := by
  unfold hostListed
  rw [h]
  rfl

theorem readDir_of_hostDir (h : hostDir fs dir = some q) :
    fs.readDir dir = .ok (fs.entriesAt q) := by
  have hopt := readDir_eq fs dir
  rw [h] at hopt
  cases hr : fs.readDir dir with
  | error errno =>
    rw [hr] at hopt
    cases hopt
  | ok entries =>
    rw [hr] at hopt
    exact congrArg Except.ok (Option.some.inj hopt)

theorem readDir_of_noDir (h : hostDir fs dir = none) : ∃ errno, fs.readDir dir = .error errno := by
  have hopt := readDir_eq fs dir
  rw [h] at hopt
  cases hr : fs.readDir dir with
  | error errno => exact ⟨errno, rfl⟩
  | ok entries =>
    rw [hr] at hopt
    cases hopt

/-! ## §2. The room below the stack. -/

/-- The names at and below the place where `dir` is. -/
def room (fs : FileSystem) (dir : FsPath) : Nat :=
  match dirPlace fs dir with
  | none => 0
  | some q => (fs.names.keys.filter fun k => q <+: k).card

theorem room_le (fs : FileSystem) (dir : FsPath) : room fs dir ≤ fs.names.keys.card := by
  unfold room
  split
  · exact Nat.zero_le _
  · exact Finset.card_filter_le _ _

/-- Each name below `q` is below one of its children only. -/
theorem sum_room_children (hq : q ∈ fs.names.keys) {ns : List Name} (hnd : ns.Nodup) :
    (ns.map fun n => (fs.names.keys.filter fun k => q ++ [n] <+: k).card).sum
      < (fs.names.keys.filter fun k => q <+: k).card := by
  have hdisjoint : (ns.toFinset : Set Name).PairwiseDisjoint
      fun n => fs.names.keys.filter fun k => q ++ [n] <+: k := by
    intro m _ n _ hmn
    apply Finset.disjoint_filter.mpr
    intro k _ hm hn
    have heq : q ++ [m] = q ++ [n] := prefix_eq_of_length hm hn (by simp)
    exact hmn (List.singleton_injective (List.append_cancel_left heq))
  rw [← List.sum_toFinset _ hnd, ← Finset.card_biUnion hdisjoint]
  apply Finset.card_lt_card
  constructor
  · intro k hk
    obtain ⟨n, -, hk⟩ := Finset.mem_biUnion.mp hk
    obtain ⟨hmem, hpre⟩ := Finset.mem_filter.mp hk
    exact Finset.mem_filter.mpr ⟨hmem, (List.prefix_append q [n]).trans hpre⟩
  · -- the directory itself is below none of its children
    intro hsub
    have hself : q ∈ fs.names.keys.filter fun k => q <+: k :=
      Finset.mem_filter.mpr ⟨hq, List.prefix_rfl⟩
    obtain ⟨n, -, hn⟩ := Finset.mem_biUnion.mp (hsub hself)
    have hlen := (Finset.mem_filter.mp hn).2.length_le
    rw [List.length_append, List.length_singleton] at hlen
    omega

/-- The children of a directory that the walk pushes. -/
def childDirs (dir : FsPath) (entries : List (Name × Kind)) : List FsPath :=
  (entries.filter fun entry => decide (entry.2 = .dir)).map fun entry => dir ++ [entry.1]

theorem sum_room_childDirs (h : dirPlace fs dir = some q) :
    ((childDirs dir (fs.entriesAt q)).map (room fs)).sum < room fs dir := by
  have henum := enumerates_entriesAt fs q
  have hnd : (((fs.entriesAt q).filter fun entry => decide (entry.2 = .dir)).map Prod.fst).Nodup := by
    refine (henum.1.filter _).map_on fun e he f hf hef => ?_
    have hk : fs.kindAt (q ++ [e.1]) = some e.2 := (henum.2 e).mp (List.mem_of_mem_filter he)
    have hk' : fs.kindAt (q ++ [f.1]) = some f.2 := (henum.2 f).mp (List.mem_of_mem_filter hf)
    rw [hef, hk'] at hk
    exact Prod.ext hef (Option.some.inj hk).symm
  have hroom : (childDirs dir (fs.entriesAt q)).map (room fs)
      = (((fs.entriesAt q).filter fun entry => decide (entry.2 = .dir)).map Prod.fst).map
        fun n => (fs.names.keys.filter fun k => q ++ [n] <+: k).card := by
    unfold childDirs
    rw [List.map_map, List.map_map]
    apply List.map_congr_left
    intro e he
    obtain ⟨hmem, hkind⟩ := List.mem_filter.mp he
    have hk : fs.kindAt (q ++ [e.1]) = some .dir := by
      have hlisted : fs.kindAt (q ++ [e.1]) = some e.2 := (henum.2 e).mp hmem
      rw [hlisted, of_decide_eq_true hkind]
    show room fs (dir ++ [e.1]) = _
    unfold room
    rw [dirPlace_child h hk]
    rfl
  have hself : room fs dir = (fs.names.keys.filter fun k => q <+: k).card := by
    unfold room
    rw [h]
  rw [hroom, hself]
  exact sum_room_children
    (Finmap.mem_keys.mpr (FileSystem.mem_names_of_kindAt (dirPlace_eq_some_iff.mp h).2)) hnd

theorem sum_room_pushed (pushed stack : List FsPath) :
    ((pushed.reverse ++ stack).map (room fs)).sum
      = (pushed.map (room fs)).sum + (stack.map (room fs)).sum := by
  rw [List.map_append, List.sum_append, List.map_reverse, List.sum_reverse]

/-! ## §3. The walk. -/

/-- What is below a directory: its entries, and what is below those that are directories. -/
theorem hostBelow_iff (h : hostDir fs dir = some q) (p : FsPath) :
    HostBelow fs dir p ↔ p ∈ (fs.entriesAt q).map (fun entry => dir ++ [entry.1]) ∨
      ∃ s ∈ childDirs dir (fs.entriesAt q), HostBelow fs s p := by
  have hlisted : ∀ n kind, hostListed fs dir n = some kind ↔ (n, kind) ∈ fs.entriesAt q := by
    intro n kind
    rw [hostListed_of_hostDir h]
    exact ((enumerates_entriesAt fs q).2 (n, kind)).symm
  constructor
  · intro hp
    cases hp with
    | @child _ n kind hn =>
      exact Or.inl (List.mem_map.mpr ⟨(n, kind), (hlisted _ _).mp hn, rfl⟩)
    | @deeper _ _ n hn hp =>
      refine Or.inr ⟨dir ++ [n], List.mem_map.mpr ⟨(n, .dir), ?_, rfl⟩, hp⟩
      exact List.mem_filter.mpr ⟨(hlisted _ _).mp hn, decide_eq_true rfl⟩
  · rintro (hp | ⟨s, hs, hp⟩)
    · obtain ⟨⟨n, kind⟩, hmem, rfl⟩ := List.mem_map.mp hp
      exact HostBelow.child ((hlisted n kind).mpr hmem)
    · obtain ⟨⟨n, kind⟩, hmem, rfl⟩ := List.mem_map.mp hs
      obtain ⟨hmem, hkind⟩ := List.mem_filter.mp hmem
      obtain rfl : kind = .dir := of_decide_eq_true hkind
      exact HostBelow.deeper ((hlisted n .dir).mpr hmem) hp

/-- Nothing is listed below a directory that cannot be read. -/
theorem not_hostBelow (h : hostDir fs dir = none) (p : FsPath) : ¬ HostBelow fs dir p := by
  have hnone : ∀ n, hostListed fs dir n = none := by
    intro n
    unfold hostListed
    rw [h]
    rfl
  intro hp
  cases hp with
  | child hn =>
    rw [hnone] at hn
    cases hn
  | deeper hn hp =>
    rw [hnone] at hn
    cases hn

/-- Every directory on the stack is one of the host. -/
def OnHost (fs : FileSystem) (stack : List FsPath) : Prop := ∀ s ∈ stack, ∃ q, dirPlace fs s = some q

/-- One round: the top directory gives its entries and way to those that are directories. -/
theorem descendantsLoop_cons (h : hostDir fs dir = some q) (fuel : Nat) (stack : List FsPath) :
    descendantsLoop fs (fuel + 1) (dir :: stack)
      = (fs.entriesAt q).map (fun entry => dir ++ [entry.1]) ++
        descendantsLoop fs fuel ((childDirs dir (fs.entriesAt q)).reverse ++ stack) := by
  rw [descendantsLoop, readDir_of_hostDir h]
  rfl

/-- A directory that cannot be read gives nothing. -/
theorem descendantsLoop_noDir (h : hostDir fs dir = none) (fuel : Nat) (stack : List FsPath) :
    descendantsLoop fs (fuel + 1) (dir :: stack) = descendantsLoop fs fuel stack := by
  obtain ⟨errno, hread⟩ := readDir_of_noDir h
  rw [descendantsLoop, hread]

theorem dirPlace_childDirs (h : dirPlace fs dir = some q) {s : FsPath}
    (hs : s ∈ childDirs dir (fs.entriesAt q)) :
    ∃ n, s = dir ++ [n] ∧ fs.kindAt (q ++ [n]) = some .dir ∧ dirPlace fs s = some (q ++ [n]) := by
  obtain ⟨⟨n, kind⟩, hmem, rfl⟩ := List.mem_map.mp hs
  obtain ⟨hmem, hkind⟩ := List.mem_filter.mp hmem
  obtain rfl : kind = .dir := of_decide_eq_true hkind
  have hdir : fs.kindAt (q ++ [n]) = some .dir := ((enumerates_entriesAt fs q).2 (n, .dir)).mp hmem
  exact ⟨n, rfl, hdir, dirPlace_child h hdir⟩

theorem mem_descendantsLoop (p : FsPath) (fuel : Nat) : ∀ stack, OnHost fs stack →
    (stack.map (room fs)).sum ≤ fuel →
    (p ∈ descendantsLoop fs fuel stack ↔ ∃ s ∈ stack, HostBelow fs s p) := by
  induction fuel with
  | zero =>
    intro stack hstack hfuel
    cases stack with
    | nil => simp [descendantsLoop]
    | cons s stack =>
      -- a directory has room for itself
      obtain ⟨q, hq⟩ := hstack s List.mem_cons_self
      have hroom := sum_room_childDirs hq
      rw [List.map_cons, List.sum_cons] at hfuel
      omega
  | succ fuel ih =>
    intro stack hstack hfuel
    cases stack with
    | nil => simp [descendantsLoop]
    | cons s stack =>
      obtain ⟨⟨q, hq⟩, hrest⟩ := List.forall_mem_cons.mp hstack
      rw [List.map_cons, List.sum_cons] at hfuel
      have hroom := sum_room_childDirs hq
      cases hread : hostDir fs s with
      | none =>
        rw [descendantsLoop_noDir hread, ih _ hrest (by omega), List.exists_mem_cons_iff,
          or_iff_right (not_hostBelow hread p)]
      | some q' =>
        obtain rfl : q = q' := Option.some.inj (hq.symm.trans (dirPlace_of_hostDir hread))
        have hpushed : OnHost fs ((childDirs s (fs.entriesAt q)).reverse ++ stack) := by
          intro t ht
          rcases List.mem_append.mp ht with ht | ht
          · obtain ⟨n, -, -, hdir⟩ := dirPlace_childDirs hq (List.mem_reverse.mp ht)
            exact ⟨_, hdir⟩
          · exact hrest t ht
        rw [descendantsLoop_cons hread, List.mem_append,
          ih _ hpushed (by rw [sum_room_pushed]; omega), List.exists_mem_cons_iff,
          hostBelow_iff hread]
        simp only [List.mem_append, List.mem_reverse, or_and_right, exists_or, or_assoc]

theorem recursiveRealDescendants_noDir {d : FsPath} (h : hostDir fs d = none) :
    recursiveRealDescendants fs d = [] := by
  unfold recursiveRealDescendants
  rw [descendantsLoop_noDir h]
  cases fs.names.keys.card <;> rfl

/-- **recursive_real_descendants** finds every node below the directory. -/
theorem mem_recursiveRealDescendants (fs : FileSystem) (d p : FsPath) :
    p ∈ recursiveRealDescendants fs d ↔ HostBelow fs d p := by
  cases hd : hostDir fs d with
  | none =>
    rw [recursiveRealDescendants_noDir hd]
    exact iff_of_false List.not_mem_nil (not_hostBelow hd p)
  | some q =>
    unfold recursiveRealDescendants
    rw [mem_descendantsLoop p _ [d]]
    · simp
    · intro s hs
      rw [List.mem_singleton.mp hs]
      exact ⟨q, dirPlace_of_hostDir hd⟩
    · have hle := room_le fs d
      simp only [List.map_cons, List.map_nil, List.sum_cons, List.sum_nil]
      omega

end Walk

/-! ## §4. Two hosts. -/

section TwoHosts

variable {V : FsPath → Prop} {held : Ino → Prop} {fs fs' : FileSystem} {d : FsPath}

theorem hostDir_agree (h : FileSystem.AgreeOn V held fs fs')
    (hl : FileSystem.Leads V fs fs' true d) : hostDir fs' d = hostDir fs d := by
  unfold hostDir
  rw [h.find hl, h.reader]

/-- Every directory on the stack is at the same place of both hosts, at or below `top`, and can be
read in both or in none. -/
def OnBoth (top : FsPath) (fs fs' : FileSystem) (stack : List FsPath) : Prop :=
  ∀ s ∈ stack, ∃ q, top <+: q ∧ dirPlace fs s = some q ∧ dirPlace fs' s = some q ∧
    fs'.readable q = fs.readable q

/-- With fuel enough for each host, the walk finds the same. -/
theorem descendantsLoop_agree (h : FileSystem.AgreeOn V held fs fs') {top : FsPath}
    (hs : ∀ p ∈ fs.names, Below top p → V p) (hs' : ∀ p ∈ fs'.names, Below top p → V p)
    (fuel : Nat) : ∀ fuel' stack, OnBoth top fs fs' stack → (stack.map (room fs)).sum ≤ fuel →
      (stack.map (room fs')).sum ≤ fuel' →
      descendantsLoop fs' fuel' stack = descendantsLoop fs fuel stack := by
  induction fuel with
  | zero =>
    intro fuel' stack hstack hfuel _
    cases stack with
    | nil => cases fuel' <;> rfl
    | cons s stack =>
      obtain ⟨q, -, hq, -, -⟩ := hstack s List.mem_cons_self
      have hroom := sum_room_childDirs hq
      rw [List.map_cons, List.sum_cons] at hfuel
      omega
  | succ fuel ih =>
    intro fuel' stack hstack hfuel hfuel'
    cases stack with
    | nil => cases fuel' <;> rfl
    | cons s stack =>
      obtain ⟨⟨q, htop, hq, hq', hread⟩, hrest⟩ := List.forall_mem_cons.mp hstack
      have hroom := sum_room_childDirs hq
      have hroom' := sum_room_childDirs hq'
      rw [List.map_cons, List.sum_cons] at hfuel hfuel'
      have hdir : hostDir fs s = if fs.readable q then some q else none := by
        rw [hostDir_eq, hq]
        rfl
      have hdir' : hostDir fs' s = if fs.readable q then some q else none := by
        rw [hostDir_eq, hq', ← hread]
        rfl
      have hbelow : ∀ n, Below top (q ++ [n]) := by
        intro n
        rw [below_iff_length]
        have hlen := htop.length_le
        exact ⟨htop.trans (List.prefix_append q [n]),
          by rw [List.length_append, List.length_singleton]; omega⟩
      have hentries : fs'.entriesAt q = fs.entriesAt q :=
        h.entriesAt (fun n hn => hs _ hn (hbelow n)) fun n hn => hs' _ hn (hbelow n)
      rw [hentries] at hroom'
      have hpushed : OnBoth top fs fs' ((childDirs s (fs.entriesAt q)).reverse ++ stack) := by
        intro t ht
        rcases List.mem_append.mp ht with ht | ht
        · obtain ⟨n, rfl, hkind, hplace⟩ := dirPlace_childDirs hq (List.mem_reverse.mp ht)
          rw [← hentries] at ht
          obtain ⟨m, hm, -, hplace'⟩ := dirPlace_childDirs hq' (List.mem_reverse.mp ht)
          obtain rfl : n = m := List.singleton_injective (List.append_cancel_left hm)
          have hnode : fs'.node (q ++ [n]) = fs.node (q ++ [n]) :=
            h.node (hs _ (FileSystem.mem_names_of_kindAt hkind) (hbelow n))
          refine ⟨q ++ [n], (hbelow n).1, hplace, hplace', ?_⟩
          unfold FileSystem.readable
          rw [hnode, h.reader]
        · exact hrest t ht
      cases fuel' with
      | zero => omega
      | succ fuel' =>
        by_cases hr : fs.readable q = true
        · rw [if_pos hr] at hdir hdir'
          rw [descendantsLoop_cons hdir, descendantsLoop_cons hdir', hentries,
            ih fuel' _ hpushed (by rw [sum_room_pushed]; omega) (by rw [sum_room_pushed]; omega)]
        · rw [if_neg hr] at hdir hdir'
          rw [descendantsLoop_noDir hdir, descendantsLoop_noDir hdir',
            ih fuel' _ hrest (by omega) (by omega)]

/-- **recursive_real_descendants** finds the same on two hosts that agree below the directory. -/
theorem recursiveRealDescendants_agree (h : FileSystem.AgreeOn V held fs fs')
    (hl : FileSystem.Leads V fs fs' true d)
    (hs : ∀ q, fs.locate true d = .ok q → ∀ p ∈ fs.names, Below q p → V p)
    (hs' : ∀ q, fs'.locate true d = .ok q → ∀ p ∈ fs'.names, Below q p → V p) :
    recursiveRealDescendants fs' d = recursiveRealDescendants fs d := by
  have hsame := hostDir_agree h hl
  cases hd : hostDir fs d with
  | none => rw [recursiveRealDescendants_noDir hd, recursiveRealDescendants_noDir (hsame.trans hd)]
  | some q =>
    unfold recursiveRealDescendants
    have hloc := (dirPlace_eq_some_iff.mp (dirPlace_of_hostDir hd)).1
    have hd' := hsame.trans hd
    have hread : ∀ {t : FileSystem}, hostDir t d = some q → t.readable q = true := by
      intro t ht
      rw [hostDir_eq] at ht
      exact (Option.filter_eq_some_iff.mp ht).2
    have hle := room_le fs d
    have hle' := room_le fs' d
    apply descendantsLoop_agree h (hs q hloc) (hs' q (hl.same.trans hloc))
    · intro s hmem
      rw [List.mem_singleton.mp hmem]
      exact ⟨q, List.prefix_rfl, dirPlace_of_hostDir hd, dirPlace_of_hostDir hd',
        (hread hd').trans (hread hd).symm⟩
    · simp only [List.map_cons, List.map_nil, List.sum_cons, List.sum_nil]
      omega
    · simp only [List.map_cons, List.map_nil, List.sum_cons, List.sum_nil]
      omega

end TwoHosts

end Cas.Fuse
