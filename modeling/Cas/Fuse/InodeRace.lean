/-
  Cas.Fuse.InodeRace — `InodeTable::get_or_insert` as the FUSE threads run it.

  The two maps and the counter of the table are concurrent objects, and a
  call uses them one after the other: look the path up, take a number,
  insert it into `ino_to_path`, insert it into `path_to_ino`.  Run without
  interruption these steps are `InodeTable.getOrInsert`
  (`getOrInsert_eq_alone`).

  A number is taken once, so whatever the interleaving no two paths share
  one.  The converse needs luck: two calls that both look a path up before
  either inserts it return two numbers for it.

  Main results:
    • `inode_numbers_agree` — different paths have different numbers, and
      every number returned leads back to its path; and one path has one
      number as long as no call inserts a path that has been inserted since
      the call looked it up.
-/
import Cas.Lib.Interleave
import Cas.Fuse.World

namespace Cas.Fuse

open Cas.Lib Cas.Host Cas.Syncing

/-! ## §1. The steps of one call. -/

/-- The table, and the paths that numbers have been taken for, in order. -/
structure SharedTable where
  table : InodeTable
  taken : List FsPath
  deriving DecidableEq

inductive InodePhase
  | lookup
  | take
  | insertPath (ino : UInt64)
  | insertIno (ino : UInt64)
  | done (ino : UInt64)
  deriving DecidableEq

structure InodeTask where
  path : FsPath
  phase : InodePhase
  deriving DecidableEq

/-- What a call does after `path_to_ino.get`. -/
def afterGet : Option UInt64 → InodePhase
  | some ino => .done ino
  | none => .take

/-- One atomic step of `get_or_insert`. -/
def inodeStep (s : SharedTable) (t : InodeTask) : Option (SharedTable × InodeTask) :=
  match t.phase with
  | .lookup => some (s, { t with phase := afterGet (s.table.pathToIno.lookup t.path) })
  | .take => some (⟨{ s.table with nextIno := s.table.nextIno + 1 }, s.taken ++ [t.path]⟩,
      { t with phase := .insertPath s.table.nextIno })
  | .insertPath ino => some (⟨{ s.table with inoToPath := s.table.inoToPath.insert ino t.path },
      s.taken⟩, { t with phase := .insertIno ino })
  | .insertIno ino => some (⟨{ s.table with pathToIno := s.table.pathToIno.insert t.path ino },
      s.taken⟩, { t with phase := .done ino })
  | .done _ => none

/-- Any number of calls, on any paths. -/
def inodeProtocol : Protocol SharedTable InodeTask FsPath Unit Empty where
  start path := { path, phase := .lookup }
  advance _ := inodeStep
  outside := nofun

/-- A table in which nobody has taken a number. -/
def SharedTable.new (root : FsPath) : SharedTable := ⟨.new root, []⟩

/-- The steps of a call that nothing interrupts are `get_or_insert`. -/
theorem getOrInsert_eq_alone (s : SharedTable) (path : FsPath) :
    let r := s.table.getOrInsert path
    let u := inodeProtocol.alone () 4 s (inodeProtocol.start path)
    u.1.table = r.2 ∧ u.2 = ⟨path, .done r.1⟩ := by
  have hget : inodeProtocol.advance () s (inodeProtocol.start path)
      = some (s, ⟨path, afterGet (s.table.pathToIno.lookup path)⟩) := rfl
  rw [Protocol.alone_succ _ 3 hget]
  unfold InodeTable.getOrInsert
  cases s.table.pathToIno.lookup path with
  | some ino => exact ⟨rfl, rfl⟩
  | none => exact ⟨rfl, rfl⟩

/-! ## §2. What a number stands for. -/

/-- The number that the call taking the `k`-th one gets. -/
def nthIno (k : ℕ) : UInt64 := 2 + UInt64.ofNat k

theorem nthIno_succ (k : ℕ) : nthIno (k + 1) = nthIno k + 1 := by
  unfold nthIno
  rw [UInt64.ofNat_add, ← UInt64.add_assoc]
  rfl

theorem toNat_nthIno (k : ℕ) : (nthIno k).toNat = (2 + k) % 2 ^ 64 := by
  unfold nthIno
  rw [UInt64.toNat_add, UInt64.toNat_ofNat']
  show (2 + k % 2 ^ 64) % 2 ^ 64 = _
  omega

theorem nthIno_inj {j k : ℕ} (hj : j < 2 ^ 64) (hk : k < 2 ^ 64) (h : nthIno j = nthIno k) :
    j = k := by
  have hnat := congrArg UInt64.toNat h
  rw [toNat_nthIno, toNat_nthIno] at hnat
  omega

theorem nthIno_ne_one {k : ℕ} (hk : k + 1 < 2 ^ 64) : nthIno k ≠ 1 := by
  intro h
  have hnat := congrArg UInt64.toNat h
  rw [toNat_nthIno] at hnat
  have hone : (1 : UInt64).toNat = 1 := rfl
  omega

/-- `ino` was taken for `path`; the root has 1 from the start. -/
def TakenFor (root : FsPath) (taken : List FsPath) (ino : UInt64) (path : FsPath) : Prop :=
  (ino = 1 ∧ path = root) ∨ ∃ k, taken[k]? = some path ∧ ino = nthIno k

section TakenFor

variable {root path path' : FsPath} {taken : List FsPath} {ino : UInt64}

theorem TakenFor.append (h : TakenFor root taken ino path) (path' : FsPath) :
    TakenFor root (taken ++ [path']) ino path := by
  obtain h | ⟨k, hk, hino⟩ := h
  · exact Or.inl h
  · obtain ⟨hlt, -⟩ := List.getElem?_eq_some_iff.mp hk
    exact Or.inr ⟨k, by rw [List.getElem?_append_left hlt, hk], hino⟩

theorem takenFor_last (root path : FsPath) (taken : List FsPath) :
    TakenFor root (taken ++ [path]) (nthIno taken.length) path :=
  Or.inr ⟨taken.length, by simp, rfl⟩

/-- Before the counter wraps, a number stands for one path. -/
theorem TakenFor.unique (hfew : taken.length < 2 ^ 64) (h : TakenFor root taken ino path)
    (h' : TakenFor root taken ino path') : path = path' := by
  have hbound : ∀ {k p}, taken[k]? = some p → k + 1 < 2 ^ 64 := by
    intro k p hk
    obtain ⟨hlt, -⟩ := List.getElem?_eq_some_iff.mp hk
    omega
  obtain ⟨hone, hroot⟩ | ⟨k, hk, hino⟩ := h <;> obtain ⟨hone', hroot'⟩ | ⟨j, hj, hino'⟩ := h'
  · rw [hroot, hroot']
  · exact absurd (hino'.symm.trans hone) (nthIno_ne_one (hbound hj))
  · exact absurd (hino.symm.trans hone') (nthIno_ne_one (hbound hk))
  · have hjk : j = k := by
      have hj' := hbound hj
      have hk' := hbound hk
      exact nthIno_inj (by omega) (by omega) (hino'.symm.trans hino)
    rw [hjk, hk] at hj
    exact Option.some.inj hj

end TakenFor

/-! ## §3. Numbers lead back to their paths. -/

/-- The number that a completed call returned. -/
def InodeTask.returned (t : InodeTask) : Option UInt64 :=
  match t.phase with
  | .done ino => some ino
  | _ => none

/-- Taking one more number leaves fewer than 2⁶⁴ of them taken. -/
def FewTaken (s : SharedTable) (t : InodeTask) : Prop :=
  t.phase = .take → s.taken.length + 1 < 2 ^ 64

instance (s : SharedTable) (t : InodeTask) : Decidable (FewTaken s t) :=
  inferInstanceAs (Decidable (_ → _))

/-- The table keeps one path for every number, and `path_to_ino` agrees with it. -/
structure TableOk (root : FsPath) (s : SharedTable) : Prop where
  few : s.taken.length < 2 ^ 64
  next : s.table.nextIno = nthIno s.taken.length
  taken : ∀ ino path, s.table.getPath ino = some path → TakenFor root s.taken ino path
  back : ∀ path ino, s.table.pathToIno.lookup path = some ino → s.table.getPath ino = some path

/-- What a call knows of the number it has in hand. -/
def InodeKnows (root : FsPath) (s : SharedTable) (t : InodeTask) : Prop :=
  match t.phase with
  | .lookup => True
  | .take => True
  | .insertPath ino => TakenFor root s.taken ino t.path
  | .insertIno ino => s.table.getPath ino = some t.path
  | .done ino => s.table.getPath ino = some t.path

theorem tableOk_new (root : FsPath) : TableOk root (.new root) where
  few := Nat.two_pow_pos 64
  next := rfl
  taken := by
    intro ino path h
    obtain ⟨rfl, rfl⟩ := lookup_singleton_eq_some.mp h
    exact Or.inl ⟨rfl, rfl⟩
  back := by
    intro path ino h
    obtain ⟨rfl, rfl⟩ := lookup_singleton_eq_some.mp h
    exact Finmap.lookup_singleton_eq

section Steps

variable {root : FsPath} {s s' : SharedTable} {t t' u : InodeTask}

/-- The paths of numbers stay, and so do the numbers taken. -/
structure Grows (s s' : SharedTable) : Prop where
  paths : ∀ ino path, s.table.getPath ino = some path → s'.table.getPath ino = some path
  taken : ∀ root ino path, TakenFor root s.taken ino path → TakenFor root s'.taken ino path

theorem InodeKnows.grow (h : InodeKnows root s t) (hgrow : Grows s s') : InodeKnows root s' t := by
  obtain ⟨path, phase⟩ := t
  cases phase with
  | lookup => trivial
  | take => trivial
  | insertPath ino => exact hgrow.taken _ _ _ h
  | insertIno ino => exact hgrow.paths _ _ h
  | done ino => exact hgrow.paths _ _ h

/-- **One step**: the table stays in order, the task knows its number, and nothing is lost. -/
theorem inodeStep_keeps (hok : TableOk root s) (hknows : InodeKnows root s t)
    (hfew : FewTaken s t) (h : inodeStep s t = some (s', t')) :
    TableOk root s' ∧ InodeKnows root s' t' ∧ Grows s s' := by
  obtain ⟨path, phase⟩ := t
  cases phase with
  | lookup =>
    cases h
    refine ⟨hok, ?_, fun _ _ hp => hp, fun _ _ _ hp => hp⟩
    show InodeKnows root s ⟨path, afterGet (s.table.pathToIno.lookup path)⟩
    cases hino : s.table.pathToIno.lookup path with
    | none => trivial
    | some ino => exact hok.back path ino hino
  | take =>
    cases h
    have hgrow : ∀ r ino p, TakenFor r s.taken ino p → TakenFor r (s.taken ++ [path]) ino p :=
      fun r ino p hp => hp.append path
    refine ⟨⟨?_, ?_, fun ino p hp => hgrow _ _ _ (hok.taken ino p hp), hok.back⟩, ?_,
      fun _ _ hp => hp, hgrow⟩
    · show (s.taken ++ [path]).length < 2 ^ 64
      have hroom := hfew rfl
      simp only [List.length_append, List.length_singleton]
      exact hroom
    · show s.table.nextIno + 1 = nthIno (s.taken ++ [path]).length
      rw [hok.next, List.length_append, List.length_singleton, nthIno_succ]
    · show TakenFor root (s.taken ++ [path]) s.table.nextIno path
      rw [hok.next]
      exact takenFor_last root path s.taken
  | insertPath ino =>
    cases h
    -- whoever has this number has it for this path
    have hpaths : ∀ n p, s.table.getPath n = some p →
        (s.table.inoToPath.insert ino path).lookup n = some p := by
      intro n p hp
      rw [lookup_insert_ite]
      split
      · next heq =>
        subst heq
        exact congrArg some (TakenFor.unique hok.few hknows (hok.taken _ p hp))
      · exact hp
    refine ⟨⟨hok.few, hok.next, ?_, fun p n hp => hpaths n p (hok.back p n hp)⟩, ?_, hpaths,
      fun _ _ _ hp => hp⟩
    · intro n p hp
      have hlookup : (s.table.inoToPath.insert ino path).lookup n = some p := hp
      rw [lookup_insert_ite] at hlookup
      split at hlookup
      · next heq =>
        subst heq
        obtain rfl := Option.some.inj hlookup
        exact hknows
      · exact hok.taken n p hlookup
    · exact Finmap.lookup_insert _
  | insertIno ino =>
    cases h
    refine ⟨⟨hok.few, hok.next, hok.taken, ?_⟩, hknows, fun _ _ hp => hp, fun _ _ _ hp => hp⟩
    intro p n hp
    have hlookup : (s.table.pathToIno.insert path ino).lookup p = some n := hp
    rw [lookup_insert_ite] at hlookup
    split at hlookup
    · next heq =>
      subst heq
      obtain rfl := Option.some.inj hlookup
      exact hknows
    · exact hok.back p n hlookup
  | done ino => cases h

end Steps

/-- All along a run with few numbers taken, every call knows its number. -/
theorem inodes_known (root : FsPath) {acts : List (PoolAct FsPath Unit Empty)}
    (hfew : StepsMeet inodeProtocol.step (Protocol.Guarded FewTaken)
      (Protocol.idle (.new root)) acts) :
    AlwaysOn inodeProtocol.step (Protocol.Holds (TableOk root) (InodeKnows root))
      (Protocol.idle (.new root)) acts := by
  apply Protocol.pool_invariant inodeProtocol (G := FewTaken) _ _ _ nofun
    (Protocol.holds_idle (tableOk_new root)) hfew
  · exact fun s x _ => trivial
  · intro e s t s' t' hok hknows hg hstep
    obtain ⟨hok', hknows', -⟩ := inodeStep_keeps hok hknows hg hstep
    exact ⟨hok', hknows'⟩
  · intro e s t s' t' u hok hknows hu hg hstep
    obtain ⟨-, -, hgrow⟩ := inodeStep_keeps hok hknows hg hstep
    exact hu.grow hgrow

/-! ## §4. One number for a path. -/

def InodePhase.insertsIno : InodePhase → Bool
  | .insertIno _ => true
  | _ => false

/-- The path has not been inserted since the call looked it up. -/
def NotInserted (s : SharedTable) (t : InodeTask) : Prop :=
  t.phase.insertsIno = true → s.table.pathToIno.lookup t.path = none

instance (s : SharedTable) (t : InodeTask) : Decidable (NotInserted s t) :=
  inferInstanceAs (Decidable (_ → _))

/-- The number that a call returned is the one registered for its path. -/
def Registered (s : SharedTable) (t : InodeTask) : Prop :=
  ∀ ino, t.returned = some ino → s.table.pathToIno.lookup t.path = some ino

section Registered

variable {s s' : SharedTable} {t t' u : InodeTask}

theorem registered_self (hreg : Registered s t) (h : inodeStep s t = some (s', t')) :
    Registered s' t' := by
  obtain ⟨path, phase⟩ := t
  cases phase with
  | lookup =>
    cases h
    intro ino hret
    cases hino : s.table.pathToIno.lookup path with
    | none => rw [hino] at hret; cases hret
    | some n => rw [hino] at hret; exact hret
  | take => cases h; exact nofun
  | insertPath ino => cases h; exact nofun
  | insertIno ino =>
    cases h
    intro n hret
    obtain rfl : ino = n := Option.some.inj hret
    exact Finmap.lookup_insert _
  | done ino => cases h

theorem registered_other (hreg : Registered s u) (hmissing : NotInserted s t)
    (h : inodeStep s t = some (s', t')) : Registered s' u := by
  obtain ⟨path, phase⟩ := t
  cases phase with
  | lookup => cases h; exact hreg
  | take => cases h; exact hreg
  | insertPath ino => cases h; exact hreg
  | insertIno ino =>
    cases h
    intro n hret
    have hn := hreg n hret
    show (s.table.pathToIno.insert path ino).lookup u.path = some n
    rw [lookup_insert_ite]
    split
    · next heq =>
      -- then the path has a number already
      rw [heq, show s.table.pathToIno.lookup path = none from hmissing rfl] at hn
      cases hn
    · exact hn
  | done ino => cases h

end Registered

/-! ## §5. Completed calls. -/

/-- Completed calls on one path returned one number. -/
def SameNumber (p : Pool SharedTable InodeTask) : Prop :=
  ∀ i j t u m n, p.tasks.lookup i = some t → p.tasks.lookup j = some u →
    t.returned = some m → u.returned = some n → t.path = u.path → m = n

/-- Completed calls on different paths returned different numbers. -/
def DifferentNumbers (p : Pool SharedTable InodeTask) : Prop :=
  ∀ i j t u m n, p.tasks.lookup i = some t → p.tasks.lookup j = some u →
    t.returned = some m → u.returned = some n → t.path ≠ u.path → m ≠ n

/-- **get_path** of a number returned is the path it was returned for. -/
def LeadBack (p : Pool SharedTable InodeTask) : Prop :=
  ∀ i t n, p.tasks.lookup i = some t → t.returned = some n →
    p.shared.table.getPath n = some t.path

theorem leadBack_of_known {root : FsPath} {p : Pool SharedTable InodeTask}
    (h : Protocol.Holds (TableOk root) (InodeKnows root) p) : LeadBack p := by
  intro i t n hi hret
  have hknows := h.tasks i t hi
  obtain ⟨path, phase⟩ := t
  cases phase with
  | done ino =>
    obtain rfl : ino = n := Option.some.inj hret
    exact hknows
  | _ => cases hret

theorem LeadBack.different {p : Pool SharedTable InodeTask} (h : LeadBack p) :
    DifferentNumbers p := by
  intro i j t u m n hi hj hm hn hne heq
  have ht := h i t m hi hm
  have hu := h j u n hj hn
  rw [heq, hu] at ht
  exact hne (Option.some.inj ht).symm

theorem sameNumber_of_registered {p : Pool SharedTable InodeTask}
    (h : Protocol.Holds (fun _ => True) Registered p) : SameNumber p := by
  intro i j t u m n hi hj hm hn heq
  have ht := h.tasks i t hi m hm
  have hu := h.tasks j u hj n hn
  rw [heq, hu] at ht
  exact (Option.some.inj ht).symm

/-- **get_or_insert** in any interleaving. -/
theorem inode_numbers_agree (root : FsPath) (acts : List (PoolAct FsPath Unit Empty))
    (hfew : StepsMeet inodeProtocol.step (Protocol.Guarded FewTaken)
      (Protocol.idle (.new root)) acts) :
    AlwaysOn inodeProtocol.step (fun p => DifferentNumbers p ∧ LeadBack p)
      (Protocol.idle (.new root)) acts ∧
    (StepsMeet inodeProtocol.step (Protocol.Guarded NotInserted)
        (Protocol.idle (.new root)) acts →
      AlwaysOn inodeProtocol.step SameNumber (Protocol.idle (.new root)) acts) := by
  constructor
  · intro pre hpre p hp
    have hback := leadBack_of_known (inodes_known root hfew pre hpre p hp)
    exact ⟨hback.different, hback⟩
  · intro hmissing pre hpre p hp
    have hreg := Protocol.pool_invariant inodeProtocol (G := NotInserted) (I := fun _ => True)
      (Q := Registered) (fun s x _ => nofun)
      (fun e s t s' t' _ hreg _ hstep => ⟨trivial, registered_self hreg hstep⟩)
      (fun e s t s' t' u _ _ hu hg hstep => registered_other hu hg hstep)
      nofun (Protocol.holds_idle trivial) hmissing
    exact sameNumber_of_registered (hreg pre hpre p hp)

/-- Two calls on one path, the second after the first, and one on another path in between. -/
theorem inode_numbers_agree_in_turn :
    let acts := [PoolAct.start 0 [Name.a], .advance 0 (), .start 1 [Name.b], .advance 1 (),
      .advance 1 (), .advance 0 (), .advance 0 (), .advance 0 (), .advance 1 (), .advance 1 (),
      .start 2 [Name.a], .advance 2 ()]
    AlwaysOn inodeProtocol.step (fun p => DifferentNumbers p ∧ LeadBack p)
      (Protocol.idle (.new [])) acts ∧
    AlwaysOn inodeProtocol.step SameNumber (Protocol.idle (.new [])) acts := by
  intro acts
  obtain ⟨hdifferent, hsame⟩ := inode_numbers_agree [] acts (by decide)
  refine ⟨hdifferent, hsame ?_⟩
  decide

/-- Two calls that both look the path up before either inserts it return two numbers. -/
theorem inode_numbers_disagree_race :
    let acts := [PoolAct.start 0 [Name.a], .start 1 [Name.a], .advance 0 (), .advance 1 (),
      .advance 0 (), .advance 0 (), .advance 0 (), .advance 1 (), .advance 1 (), .advance 1 ()]
    StepsMeet inodeProtocol.step (Protocol.Guarded FewTaken) (Protocol.idle (.new [])) acts ∧
    ¬ AlwaysOn inodeProtocol.step SameNumber (Protocol.idle (.new [])) acts := by
  refine ⟨by decide, fun h => ?_⟩
  have hsame := h _ List.prefix_rfl _ rfl 0 1 _ _ 2 3 rfl rfl rfl rfl rfl
  exact absurd hsame (by decide)

end Cas.Fuse
