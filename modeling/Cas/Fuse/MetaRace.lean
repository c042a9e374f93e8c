/-
  Cas.Fuse.MetaRace — setattrs of several clients on one entry.

  `UpdateDaemonMeta` reads the metadata of an entry with one message and
  writes the whole record back with a second.  Updates of different fields
  all stand as long as none falls between the two messages of another
  (`updatesStand_run`); one that does is undone by the record that was
  read before it (`updateLost_race`).
-/
import Cas.Lib.Interleave
import Cas.Fuse.Setattr

namespace Cas.Fuse

open Cas.Lib Cas.Host Cas.Syncing

/-! ## §1. Fields. -/

/-- What a setattr can change. -/
inductive MetaField
  | mode
  | uid
  | gid
  | size
  deriving DecidableEq

/-- The value of a field; of the mode, the permission bits. -/
def MetaField.read (md : FileMetadata) : MetaField → UInt64
  | .mode => (md.mode &&& 0o7777).toUInt64
  | .uid => md.uid.toUInt64
  | .gid => md.gid.toUInt64
  | .size => md.size

/-- The rest of a record, without its ctime. -/
def restOf (md : FileMetadata) : UInt32 × UInt64 × UInt64 :=
  (md.mode &&& ~~~0o7777, md.mtime, md.atime)

structure MetaUpdate where
  mode : Option UInt32
  uid : Option UInt32
  gid : Option UInt32
  size : Option UInt64
  deriving DecidableEq

namespace MetaUpdate

/-- The value that an update has for a field. -/
def wants (u : MetaUpdate) : MetaField → Option UInt64
  | .mode => u.mode.map fun v => (v &&& 0o7777).toUInt64
  | .uid => u.uid.map (·.toUInt64)
  | .gid => u.gid.map (·.toUInt64)
  | .size => u.size

def apply (u : MetaUpdate) (env : Env) (md : FileMetadata) : FileMetadata :=
  updateMeta env md u.mode u.uid u.gid u.size

/-- An updated record has the values of the update, and its own where there are none. -/
theorem read_apply (u : MetaUpdate) (env : Env) (md : FileMetadata) (f : MetaField) :
    f.read (u.apply env md) = (u.wants f).getD (f.read md) := by
  obtain ⟨mode, uid, gid, size⟩ := u
  cases f with
  | mode =>
    cases mode with
    | none => rfl
    | some v => exact congrArg UInt32.toUInt64 (merge_and_mask md.mode v 0o7777)
  | uid => cases uid <;> rfl
  | gid => cases gid <;> rfl
  | size => cases size <;> rfl

theorem restOf_apply (u : MetaUpdate) (env : Env) (md : FileMetadata) :
    restOf (u.apply env md) = restOf md := by
  have hbits : (u.apply env md).mode &&& ~~~0o7777 = md.mode &&& ~~~0o7777 := by
    unfold apply updateMeta
    cases u.mode with
    | none => rfl
    | some v =>
      show ((md.mode &&& ~~~0o7777) ||| (v &&& 0o7777)) &&& ~~~0o7777 = _
      rw [or_and_of_disjoint (by decide), UInt32.and_assoc, UInt32.and_self]
  unfold restOf
  rw [hbits]
  rfl

end MetaUpdate

/-! ## §2. The two messages. -/

inductive MetaPhase
  | get
  | put (md : FileMetadata)
  | done
  deriving DecidableEq

structure MetaTask where
  update : MetaUpdate
  phase : MetaPhase
  deriving DecidableEq

/-- A setattr goes on only if `GetFileMeta` found an entry. -/
def afterGetMeta : Response → MetaPhase
  | .getFileMeta (some md) => .put md
  | _ => .done

/-- The daemon serves the next message of a setattr. -/
def metaStep (p : FsPath) (e : Env × DispatchEnv) (s : Server) (t : MetaTask) :
    Option (Server × MetaTask) :=
  match t.phase with
  | .get =>
    let r := dispatch e.2 s (.getFileMeta p)
    some (r.2, { t with phase := afterGetMeta r.1 })
  | .put md =>
    some ((dispatch e.2 s (.putFileMeta p (t.update.apply e.1 md))).2, { t with phase := .done })
  | .done => none

/-- Any number of setattrs on `p`.  The outside world (requests for other paths) leaves the entry
at `p` alone. -/
def metaProtocol (p : FsPath) : Protocol Server MetaTask MetaUpdate (Env × DispatchEnv) Server where
  start update := { update, phase := .get }
  advance := metaStep p
  outside s' s :=
    if s'.state.fuseMap.lookup p = s.state.fuseMap.lookup p then some s' else none

def metaAt (s : Server) (p : FsPath) : Option FileMetadata :=
  (s.state.fuseMap.lookup p).map (·.metadata)

section Served

variable {env : DispatchEnv} {s : Server} {p : FsPath} {md : FileMetadata}

theorem dispatch_getFileMeta (h : metaAt s p = some md) :
    dispatch env s (.getFileMeta p) = (.getFileMeta (some md), s) := by
  rw [← h]
  rfl

theorem metaAt_putFileMeta (h : metaAt s p = some md) (md' : FileMetadata) :
    metaAt (dispatch env s (.putFileMeta p md')).2 p = some md' := by
  obtain ⟨e, he, -⟩ := Option.map_eq_some_iff.mp h
  have hput : dispatch env s (.putFileMeta p md') = (.putFileMeta, s.withState
      { s.state with fuseMap := s.state.fuseMap.insert p { e with metadata := md' } }) := by
    show s.putFileMeta p md' = _
    unfold Server.putFileMeta
    rw [he]
  rw [hput]
  show Option.map _ ((s.state.fuseMap.insert p _).lookup p) = _
  rw [Finmap.lookup_insert]
  rfl

end Served

/-! ## §3. Updates of different fields stand. -/

/-- No field is set by two setattrs. -/
def FieldsApart (pool : Pool Server MetaTask) : Prop :=
  ∀ i j t u, i ≠ j → pool.tasks.lookup i = some t → pool.tasks.lookup j = some u →
    ∀ f, t.update.wants f = none ∨ u.update.wants f = none

/-- All setattrs started so far have finished. -/
def UpdatesFinished (pool : Pool Server MetaTask) : Prop :=
  ∀ i t, pool.tasks.lookup i = some t → t.phase = .done

/-- Every field that is set in `pool` has the value asked for; the others are as in `md₀`. -/
def UpdatesStand (p : FsPath) (md₀ : FileMetadata) (pool : Pool Server MetaTask) : Prop :=
  FieldsApart pool → UpdatesFinished pool → ∃ md, metaAt pool.shared p = some md ∧
    (∀ i t, pool.tasks.lookup i = some t → ∀ f v, t.update.wants f = some v → f.read md = v) ∧
    (∀ f, (∀ i t, pool.tasks.lookup i = some t → t.update.wants f = none) →
      f.read md = f.read md₀) ∧
    restOf md = restOf md₀

/-- The condition on one step: `PutFileMeta` finds in the fields that it does not set what
`GetFileMeta` returned. -/
def FindsUnchanged (p : FsPath) (s : Server) (t : MetaTask) : Prop :=
  match t.phase with
  | .put md => ∀ f, t.update.wants f = none → ∀ stored ∈ metaAt s p, f.read stored = f.read md
  | _ => True

instance {P : MetaField → Prop} [DecidablePred P] : Decidable (∀ f, P f) :=
  decidable_of_iff (P .mode ∧ P .uid ∧ P .gid ∧ P .size)
    ⟨fun h f => by cases f <;> simp only [h], fun h => ⟨h _, h _, h _, h _⟩⟩

instance (p : FsPath) (s : Server) : ∀ t, Decidable (FindsUnchanged p s t)
  | ⟨u, .put md⟩ => inferInstanceAs (Decidable (∀ f, u.wants f = none →
      ∀ stored ∈ metaAt s p, f.read stored = f.read md))
  | ⟨_, .get⟩ => isTrue trivial
  | ⟨_, .done⟩ => isTrue trivial

/-- The invariant: what is written stands, and the records read carry nothing else. -/
structure MetaInv (p : FsPath) (md₀ : FileMetadata) (pool : Pool Server MetaTask)
    (md : FileMetadata) : Prop where
  stored : metaAt pool.shared p = some md
  written : ∀ i t, pool.tasks.lookup i = some t → t.phase = .done →
    ∀ f v, t.update.wants f = some v → f.read md = v
  unwritten : ∀ f, (∀ i t, pool.tasks.lookup i = some t → t.phase = .done →
    t.update.wants f = none) → f.read md = f.read md₀
  rest : restOf md = restOf md₀
  held : ∀ i t md', pool.tasks.lookup i = some t → t.phase = .put md' → restOf md' = restOf md₀

theorem MetaInv.stand {p : FsPath} {md₀ md : FileMetadata} {pool : Pool Server MetaTask}
    (h : MetaInv p md₀ pool md) : UpdatesStand p md₀ pool := by
  intro _ hdone
  refine ⟨md, h.stored, fun i t hi => h.written i t hi (hdone i t hi), fun f hf => ?_, h.rest⟩
  exact h.unwritten f fun i t hi _ => hf i t hi

section Steps

variable {p : FsPath} {md₀ md : FileMetadata} {pool : Pool Server MetaTask} {i : ℕ} {t : MetaTask}

/-- A task that is in its place in the pool or has just been put there. -/
theorem lookup_task {t' : MetaTask} {j : ℕ} {u : MetaTask}
    (hu : (pool.tasks.insert i t').lookup j = some u) :
    (j = i ∧ u = t') ∨ (j ≠ i ∧ pool.tasks.lookup j = some u) := by
  rw [lookup_insert_ite] at hu
  split at hu
  · next heq => exact Or.inl ⟨heq, (Option.some.inj hu).symm⟩
  · next hne => exact Or.inr ⟨hne, hu⟩

/-- A setattr that has not written yet changes nothing. -/
theorem MetaInv.unserved (h : MetaInv p md₀ pool md) {t' : MetaTask} (hnot : t'.phase ≠ .done)
    (hheld : ∀ md', t'.phase = .put md' → restOf md' = restOf md₀)
    (hold : ∀ u, pool.tasks.lookup i = some u → u.phase ≠ .done) {s' : Server}
    (hs' : metaAt s' p = metaAt pool.shared p) :
    MetaInv p md₀ ⟨s', pool.tasks.insert i t'⟩ md where
  stored := hs'.trans h.stored
  written := by
    intro j u hu hdone
    rcases lookup_task hu with ⟨-, rfl⟩ | ⟨-, hj⟩
    · exact absurd hdone hnot
    · exact h.written j u hj hdone
  unwritten := by
    intro f hf
    apply h.unwritten f
    intro j u hj hdone
    have hji : j ≠ i := by
      rintro rfl
      exact hold u hj hdone
    exact hf j u ((Finmap.lookup_insert_of_ne _ hji).trans hj) hdone
  rest := h.rest
  held := by
    intro j u md' hu hput
    rcases lookup_task hu with ⟨-, rfl⟩ | ⟨-, hj⟩
    · exact hheld md' hput
    · exact h.held j u md' hj hput

/-- **The write**: a field that the update leaves out is as it was found. -/
theorem MetaInv.put (h : MetaInv p md₀ pool md) (hapart : FieldsApart pool)
    (hi : pool.tasks.lookup i = some t) {md' : FileMetadata} (hphase : t.phase = .put md')
    (hguard : ∀ f, t.update.wants f = none → f.read md = f.read md') (e : Env × DispatchEnv) :
    MetaInv p md₀ ⟨(dispatch e.2 pool.shared (.putFileMeta p (t.update.apply e.1 md'))).2,
      pool.tasks.insert i { t with phase := .done }⟩ (t.update.apply e.1 md') where
  stored := metaAt_putFileMeta h.stored _
  written := by
    intro j u hu hdone f v hv
    rw [MetaUpdate.read_apply]
    rcases lookup_task hu with ⟨-, rfl⟩ | ⟨hji, hj⟩
    · rw [show t.update.wants f = some v from hv]
      rfl
    · -- nobody else sets this field
      have hnone : t.update.wants f = none := by
        rcases hapart i j t u hji.symm hi hj f with hnone | hnone
        · exact hnone
        · rw [hv] at hnone
          cases hnone
      rw [hnone]
      exact (hguard f hnone).symm.trans (h.written j u hj hdone f v hv)
  unwritten := by
    intro f hf
    have hnone : t.update.wants f = none :=
      hf i { t with phase := .done } (Finmap.lookup_insert _) rfl
    rw [MetaUpdate.read_apply, hnone]
    apply (hguard f hnone).symm.trans
    apply h.unwritten f
    intro j u hj hdone
    have hji : j ≠ i := by
      rintro rfl
      rw [hi] at hj
      cases hj
      rw [hphase] at hdone
      cases hdone
    exact hf j u ((Finmap.lookup_insert_of_ne _ hji).trans hj) hdone
  rest := by
    rw [MetaUpdate.restOf_apply]
    exact h.held i t md' hi hphase
  held := by
    intro j u r hu hput
    rcases lookup_task hu with ⟨-, rfl⟩ | ⟨-, hj⟩
    · cases hput
    · exact h.held j u r hj hput

/-- The setattrs of a pool only become more. -/
theorem FieldsApart.of_step {pool' : Pool Server MetaTask}
    {act : PoolAct MetaUpdate (Env × DispatchEnv) Server} (h : FieldsApart pool')
    (hstep : (metaProtocol p).step pool act = some pool') : FieldsApart pool := by
  have hmono : ∀ j u, pool.tasks.lookup j = some u →
      ∃ u', pool'.tasks.lookup j = some u' ∧ u'.update = u.update := by
    intro j u hj
    rcases (metaProtocol p).step_cases hstep with ⟨i, op, rfl, hi, rfl⟩
      | ⟨i, e, t, s', t', rfl, hi, hadv, rfl⟩ | ⟨s'', s', rfl, hout, rfl⟩
    · have hji : j ≠ i := by
        rintro rfl
        rw [hi] at hj
        cases hj
      exact ⟨u, (Finmap.lookup_insert_of_ne _ hji).trans hj, rfl⟩
    · by_cases hji : j = i
      · subst hji
        obtain htu : t = u := Option.some.inj (hi.symm.trans hj)
        refine ⟨t', Finmap.lookup_insert _, ?_⟩
        rw [← htu]
        have hmeta : metaStep p e pool.shared t = some (s', t') := hadv
        unfold metaStep at hmeta
        cases hphase : t.phase <;> rw [hphase] at hmeta <;> cases hmeta <;> rfl
      · exact ⟨u, (Finmap.lookup_insert_of_ne _ hji).trans hj, rfl⟩
    · exact ⟨u, hj, rfl⟩
  intro i j t u hij hi hj f
  obtain ⟨t', hi', ht⟩ := hmono i t hi
  obtain ⟨u', hj', hu⟩ := hmono j u hj
  rw [← ht, ← hu]
  exact h i j t' u' hij hi' hj' f

end Steps

/-- **One step.** -/
theorem metaInv_step {p : FsPath} {md₀ md : FileMetadata} {pool pool' : Pool Server MetaTask}
    {act : PoolAct MetaUpdate (Env × DispatchEnv) Server} (h : MetaInv p md₀ pool md)
    (hapart : FieldsApart pool) (hguard : Protocol.Guarded (FindsUnchanged p) pool act)
    (hstep : (metaProtocol p).step pool act = some pool') : ∃ md', MetaInv p md₀ pool' md' := by
  rcases (metaProtocol p).step_cases hstep with ⟨i, u, rfl, hi, rfl⟩
    | ⟨i, e, t, s', t', rfl, hi, hadv, rfl⟩ | ⟨s'', s', rfl, hout, rfl⟩
  · refine ⟨md, h.unserved (show MetaPhase.get ≠ .done from nofun) ?_ (fun v hv => ?_) rfl⟩
    · intro md' hput
      cases (show MetaPhase.get = .put md' from hput)
    · rw [hi] at hv
      cases hv
  · have hmeta : metaStep p e pool.shared t = some (s', t') := hadv
    unfold metaStep at hmeta
    cases hphase : t.phase with
    | get =>
      rw [hphase] at hmeta
      simp only [dispatch_getFileMeta h.stored] at hmeta
      cases hmeta
      refine ⟨md, h.unserved (show MetaPhase.put md ≠ .done from nofun) ?_ (fun v hv => ?_) rfl⟩
      · intro md' hput
        cases (show MetaPhase.put md = .put md' from hput)
        exact h.rest
      · rw [hi] at hv
        cases hv
        rw [hphase]
        exact nofun
    | put md' =>
      rw [hphase] at hmeta
      cases hmeta
      have hfound : FindsUnchanged p pool.shared t := hguard t hi
      unfold FindsUnchanged at hfound
      rw [hphase] at hfound
      exact ⟨_, h.put hapart hi hphase (fun f hf => hfound f hf md h.stored) e⟩
    | done =>
      rw [hphase] at hmeta
      cases hmeta
  · have hsame : metaAt s' p = metaAt pool.shared p := by
      have hif : (if s''.state.fuseMap.lookup p = pool.shared.state.fuseMap.lookup p
          then some s'' else none) = some s' := hout
      split at hif
      · next heq =>
        cases hif
        exact congrArg (Option.map _) heq
      · cases hif
    exact ⟨md, hsame.trans h.stored, h.written, h.unwritten, h.rest, h.held⟩

/-- **Updates of different fields all stand.**  In every interleaving of setattrs on an entry in
which each `PutFileMeta` finds what its `GetFileMeta` returned in the fields that it does not set:
whenever all have finished, the entry has every value asked for, and is otherwise as it was. -/
theorem updatesStand_run {p : FsPath} {s : Server} {md₀ : FileMetadata}
    (hentry : metaAt s p = some md₀) {acts : List (PoolAct MetaUpdate (Env × DispatchEnv) Server)}
    (h : StepsMeet (metaProtocol p).step (Protocol.Guarded (FindsUnchanged p)) (Protocol.idle s)
      acts) : AlwaysOn (metaProtocol p).step (UpdatesStand p md₀) (Protocol.idle s) acts := by
  have hempty : ∀ i t, (Protocol.idle s : Pool Server MetaTask).tasks.lookup i ≠ some t := by
    intro i t hi
    cases (Finmap.lookup_empty i).symm.trans hi
  have hstart : MetaInv p md₀ (Protocol.idle s) md₀ :=
    ⟨hentry, fun i t hi => absurd hi (hempty i t), fun _ _ => rfl, rfl,
      fun i t _ hi => absurd hi (hempty i t)⟩
  have hall := steps_of_guarded
    (I := fun pool => FieldsApart pool → ∃ md, MetaInv p md₀ pool md)
    (fun pool act pool' hinv hguard hstep hapart => by
      have hbefore := hapart.of_step hstep
      obtain ⟨md, hmd⟩ := hinv hbefore
      exact metaInv_step hmd hbefore hguard hstep) (fun _ => ⟨md₀, hstart⟩) h
  intro pre hpre pool hrun hapart hdone
  obtain ⟨md, hmd⟩ := hall pre hpre pool hrun hapart
  exact hmd.stand hapart hdone

/-- A daemon with a directory at `/a`. -/
def dirAtA : Server := (dispatch .quiet (Server.init "") (.putDir [.a] .zero)).2

def chmodA : MetaUpdate := ⟨some 0o700, none, none, none⟩

def chownA : MetaUpdate := ⟨none, some 7, none, none⟩

/-- A chmod and, after it, a chown. -/
theorem updatesStand_in_turn :
    let acts := [PoolAct.start 0 chmodA, .start 1 chownA, .advance 0 (Env.quiet, .quiet),
      .advance 0 (Env.quiet, .quiet), .advance 1 (Env.quiet, .quiet),
      .advance 1 (Env.quiet, .quiet)]
    AlwaysOn (metaProtocol [.a]).step (UpdatesStand [.a] .zero) (Protocol.idle dirAtA) acts := by
  intro acts
  exact updatesStand_run (by decide) (by decide)

/-- A chown between the two messages of a chmod is undone. -/
theorem updateLost_race :
    let acts := [PoolAct.start 0 chmodA, .start 1 chownA, .advance 0 (Env.quiet, .quiet),
      .advance 1 (Env.quiet, .quiet), .advance 1 (Env.quiet, .quiet),
      .advance 0 (Env.quiet, .quiet)]
    ¬ AlwaysOn (metaProtocol [.a]).step (UpdatesStand [.a] .zero) (Protocol.idle dirAtA) acts := by
  intro acts h
  let pool : Pool Server MetaTask := ((run (metaProtocol [.a]).step (Protocol.idle dirAtA) acts).getD
    (Protocol.idle dirAtA))
  have hrun : run (metaProtocol [.a]).step (Protocol.idle dirAtA) acts = some pool := rfl
  have htasks : pool.tasks = (Finmap.singleton 0 ⟨chmodA, .done⟩).insert 1 ⟨chownA, .done⟩ := by
    decide
  have hcases : ∀ i t, pool.tasks.lookup i = some t →
      (i = 0 ∧ t = ⟨chmodA, .done⟩) ∨ (i = 1 ∧ t = ⟨chownA, .done⟩) := by
    intro i t hi
    rw [htasks, lookup_insert_ite] at hi
    split at hi
    · next heq => exact Or.inr ⟨heq, (Option.some.inj hi).symm⟩
    · obtain ⟨rfl, rfl⟩ := lookup_singleton_eq_some.mp hi
      exact Or.inl ⟨rfl, rfl⟩
  have hapart : FieldsApart pool := by
    intro i j t u hij hi hj f
    rcases hcases i t hi with ⟨rfl, rfl⟩ | ⟨rfl, rfl⟩ <;>
      rcases hcases j u hj with ⟨rfl, rfl⟩ | ⟨rfl, rfl⟩
    · exact absurd rfl hij
    · cases f <;> simp [chmodA, chownA, MetaUpdate.wants]
    · cases f <;> simp [chmodA, chownA, MetaUpdate.wants]
    · exact absurd rfl hij
  have hdone : UpdatesFinished pool := by
    intro i t hi
    rcases hcases i t hi with ⟨-, rfl⟩ | ⟨-, rfl⟩ <;> rfl
  obtain ⟨md, hmd, hset, -⟩ := h _ List.prefix_rfl pool hrun hapart hdone
  have huid : MetaField.uid.read md = 7 := hset 1 ⟨chownA, .done⟩ (by decide) .uid 7 rfl
  have hstored : (metaAt pool.shared [.a]).map (MetaField.uid.read ·) = some 0 := by decide
  rw [hmd] at hstored
  exact absurd (huid.symm.trans (Option.some.inj hstored)) (by decide)

/-! ## §4. A setattr sends these messages. -/

/-- Without interruption the two messages are what `UpdateDaemonMeta` does. -/
theorem setattr_messages {pol : Policy} {env : Env} {w : World} {p : FsPath} {ino : UInt64}
    (hq : env.faults = []) (hino : w.inodes.getPath ino = some p)
    (hmode : pol.classify p ≠ .passthrough) (u : MetaUpdate) :
    (serveFuse pol env w (.setattr ino u.mode u.uid u.gid u.size none)).2.daemon
      = ((metaProtocol p).alone (env, env.dispatchEnv w.host) 2 w.daemon
          ((metaProtocol p).start u)).1 := by
  have hq₀ : ({ w with faults := env.faults } : World).faults = [] := hq
  have hdecide : decideSetattr (loadSetattrState pol p false false u.mode u.uid u.gid u.size)
      = .updateDaemonMeta := by
    unfold decideSetattr loadSetattrState
    cases hp : pol.classify p with
    | passthrough => exact absurd hp hmode
    | fuseOnly => rfl
    | copyOnWrite => rfl
  obtain ⟨faults, hrun⟩ := run_setattrMeta env p u.mode u.uid u.gid u.size
    { w with faults := env.faults }
  have hpath : pathOf ino { w with faults := env.faults } = .ok p { w with faults := env.faults } :=
    pathOf_ok hino
  have hfile : openFile? none { w with faults := env.faults }
      = .ok none { w with faults := env.faults } := rfl
  -- the reply is a stat, which leaves the daemon alone
  have hreply : ∀ D, Keeps (fun v : World => v.daemon = D) (attrReply pol env p) := by
    intro D
    have honly : DaemonOnly fun v : World => v.daemon = D := fun v v' hv hD => hv.trans hD
    exact keeps_attrReply pol env (fun _ _ hD => hD) honly.tables p
  rw [serveFuse_world]
  show (endState (setattr pol env ino u.mode u.uid u.gid u.size none _)).daemon = _
  unfold setattr
  rw [run_bind_ok hpath, run_bind_ok (connectDaemon_quiet hq₀), run_bind_ok hfile]
  show (endState ((applySetattr env (decideSetattr (loadSetattrState pol p false false u.mode u.uid
    u.gid u.size)) p none u.mode u.uid u.gid u.size >>= fun _ => attrReply pol env p
      : FuseM Reply) _)).daemon = _
  rw [hdecide, run_bind_ok (show applySetattr env .updateDaemonMeta p none u.mode u.uid u.gid u.size
    _ = _ from hrun)]
  apply (hreply _).endState
  have harrives : metaArrives env.faults := by
    rw [hq]
    exact ⟨rfl, rfl⟩
  have hentry : ({ w with faults := env.faults } : World).entry p = w.entry p := rfl
  dsimp only
  rw [hentry]
  unfold Protocol.alone
  show _ = ((metaProtocol p).alone (env, env.dispatchEnv w.host) 1 w.daemon
    ⟨u, afterGetMeta (.getFileMeta ((w.entry p).map (·.metadata)))⟩).1
  cases w.entry p with
  | none => rfl
  | some e =>
    show (if metaArrives env.faults then _ else _) = _
    rw [if_pos harrives]
    rfl

end Cas.Fuse
