/-
  Cas.Fuse.Masking — creates and unlinks of several clients on one path.

  On a CopyOnWrite path `create`, `mkdir` and `symlink` publish an entry
  and clear a whiteout with a second message; `unlink` deletes the entry
  and writes a whiteout with a second message.  Between the two messages
  of one client anything may happen.  The host node stays masked as long
  as no late `DeleteWhiteout` finds a whiteout: one that does removes
  what an `unlink` of another client has put there (`ClearsNothing`).
-/
import Cas.Lib.Interleave
import Cas.Syncing.Coherence
import Cas.Fuse.CopyOnWrite

namespace Cas.Fuse

open Cas.Lib Cas.Host Cas.Syncing

/-! ## §1. The messages of an operation. -/

/-- An operation, with what its messages carry. -/
inductive MaskOp
  | create (md : FileMetadata)
  | mkdir (md : FileMetadata)
  | symlink (target : Bytes) (md : FileMetadata)
  | unlink
  deriving DecidableEq

namespace MaskOp

def first (p : FsPath) : MaskOp → Request
  | .create md => .ensureFileObject p md
  | .mkdir md => .putDir p md
  | .symlink target md => .putSymlink p target md
  | .unlink => .deleteFile p

def second (p : FsPath) : MaskOp → Request
  | .unlink => .putWhiteout p
  | _ => .deleteWhiteout p

/-- The entries that the operation may have made. -/
def Makes : MaskOp → FuseEntry → Prop
  | .create md, e => ∃ id, e = .ofObject md id
  | .mkdir md, e => e = .ofDir md
  | .symlink target md, e => e = .ofSymlink target md
  | .unlink, _ => False

end MaskOp

inductive MaskPhase
  | first
  | second
  | done
  deriving DecidableEq

structure MaskTask where
  op : MaskOp
  phase : MaskPhase
  deriving DecidableEq

/-- `unlink` ignores how its first message went, the others stop on an error. -/
def afterFirst : MaskOp → Response → MaskPhase
  | .unlink, _ => .second
  | _, .error _ => .done
  | _, _ => .second

/-- The daemon serves the next message of an operation. -/
def maskStep (p : FsPath) (env : DispatchEnv) (s : Server) (t : MaskTask) :
    Option (Server × MaskTask) :=
  match t.phase with
  | .first =>
    let r := dispatch env s (t.op.first p)
    some (r.2, { t with phase := afterFirst t.op r.1 })
  | .second => some ((dispatch env s (t.op.second p)).2, { t with phase := .done })
  | .done => none

/-- Any number of operations on `p`.  The outside world (requests for other paths) leaves the entry
at `p` alone. -/
def maskProtocol (p : FsPath) : Protocol Server MaskTask MaskOp DispatchEnv Server where
  start op := { op, phase := .first }
  advance := maskStep p
  outside s' s :=
    if s'.state.fuseMap.lookup p = s.state.fuseMap.lookup p then some s' else none

/-! ## §2. What a message does to the entry. -/

def entryAt (s : Server) (p : FsPath) : Option FuseEntry := s.state.fuseMap.lookup p

section Messages

variable (env : DispatchEnv) (s : Server) (p : FsPath)

theorem entryAt_ensure (md : FileMetadata) :
    entryAt (dispatch env s (.ensureFileObject p md)).2 p = entryAt s p ∨
      ∃ id, entryAt (dispatch env s (.ensureFileObject p md)).2 p = some (.ofObject md id) := by
  rcases ensureObject_mapTree s p md fun store => store.allocEmpty env.storeIo with
    ⟨hm, -⟩ | ⟨id, hm, -⟩
  · exact Or.inl (congrArg (fun m => m.lookup p) hm)
  · refine Or.inr ⟨id, (congrArg (fun m => m.lookup p) hm).trans ?_⟩
    exact Finmap.lookup_insert _

/-- The first message publishes an entry of the operation, changes nothing, or is an `unlink`'s. -/
theorem entryAt_first (op : MaskOp) :
    entryAt (dispatch env s (op.first p)).2 p = entryAt s p ∨
      (∃ e, op.Makes e ∧ entryAt (dispatch env s (op.first p)).2 p = some e) ∨
      (op = .unlink ∧ entryAt (dispatch env s (op.first p)).2 p = none) := by
  cases op with
  | create md =>
    rcases entryAt_ensure env s p md with h | ⟨id, h⟩
    · exact Or.inl h
    · exact Or.inr (Or.inl ⟨_, ⟨id, rfl⟩, h⟩)
  | mkdir md => exact Or.inr (Or.inl ⟨_, rfl, Finmap.lookup_insert _⟩)
  | symlink target md => exact Or.inr (Or.inl ⟨_, rfl, Finmap.lookup_insert _⟩)
  | unlink => exact Or.inr (Or.inr ⟨rfl, Finmap.lookup_erase _ _⟩)

theorem entryAt_deleteWhiteout (h : ∀ e ∈ entryAt s p, e.entryType ≠ .whiteout) :
    entryAt (dispatch env s (.deleteWhiteout p)).2 p = entryAt s p := by
  show entryAt (s.deleteWhiteout p).2 p = _
  unfold Server.deleteWhiteout
  cases he : s.state.fuseMap.lookup p with
  | none => rfl
  | some e =>
    simp only [if_neg (h e he)]

theorem entryAt_second {op : MaskOp}
    (h : op ≠ .unlink → ∀ e ∈ entryAt s p, e.entryType ≠ .whiteout) :
    (op = .unlink ∧ entryAt (dispatch env s (op.second p)).2 p = some .whiteout) ∨
      (op ≠ .unlink ∧ entryAt (dispatch env s (op.second p)).2 p = entryAt s p) := by
  cases op with
  | unlink => exact Or.inl ⟨rfl, Finmap.lookup_insert _⟩
  | _ =>
    refine Or.inr ⟨nofun, ?_⟩
    exact entryAt_deleteWhiteout env s p (h nofun)

end Messages

/-! ## §3. The host node stays masked. -/

/-- Stat of the path, which has a host node, answers from the host. -/
def HostShown (s : Server) (p : FsPath) : Prop :=
  decideStat ⟨.copyOnWrite, true, entryAt s p⟩ = .useReal

theorem hostShown_iff (s : Server) (p : FsPath) : HostShown s p ↔ entryAt s p = none := by
  unfold HostShown
  cases entryAt s p with
  | none => exact iff_of_true rfl rfl
  | some e =>
    rw [decideStat_cow_some]
    split
    · exact iff_of_false nofun nofun
    · exact iff_of_false nofun nofun

/-- All operations started so far have finished. -/
def Finished (pool : Pool Server MaskTask) : Prop :=
  ∀ i t, pool.tasks.lookup i = some t → t.phase = .done

instance (pool : Pool Server MaskTask) : Decidable (Finished pool) :=
  decidable_of_iff (∀ i ∈ pool.tasks.keys, ∀ t ∈ pool.tasks.lookup i, t.phase = .done)
    ⟨fun h i t hi => h i (Finmap.mem_keys.mpr (Finmap.lookup_isSome.mp (by rw [hi]; rfl))) t hi,
      fun h i _ t hi => h i t hi⟩

/-- What `p` may show: what masked it before, nothing, or a node that an operation made. -/
def Accounted (e₀ : FuseEntry) (pool : Pool Server MaskTask) (e : FuseEntry) : Prop :=
  e = e₀ ∨ e = .whiteout ∨ ∃ i t, pool.tasks.lookup i = some t ∧ t.op.Makes e

/-- Once all operations have finished the host node is not shown, and what is there is accounted
for. -/
def StaysMasked (p : FsPath) (e₀ : FuseEntry) (pool : Pool Server MaskTask) : Prop :=
  Finished pool → ¬ HostShown pool.shared p ∧
    ∃ e, entryAt pool.shared p = some e ∧ Accounted e₀ pool e

/-- The condition on one step: a `DeleteWhiteout` does not find a whiteout. -/
def ClearsNothing (p : FsPath) (s : Server) (t : MaskTask) : Prop :=
  t.phase = .second → t.op ≠ .unlink → ∀ e ∈ entryAt s p, e.entryType ≠ .whiteout

instance (p : FsPath) (s : Server) (t : MaskTask) : Decidable (ClearsNothing p s t) :=
  inferInstanceAs (Decidable (_ → _ → ∀ e ∈ s.state.fuseMap.lookup p, _))

/-- The invariant: `p` has an entry unless an `unlink` is between its two messages. -/
structure MaskInv (p : FsPath) (e₀ : FuseEntry) (pool : Pool Server MaskTask) : Prop where
  accounted : ∀ e, entryAt pool.shared p = some e → Accounted e₀ pool e
  masked : entryAt pool.shared p = none →
    ∃ i t, pool.tasks.lookup i = some t ∧ t.op = .unlink ∧ t.phase = .second

theorem MaskInv.staysMasked {p : FsPath} {e₀ : FuseEntry} {pool : Pool Server MaskTask}
    (h : MaskInv p e₀ pool) : StaysMasked p e₀ pool := by
  intro hdone
  have hentry : entryAt pool.shared p ≠ none := by
    intro hnone
    obtain ⟨i, t, hi, -, hphase⟩ := h.masked hnone
    rw [hdone i t hi] at hphase
    cases hphase
  obtain ⟨e, he⟩ := Option.ne_none_iff_exists'.mp hentry
  exact ⟨fun hs => hentry ((hostShown_iff _ p).mp hs), e, he, h.accounted e he⟩

/-- A task that takes a step keeps its operation, so what was accounted for still is. -/
theorem Accounted.mono {e₀ e : FuseEntry} {pool pool' : Pool Server MaskTask}
    (h : Accounted e₀ pool e)
    (htasks : ∀ j u, pool.tasks.lookup j = some u → ∃ u', pool'.tasks.lookup j = some u' ∧
      u'.op = u.op) : Accounted e₀ pool' e := by
  rcases h with h | h | ⟨j, u, hj, hu⟩
  · exact Or.inl h
  · exact Or.inr (Or.inl h)
  · obtain ⟨u', hj', hop⟩ := htasks j u hj
    exact Or.inr (Or.inr ⟨j, u', hj', hop ▸ hu⟩)

section Advance

variable {p : FsPath} {e₀ : FuseEntry} {pool : Pool Server MaskTask} {i : ℕ} {t : MaskTask}
  {env : DispatchEnv} (h : MaskInv p e₀ pool) (hi : pool.tasks.lookup i = some t)

include hi in
theorem tasks_advance (phase : MaskPhase) (s' : Server) : ∀ j u, pool.tasks.lookup j = some u →
    ∃ u', (Pool.mk s' (pool.tasks.insert i { t with phase })).tasks.lookup j = some u' ∧
      u'.op = u.op := by
  intro j u hj
  by_cases hji : j = i
  · subst hji
    rw [hi] at hj
    cases hj
    exact ⟨_, Finmap.lookup_insert _, rfl⟩
  · exact ⟨u, (Finmap.lookup_insert_of_ne _ hji).trans hj, rfl⟩

include h hi

/-- A message that leaves the entry alone. -/
theorem maskInv_same {phase : MaskPhase} {s' : Server}
    (hentry : entryAt s' p = entryAt pool.shared p)
    (hother : ¬ (t.op = .unlink ∧ t.phase = .second)) :
    MaskInv p e₀ ⟨s', pool.tasks.insert i { t with phase }⟩ := by
  refine ⟨fun e he => ?_, fun hnone => ?_⟩
  · exact (h.accounted e (hentry ▸ he)).mono (tasks_advance hi phase s')
  · -- the unlink in the middle is another task
    obtain ⟨j, u, hj, hop, hphase⟩ := h.masked (hentry ▸ hnone)
    have hji : j ≠ i := by
      intro e
      subst e
      rw [hi] at hj
      cases hj
      exact hother ⟨hop, hphase⟩
    exact ⟨j, u, (Finmap.lookup_insert_of_ne _ hji).trans hj, hop, hphase⟩

omit h hi in
/-- A message that leaves an entry of its own behind. -/
theorem maskInv_put {phase : MaskPhase} {s' : Server} {e : FuseEntry}
    (hentry : entryAt s' p = some e) (he : e = .whiteout ∨ t.op.Makes e) :
    MaskInv p e₀ ⟨s', pool.tasks.insert i { t with phase }⟩ := by
  refine ⟨fun e' he' => ?_, fun hnone => ?_⟩
  · rw [show entryAt s' p = some e' from he'] at hentry
    cases hentry
    rcases he with he | he
    · exact Or.inr (Or.inl he)
    · exact Or.inr (Or.inr ⟨i, _, Finmap.lookup_insert _, he⟩)
  · rw [show entryAt s' p = none from hnone] at hentry
    cases hentry

theorem maskInv_first : MaskInv p e₀ ⟨(dispatch env pool.shared (t.op.first p)).2,
    pool.tasks.insert i
      { t with phase := afterFirst t.op (dispatch env pool.shared (t.op.first p)).1 }⟩ := by
  by_cases hmid : t.op = .unlink
  · refine ⟨fun e he => ?_, fun _ => ⟨i, _, Finmap.lookup_insert _, hmid, ?_⟩⟩
    · have hnone : entryAt (dispatch env pool.shared (t.op.first p)).2 p = none := by
        rw [hmid]
        exact Finmap.lookup_erase _ _
      rw [show entryAt (dispatch env pool.shared (t.op.first p)).2 p = some e from he] at hnone
      cases hnone
    · show afterFirst t.op _ = .second
      rw [hmid]
      rfl
  · rcases entryAt_first env pool.shared p t.op with hsame | ⟨e, hmakes, hput⟩ | ⟨hunlink, -⟩
    · exact maskInv_same h hi hsame fun hc => hmid hc.1
    · exact maskInv_put hput (Or.inr hmakes)
    · exact absurd hunlink hmid

theorem maskInv_second (hphase : t.phase = .second) (hguard : ClearsNothing p pool.shared t) :
    MaskInv p e₀ ⟨(dispatch env pool.shared (t.op.second p)).2,
      pool.tasks.insert i { t with phase := .done }⟩ := by
  rcases entryAt_second env pool.shared p (hguard hphase) with ⟨-, hput⟩ | ⟨hop, hsame⟩
  · exact maskInv_put hput (Or.inl rfl)
  · exact maskInv_same h hi hsame fun hc => hop hc.1

end Advance

/-- **One step.** -/
theorem maskInv_step {p : FsPath} {e₀ : FuseEntry} {pool pool' : Pool Server MaskTask}
    {act : PoolAct MaskOp DispatchEnv Server} (h : MaskInv p e₀ pool)
    (hguard : Protocol.Guarded (ClearsNothing p) pool act)
    (hstep : (maskProtocol p).step pool act = some pool') : MaskInv p e₀ pool' := by
  rcases (maskProtocol p).step_cases hstep with ⟨i, op, rfl, hi, rfl⟩
    | ⟨i, env, t, s', t', rfl, hi, hadv, rfl⟩ | ⟨s'', s', rfl, hout, rfl⟩
  · -- a new task changes nothing and is in its first phase
    have hold : ∀ j u, pool.tasks.lookup j = some u →
        (pool.tasks.insert i ((maskProtocol p).start op)).lookup j = some u := by
      intro j u hj
      have hji : j ≠ i := by
        intro e
        subst e
        rw [hi] at hj
        cases hj
      exact (Finmap.lookup_insert_of_ne _ hji).trans hj
    refine ⟨fun e he => ?_, fun hnone => ?_⟩
    · exact (h.accounted e he).mono fun j u hj => ⟨u, hold j u hj, rfl⟩
    · obtain ⟨j, u, hj, hu⟩ := h.masked hnone
      exact ⟨j, u, hold j u hj, hu⟩
  · have hmask : maskStep p env pool.shared t = some (s', t') := hadv
    unfold maskStep at hmask
    cases hphase : t.phase with
    | first =>
      rw [hphase] at hmask
      cases hmask
      exact maskInv_first h hi
    | second =>
      rw [hphase] at hmask
      cases hmask
      exact maskInv_second h hi hphase (hguard t hi)
    | done =>
      rw [hphase] at hmask
      cases hmask
  · have hentry : entryAt s' p = entryAt pool.shared p := by
      have hif : (if s''.state.fuseMap.lookup p = pool.shared.state.fuseMap.lookup p
          then some s'' else none) = some s' := hout
      split at hif
      · next heq =>
        cases hif
        exact heq
      · cases hif
    exact ⟨fun e he => h.accounted e (hentry ▸ he), fun hnone => h.masked (hentry ▸ hnone)⟩

/-- **The host node never comes back.** In every interleaving of creates, mkdirs, symlinks and
unlinks on a masked path in which no `DeleteWhiteout` finds a whiteout: whenever all operations
have finished, the path shows what masked it before, nothing, or a node that one of them made. -/
theorem staysMasked_run {p : FsPath} {s : Server} {e₀ : FuseEntry}
    (hmask : entryAt s p = some e₀) {acts : List (PoolAct MaskOp DispatchEnv Server)}
    (h : StepsMeet (maskProtocol p).step (Protocol.Guarded (ClearsNothing p)) (Protocol.idle s)
      acts) : AlwaysOn (maskProtocol p).step (StaysMasked p e₀) (Protocol.idle s) acts := by
  have hstart : MaskInv p e₀ (Protocol.idle s : Pool Server MaskTask) := by
    refine ⟨fun e he => ?_, fun hnone => ?_⟩
    · rw [show entryAt s p = some e from he] at hmask
      cases hmask
      exact Or.inl rfl
    · rw [show entryAt s p = none from hnone] at hmask
      cases hmask
  have hall := steps_of_guarded (I := MaskInv p e₀)
    (fun _ _ _ hinv hguard hstep => maskInv_step hinv hguard hstep) hstart h
  exact fun pre hpre t ht => (hall pre hpre t ht).staysMasked

/-- A daemon with a whiteout at `/a`. -/
def whiteoutAtA : Server := (dispatch .quiet (Server.init "") (.putWhiteout [.a])).2

/-- A create and, after it, an unlink and a mkdir. -/
theorem staysMasked_in_turn :
    let acts := [PoolAct.start 0 (.create .zero), .advance 0 .quiet, .advance 0 .quiet,
      .start 1 .unlink, .advance 1 .quiet, .advance 1 .quiet,
      .start 2 (.mkdir .zero), .advance 2 .quiet, .advance 2 .quiet]
    AlwaysOn (maskProtocol [.a]).step (StaysMasked [.a] .whiteout) (Protocol.idle whiteoutAtA)
      acts := by
  intro acts
  exact staysMasked_run (by decide) (by decide)

/-- An unlink between the two messages of a create: its whiteout is cleared, and the host node
shows. -/
theorem hostShown_race :
    let acts := [PoolAct.start 0 (.create .zero), .advance 0 .quiet, .start 1 .unlink,
      .advance 1 .quiet, .advance 1 .quiet, .advance 0 .quiet]
    (run (maskProtocol [.a]).step (Protocol.idle whiteoutAtA) acts).map
        (fun pool => (pool.tasks.lookup 0, pool.tasks.lookup 1, entryAt pool.shared [.a]))
      = some (some ⟨.create .zero, .done⟩, some ⟨.unlink, .done⟩, none)
    ∧ ¬ AlwaysOn (maskProtocol [.a]).step (StaysMasked [.a] .whiteout)
        (Protocol.idle whiteoutAtA) acts := by
  refine ⟨by decide, fun h => ?_⟩
  have hend := h _ List.prefix_rfl _ rfl (by decide)
  exact hend.1 ((hostShown_iff _ _).mpr (by decide))

/-! ## §4. The executors send these messages. -/

/-- Serve the messages of an operation without interruption. -/
def serveBoth (p : FsPath) (env : DispatchEnv) (s : Server) (op : MaskOp) : Server :=
  match maskStep p env s ⟨op, .first⟩ with
  | none => s
  | some (s', t) => ((maskStep p env s' t).map Prod.fst).getD s'

theorem serveBoth_second {p : FsPath} {env : DispatchEnv} {s : Server} {op : MaskOp}
    (h : afterFirst op (dispatch env s (op.first p)).1 = .second) :
    serveBoth p env s op
      = (dispatch env (dispatch env s (op.first p)).2 (op.second p)).2 := by
  have hfirst : maskStep p env s ⟨op, .first⟩
      = some ((dispatch env s (op.first p)).2, ⟨op, .second⟩) := by
    rw [← h]
    rfl
  unfold serveBoth
  rw [hfirst]
  rfl

theorem serveBoth_done {p : FsPath} {env : DispatchEnv} {s : Server} {op : MaskOp}
    (h : afterFirst op (dispatch env s (op.first p)).1 = .done) :
    serveBoth p env s op = (dispatch env s (op.first p)).2 := by
  have hfirst : maskStep p env s ⟨op, .first⟩
      = some ((dispatch env s (op.first p)).2, ⟨op, .done⟩) := by
    rw [← h]
    rfl
  unfold serveBoth
  rw [hfirst]
  rfl

section Executors

variable {env : Env} {w : World} {p : FsPath} (hq : w.faults = [])

include hq

/-- Whatever the client makes of the reply, the daemon has served the request. -/
theorem endState_call {α : Type} (req : Request) (take : Response → Option α) :
    endState (call env req take w)
      = { w with daemon := (dispatch (env.dispatchEnv w.host) w.daemon req).2 } := by
  unfold call
  rw [run_bind_ok (sendRequest_quiet hq req)]
  cases take (dispatch (env.dispatchEnv w.host) w.daemon req).1 with
  | some a => rfl
  | none => cases (dispatch (env.dispatchEnv w.host) w.daemon req).1 <;> rfl

theorem executeUnlink_messages :
    (endState (executeUnlink env .whiteout p w)).daemon
      = serveBoth p (env.dispatchEnv w.host) w.daemon .unlink := by
  have hdelete : ignore (Client.deleteFile env p) w = .ok () { w with daemon :=
      (dispatch (env.dispatchEnv w.host) w.daemon (.deleteFile p)).2 } := by
    rw [run_ignore]
    unfold Client.deleteFile
    rw [endState_call hq]
  have hput : endState (Client.putWhiteout env p { w with daemon :=
      (dispatch (env.dispatchEnv w.host) w.daemon (.deleteFile p)).2 }) = _ :=
    endState_call (w := { w with daemon := (dispatch _ w.daemon (.deleteFile p)).2 }) hq _ _
  have hexec : executeUnlink env .whiteout p w = Client.putWhiteout env p { w with daemon :=
      (dispatch (env.dispatchEnv w.host) w.daemon (.deleteFile p)).2 } := run_bind_ok hdelete
  rw [hexec, hput]
  rfl

/-- A message that is answered as expected, then the whiteout is cleared. -/
theorem endState_then_deleteWhiteout {req : Request} {reply : Response}
    (hreply : (dispatch (env.dispatchEnv w.host) w.daemon req).1 = reply) :
    endState ((call env req (takeUnit reply) >>= fun _ => ignore (Client.deleteWhiteout env p)
        : FuseM Unit) w)
      = { w with daemon := (dispatch (env.dispatchEnv w.host)
          (dispatch (env.dispatchEnv w.host) w.daemon req).2 (.deleteWhiteout p)).2 } := by
  have hcall : call env req (takeUnit reply) w
      = .ok () { w with daemon := (dispatch (env.dispatchEnv w.host) w.daemon req).2 } := by
    have htake : takeUnit reply reply = some () := if_pos rfl
    unfold call
    rw [run_bind_ok (sendRequest_quiet hq req), hreply, htake]
    rfl
  rw [run_bind_ok hcall, run_ignore]
  exact endState_call (w := { w with daemon := (dispatch _ w.daemon req).2 }) hq _ _

theorem executeMkdir_messages (mode : UInt32) :
    (endState (executeMkdir env .createDaemon p mode w)).daemon
      = serveBoth p (env.dispatchEnv w.host) w.daemon
          (.mkdir (fileMetaNow env 0 (S_IFDIR ||| (mode &&& 0o7777)) env.uid env.gid)) := by
  have hexec : endState (executeMkdir env .createDaemon p mode w) = _ :=
    endState_then_deleteWhiteout hq rfl
  rw [hexec]
  rfl

theorem executeSymlink_messages (target : Bytes) (md : FileMetadata) :
    (endState (executeSymlink env .copyOnWrite p target md w)).daemon
      = serveBoth p (env.dispatchEnv w.host) w.daemon (.symlink target md) := by
  have hexec : endState (executeSymlink env .copyOnWrite p target md w) = _ :=
    endState_then_deleteWhiteout hq rfl
  rw [hexec]
  rfl

omit hq in
/-- Working on object files does not touch the daemon's state. -/
theorem keeps_state_onObjects {α : Type} (state : ServerState)
    (f : FMap ObjectPath Bytes → Except Errno (α × FMap ObjectPath Bytes)) :
    Keeps (fun v : World => v.daemon.state = state) (onObjects f) := by
  intro v hv
  unfold onObjects
  cases f v.daemon.storage.objects with
  | error errno => exact hv
  | ok r => exact hv

omit hq in
/-- `EnsureFileObject` is answered with an object or with an error. -/
theorem ensureObject_reply (s : Server) (md : FileMetadata)
    (alloc : ObjectStore → Except String UInt64 × ObjectStore) :
    (∃ id path, (s.ensureObject p md alloc).1 = .ensureFileObject id path) ∨
      ∃ err, (s.ensureObject p md alloc).1 = .error err := by
  unfold Server.ensureObject
  cases (s.state.fuseMap.lookup p).bind FuseEntry.reusableObject with
  | some id => exact Or.inl ⟨id, _, rfl⟩
  | none =>
    rcases alloc s.objects with ⟨r, store⟩
    cases r with
    | ok id => exact Or.inl ⟨id, _, rfl⟩
    | error err => exact Or.inr ⟨err, rfl⟩

/-- Opening the object afterwards does not touch the daemon's state. -/
theorem executeCreate_messages (mode : UInt32) (flags : OpenFlags) (md : FileMetadata) :
    (endState (executeCreate env .createObject p mode flags md w)).daemon.state
      = (serveBoth p (env.dispatchEnv w.host) w.daemon (.create md)).state := by
  have hsend : sendRequest env (.ensureFileObject p md) w = .ok _ _ := sendRequest_quiet hq _
  rw [executeCreate_createObject]
  rcases ensureObject_reply w.daemon md fun store => store.allocEmpty env.storeIo with
    ⟨id, path, hreply⟩ | ⟨err, hreply⟩
  · have hr : (dispatch (env.dispatchEnv w.host) w.daemon (.ensureFileObject p md)).1
        = .ensureFileObject id path := hreply
    have hcall : Client.ensureFileObject env p md w = .ok (id, path) { w with daemon :=
        (dispatch (env.dispatchEnv w.host) w.daemon (.ensureFileObject p md)).2 } := by
      unfold Client.ensureFileObject call
      rw [run_bind_ok hsend, hr]
      rfl
    have hclear : endState (Client.deleteWhiteout env p { w with daemon :=
        (dispatch (env.dispatchEnv w.host) w.daemon (.ensureFileObject p md)).2 }) = _ :=
      endState_call (w := { w with daemon := (dispatch _ w.daemon _).2 }) hq _ _
    have hserve : serveBoth p (env.dispatchEnv w.host) w.daemon (.create md) = _ :=
      serveBoth_second (by
        show afterFirst (.create md) (dispatch _ _ (.ensureFileObject p md)).1 = _
        rw [hr]
        rfl)
    rw [run_bind_ok hcall, run_bind_ok (run_ignore _ _), hclear, hserve]
    have htail : ∀ state, Keeps (fun v : World => v.daemon.state = state)
        (openObject { flags.options with create := true, mode } path >>= fun file =>
          pure (OpenFile.passthroughObject file id)) := fun state =>
      Keeps.bind (Keeps.bind (keeps_state_onObjects state _) fun _ => Keeps.ret)
        fun _ => Keeps.ret
    exact (htail _).endState rfl
  · have hr : (dispatch (env.dispatchEnv w.host) w.daemon (.ensureFileObject p md)).1
        = .error err := hreply
    have hcall : Client.ensureFileObject env p md w = .error (.syncingClient (.server err))
        { w with daemon :=
          (dispatch (env.dispatchEnv w.host) w.daemon (.ensureFileObject p md)).2 } := by
      unfold Client.ensureFileObject call
      rw [run_bind_ok hsend, hr]
      rfl
    have hserve : serveBoth p (env.dispatchEnv w.host) w.daemon (.create md) = _ :=
      serveBoth_done (by
        show afterFirst (.create md) (dispatch _ _ (.ensureFileObject p md)).1 = _
        rw [hr]
        rfl)
    rw [run_bind_error hcall, hserve]
    rfl

end Executors

end Cas.Fuse
