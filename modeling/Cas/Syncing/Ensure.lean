/-
  Cas.Syncing.Ensure — `EnsureFileObject` as the concurrent tasks run it.

  The daemon answers each connection in a task of its own.  An ensure
  request looks the path up, allocates an object when there is none to
  reuse, inserts the entry, and replies: four steps, with the steps of
  other tasks in between.  Run without interruption they are `dispatch`
  (`run_alone_eq_dispatch`).

  Two tasks that both look up before either inserts allocate two objects,
  and the later insert replaces the earlier entry.  All goes well as long
  as a freshly allocated id is inserted only while the path still has no
  object (`StillMissing`).
-/
import Cas.Lib.Interleave
import Cas.Syncing.Server

namespace Cas.Syncing

open Cas.Lib

/-! ## §1. The steps of one request. -/

/-- `EnsureFileObjectFromReal` when `fromReal`, else `EnsureFileObject`. -/
structure EnsureRequest where
  fromReal : Bool
  md : FileMetadata
  deriving DecidableEq

def EnsureRequest.request (r : EnsureRequest) (path : FsPath) : Request :=
  if r.fromReal then .ensureFileObjectFromReal path r.md else .ensureFileObject path r.md

inductive EnsurePhase
  | lookup
  | insertExisting (id : UInt64)
  | allocate
  | insertNew (id : UInt64)
  | reply (response : Response)
  | done (response : Response)
  deriving DecidableEq

structure EnsureTask where
  req : EnsureRequest
  phase : EnsurePhase
  deriving DecidableEq

/-- The object that a request for `path` would reuse. -/
def reusable (s : Server) (path : FsPath) : Option UInt64 :=
  (s.state.fuseMap.lookup path).bind FuseEntry.reusableObject

def ensureAlloc (env : DispatchEnv) (path : FsPath) (r : EnsureRequest) (store : ObjectStore) :
    Except String UInt64 × ObjectStore :=
  if r.fromReal then store.putCopyFrom env.storeIo (env.real path) else store.allocEmpty env.storeIo

def afterLookup : Option UInt64 → EnsurePhase
  | some id => .insertExisting id
  | none => .allocate

def afterAlloc : Except String UInt64 → EnsurePhase
  | .ok id => .insertNew id
  | .error err => .reply (.error err)

/-- `fuse_map.insert` and `upsert_tree`, and the reply they lead to. -/
def ensureInsert (path : FsPath) (s : Server) (t : EnsureTask) (id : UInt64) :
    Server × EnsureTask :=
  (s.withState (s.state.publish path (.ofObject t.req.md id)),
    { t with phase := .reply (.ensureFileObject id (objectPath id)) })

/-- One atomic step. -/
def ensureStep (path : FsPath) (env : DispatchEnv) (s : Server) (t : EnsureTask) :
    Option (Server × EnsureTask) :=
  match t.phase with
  | .lookup => some (s, { t with phase := afterLookup (reusable s path) })
  | .insertExisting id => some (ensureInsert path s t id)
  | .allocate =>
    let r := ensureAlloc env path t.req s.objects
    some (s.withObjects r.2, { t with phase := afterAlloc r.1 })
  | .insertNew id => some (ensureInsert path s t id)
  | .reply response => some (s, { t with phase := .done response })
  | .done _ => none

/-- Any number of ensure requests for `path`.  The outside world (all other requests) may do
anything to the server except touch the entry at `path`. -/
def ensureProtocol (path : FsPath) :
    Protocol Server EnsureTask EnsureRequest DispatchEnv Server where
  start req := { req, phase := .lookup }
  advance := ensureStep path
  outside s' s :=
    if s'.state.fuseMap.lookup path = s.state.fuseMap.lookup path then some s' else none

/-- The steps of a request that nothing interrupts are `dispatch`. -/
theorem run_alone_eq_dispatch (path : FsPath) (env : DispatchEnv) (s : Server)
    (req : EnsureRequest) :
    let r := dispatch env s (req.request path)
    (ensureProtocol path).alone env 4 s ((ensureProtocol path).start req)
      = (r.2, ⟨req, .done r.1⟩) := by
  have hdispatch : dispatch env s (req.request path)
      = s.ensureObject path req.md (ensureAlloc env path req) := by
    obtain ⟨fromReal, md⟩ := req
    cases fromReal <;> rfl
  have hlookup : (ensureProtocol path).advance env s ((ensureProtocol path).start req)
      = some (s, ⟨req, afterLookup (reusable s path)⟩) := rfl
  rw [hdispatch, Protocol.alone_succ _ 3 hlookup]
  unfold reusable Server.ensureObject
  cases (s.state.fuseMap.lookup path).bind FuseEntry.reusableObject with
  | some id => rfl
  | none =>
    have halloc : (ensureProtocol path).advance env s ⟨req, .allocate⟩
        = some (s.withObjects (ensureAlloc env path req s.objects).2,
            ⟨req, afterAlloc (ensureAlloc env path req s.objects).1⟩) := rfl
    show (ensureProtocol path).alone env 3 s ⟨req, .allocate⟩ = _
    rw [Protocol.alone_succ _ 2 halloc]
    rcases ensureAlloc env path req s.objects with ⟨res, store⟩
    cases res <;> rfl

/-! ## §2. Agreement. -/

/-- The reply that a client holds. -/
def EnsureTask.replied (t : EnsureTask) : Option Response :=
  match t.phase with
  | .done response => some response
  | _ => none

/-- All successful replies carry one id, and it is the id of the entry at `path`. -/
def RepliesAgree (path : FsPath) (p : Pool Server EnsureTask) : Prop :=
  ∀ i t id obj, p.tasks.lookup i = some t → t.replied = some (.ensureFileObject id obj) →
    reusable p.shared path = some id

def EnsurePhase.insertsNew : EnsurePhase → Bool
  | .insertNew _ => true
  | _ => false

/-- The condition on one step: a new id is inserted only while the path still has no object. -/
def StillMissing (path : FsPath) (s : Server) (t : EnsureTask) : Prop :=
  t.phase.insertsNew = true → reusable s path = none

instance (path : FsPath) (s : Server) (t : EnsureTask) : Decidable (StillMissing path s t) :=
  inferInstanceAs (Decidable (_ → _))

/-- The object that a successful reply carries. -/
def ensuredId : Response → Option UInt64
  | .ensureFileObject id _ => some id
  | _ => none

/-- The object whose presence at `path` the task relies on. -/
def EnsurePhase.relies : EnsurePhase → Option UInt64
  | .insertExisting id => some id
  | .reply response => ensuredId response
  | .done response => ensuredId response
  | _ => none

/-- What a task knows of the entry at `path`. -/
def EnsureKnows (path : FsPath) (s : Server) (t : EnsureTask) : Prop :=
  ∀ id, t.phase.relies = some id → reusable s path = some id

theorem reusable_ensureInsert (path : FsPath) (s : Server) (t : EnsureTask) (id : UInt64) :
    reusable (ensureInsert path s t id).1 path = some id := by
  show ((s.state.fuseMap.insert path _).lookup path).bind FuseEntry.reusableObject = some id
  rw [Finmap.lookup_insert]
  rfl

/-- A step that leaves the entry at `path` alone disturbs nobody. -/
theorem EnsureKnows.congr {path : FsPath} {s s' : Server} {t : EnsureTask}
    (h : EnsureKnows path s t) (hs : reusable s' path = reusable s path) :
    EnsureKnows path s' t := by
  intro id hid
  rw [hs]
  exact h id hid

/-- Nobody relies on an object that is not there. -/
theorem EnsureKnows.of_missing {path : FsPath} {s : Server} {t : EnsureTask}
    (h : EnsureKnows path s t) (hs : reusable s path = none) (s' : Server) :
    EnsureKnows path s' t := by
  intro id hid
  have hfound := h id hid
  rw [hs] at hfound
  cases hfound

theorem ensureStep_self {path : FsPath} {env : DispatchEnv} {s s' : Server} {t t' : EnsureTask}
    (hknows : EnsureKnows path s t) (h : ensureStep path env s t = some (s', t')) :
    EnsureKnows path s' t' := by
  obtain ⟨req, phase⟩ := t
  cases phase with
  | lookup =>
    cases h
    intro id hid
    cases hr : reusable s path with
    | none => rw [hr] at hid; cases hid
    | some id' => rw [hr] at hid; exact hid
  | insertExisting id =>
    cases h
    intro id' hid
    rw [← show some id = some id' from hid]
    exact reusable_ensureInsert path s _ id
  | allocate =>
    cases h
    intro id hid
    cases hr : (ensureAlloc env path req s.objects).1 with
    | error err => rw [hr] at hid; cases hid
    | ok id' => rw [hr] at hid; cases hid
  | insertNew id =>
    cases h
    intro id' hid
    rw [← show some id = some id' from hid]
    exact reusable_ensureInsert path s _ id
  | reply response =>
    cases h
    exact hknows
  | done response => cases h

theorem ensureStep_other {path : FsPath} {env : DispatchEnv} {s s' : Server}
    {t t' u : EnsureTask} (hknows : EnsureKnows path s t) (hother : EnsureKnows path s u)
    (hguard : StillMissing path s t) (h : ensureStep path env s t = some (s', t')) :
    EnsureKnows path s' u := by
  obtain ⟨req, phase⟩ := t
  cases phase with
  | lookup => cases h; exact hother
  | insertExisting id =>
    cases h
    -- the entry keeps its object: what the task found is still there
    have hid : reusable s path = some id := hknows id rfl
    apply hother.congr
    rw [hid]
    exact reusable_ensureInsert path s _ id
  | allocate => cases h; exact hother.congr rfl
  | insertNew id =>
    cases h
    exact hother.of_missing (hguard rfl) _
  | reply response => cases h; exact hother
  | done response => cases h

theorem repliesAgree_of_knows {path : FsPath} {p : Pool Server EnsureTask}
    (h : Protocol.Holds (fun _ => True) (EnsureKnows path) p) : RepliesAgree path p := by
  intro i t id obj hi hr
  have hknows := h.tasks i t hi
  obtain ⟨req, phase⟩ := t
  cases phase with
  | done response =>
    obtain rfl : response = .ensureFileObject id obj := Option.some.inj hr
    exact hknows id rfl
  | _ => cases hr

/-- **Agreement.** In every interleaving whose inserts of new ids all find the path still without
an object, all successful replies carry the id that the entry at the path holds. -/
theorem replies_agree (path : FsPath) (s : Server)
    (acts : List (PoolAct EnsureRequest DispatchEnv Server))
    (h : StepsMeet (ensureProtocol path).step (Protocol.Guarded (StillMissing path))
      (Protocol.idle s) acts) :
    AlwaysOn (ensureProtocol path).step (RepliesAgree path) (Protocol.idle s) acts := by
  have hall := Protocol.pool_invariant (ensureProtocol path) (G := StillMissing path)
    (I := fun _ => True) (Q := EnsureKnows path)
    (fun s x _ id hid => by cases hid)
    (fun e s t s' t' _ hknows _ hstep => ⟨trivial, ensureStep_self hknows hstep⟩)
    (fun e s t s' t' u _ hknows hu hguard hstep => ensureStep_other hknows hu hguard hstep)
    (fun d s s' _ hout => ?_) (Protocol.holds_idle trivial) h
  · intro pre hpre t ht
    exact repliesAgree_of_knows (hall pre hpre t ht)
  · unfold ensureProtocol at hout
    simp only at hout
    split at hout
    · next heq =>
      cases hout
      refine ⟨trivial, fun u hu => hu.congr ?_⟩
      unfold reusable
      rw [heq]
    · cases hout

/-- Two requests one after the other: the second finds the object of the first. -/
theorem replies_agree_in_turn :
    let acts := [PoolAct.start 0 ⟨false, .zero⟩, .advance 0 .quiet, .advance 0 .quiet,
      .advance 0 .quiet, .advance 0 .quiet, .start 1 ⟨true, .zero⟩, .advance 1 .quiet,
      .advance 1 .quiet, .advance 1 .quiet]
    AlwaysOn (ensureProtocol [.a]).step (RepliesAgree [.a]) (Protocol.idle (Server.init ""))
      acts := by
  intro acts
  exact replies_agree [.a] (Server.init "") acts (by decide)

/-- Two requests that both look up before either inserts get different objects, and the entry
keeps the second one only. -/
theorem replies_disagree_race :
    let acts := [PoolAct.start 0 ⟨false, .zero⟩, .start 1 ⟨false, .zero⟩, .advance 0 .quiet,
      .advance 1 .quiet, .advance 0 .quiet, .advance 0 .quiet, .advance 0 .quiet,
      .advance 1 .quiet, .advance 1 .quiet, .advance 1 .quiet]
    (run (ensureProtocol [.a]).step (Protocol.idle (Server.init "")) acts).map
        (fun p => (p.tasks.lookup 0, p.tasks.lookup 1, reusable p.shared [.a]))
      = some (some ⟨⟨false, .zero⟩, .done (.ensureFileObject 1 (objectPath 1))⟩,
          some ⟨⟨false, .zero⟩, .done (.ensureFileObject 2 (objectPath 2))⟩, some 2)
    ∧ ¬ AlwaysOn (ensureProtocol [.a]).step (RepliesAgree [.a])
        (Protocol.idle (Server.init "")) acts := by
  refine ⟨by decide, fun h => ?_⟩
  have hagree := h _ List.prefix_rfl _ rfl 0 _ 1 (objectPath 1) rfl rfl
  exact absurd hagree (by decide)

end Cas.Syncing
