/-
  Cas.Syncing.Flushing — a snapshot while other connections are served.

  `Flush` and the shutdown hook read `next_id` first and the map after it,
  entry by entry.  Requests on other connections go on in between: an
  ensure request may allocate an object and insert its entry at a key that
  the iteration has still to reach.  The snapshot then holds an id that is
  not below its `next_id`.

  Main results:
    • `snapshot_ids_below` — the ids of a finished snapshot are below its
      `next_id` as long as nobody inserts, at a key still to be read, an
      object allocated after `next_id` was read.
-/
import Mathlib.Logic.Relation
import Cas.Syncing.Crash
import Cas.Syncing.Integrity
import Cas.Syncing.Ensure

namespace Cas.Syncing

open Cas.Lib

/-! ## §1. The snapshot. -/

inductive SnapPhase
  | idle
  | reading (nextId : UInt64) (passed : Finset FsPath) (entries : FuseMap)
  | taken (md : SandboxMeta) (fuseMap : FuseMap)
  deriving DecidableEq

inductive SnapStep
  | readNext
  | pass (path : FsPath)
  | finish

/-- A daemon that takes one snapshot. -/
structure Flushing where
  server : Server
  snap : SnapPhase
  deriving DecidableEq

/-- What the iteration collects at one key. -/
def collectEntry (entries : FuseMap) (path : FsPath) : Option FuseEntry → FuseMap
  | some entry => entries.insert path entry
  | none => entries

/-- The iteration passes every key once, in any order, and ends when all keys of the map have been
passed. -/
def snapStep : SnapStep → Flushing → Option Flushing
  | .readNext, ⟨s, .idle⟩ => some ⟨s, .reading s.state.nextId ∅ ∅⟩
  | .pass path, ⟨s, .reading nextId passed entries⟩ =>
    if path ∈ passed then none
    else some ⟨s, .reading nextId (insert path passed)
      (collectEntry entries path (s.state.fuseMap.lookup path))⟩
  | .finish, ⟨s, .reading nextId passed entries⟩ =>
    if s.state.fuseMap.keys ⊆ passed then
      some ⟨s, .taken { s.state.snapshot with nextId } entries⟩
    else none
  | _, _ => none

/-! ## §2. The requests of the other connections. -/

inductive MovePhase
  | list
  | take (todo : List FsPath)
  | place (path : FsPath) (entry : FuseEntry) (todo : List FsPath)
  | listTable
  | cutTable (subtree : List FsPath)
  | growTable (todo : List FsPath)
  | done (response : Response)
  deriving DecidableEq

/-- `RenameTree` when `tree`, else `RenameFile`. -/
structure MoveTask where
  tree : Bool
  src : FsPath
  dst : FsPath
  phase : MovePhase
  deriving DecidableEq

def moveStart (tree : Bool) (src dst : FsPath) : MoveTask :=
  ⟨tree, src, dst, if tree then .list else .take [src]⟩

/-- One atomic step of a rename: the loop over the map, then the one over the table. -/
def moveStep (s : Server) (t : MoveTask) : Option (Server × MoveTask) :=
  match t.phase with
  | .list => some (s, { t with phase := .take (s.state.pathTree.subtreePaths t.src) })
  | .take [] => some (s, { t with phase := .listTable })
  | .take (old :: todo) =>
    match s.state.fuseMap.lookup old with
    | some entry => some (s.withState { s.state with fuseMap := s.state.fuseMap.erase old },
        { t with phase := .place (ServerState.movedPath t.src t.dst old) entry todo })
    | none =>
      if t.tree then some (s, { t with phase := .take todo })
      else some (s, { t with phase := .done (.error "Source path not found") })
  | .place path entry todo =>
    some (s.withState { s.state with fuseMap := s.state.fuseMap.insert path entry },
      { t with phase := .take todo })
  | .listTable => some (s, { t with phase := .cutTable (s.state.pathTree.subtreePaths t.src) })
  | .cutTable subtree =>
    some (s.withState (s.state.deleteTree t.src), { t with phase := .growTable subtree })
  | .growTable [] =>
    some (s, { t with phase := .done (if t.tree then .renameTree else .renameFile) })
  | .growTable (old :: todo) =>
    some (s.withState (s.state.upsertTree (ServerState.movedPath t.src t.dst old)),
      { t with phase := .growTable todo })
  | .done _ => none

inductive WhiteoutPhase
  | look
  | remove
  | done
  deriving DecidableEq

/-- One atomic step of `DeleteWhiteout`, which lets the entry go before it removes it. -/
def whiteoutStep (path : FsPath) (s : Server) : WhiteoutPhase → Option (Server × WhiteoutPhase)
  | .look =>
    match s.state.fuseMap.lookup path with
    | some existing => if existing.entryType = .whiteout then some (s, .remove) else some (s, .done)
    | none => some (s, .done)
  | .remove => some (s.withState { s.state with fuseMap := s.state.fuseMap.erase path }, .done)
  | .done => none

/-- The requests that touch the map at most once. -/
def Request.touchesOnce : Request → Bool
  | .ensureFileObject _ _ => false
  | .ensureFileObjectFromReal _ _ => false
  | .renameFile _ _ => false
  | .renameTree _ _ => false
  | .deleteWhiteout _ => false
  | _ => true

inductive SharedRequest
  | ensure (path : FsPath) (req : EnsureRequest)
  | move (tree : Bool) (src dst : FsPath)
  | whiteout (path : FsPath)
  | other (req : Request)
  deriving DecidableEq

inductive SharedTask
  | ensure (path : FsPath) (t : EnsureTask)
  | move (t : MoveTask)
  | whiteout (path : FsPath) (phase : WhiteoutPhase)
  | other (req : Request)
  | answered (response : Response)
  deriving DecidableEq

def SharedRequest.start : SharedRequest → SharedTask
  | .ensure path req => .ensure path ⟨req, .lookup⟩
  | .move tree src dst => .move (moveStart tree src dst)
  | .whiteout path => .whiteout path .look
  | .other req => .other req

/-- One atomic step of a request. -/
def sharedStep (env : DispatchEnv) (s : Server) : SharedTask → Option (Server × SharedTask)
  | .ensure path t => (ensureStep path env s t).map fun r => (r.1, .ensure path r.2)
  | .move t => (moveStep s t).map fun r => (r.1, .move r.2)
  | .whiteout path phase => (whiteoutStep path s phase).map fun r => (r.1, .whiteout path r.2)
  | .other req =>
    if req.touchesOnce then
      let r := dispatch env s req
      some (r.2, .answered r.1)
    else none
  | .answered _ => none

/-- Any number of requests beside one snapshot. -/
def flushProtocol : Protocol Flushing SharedTask SharedRequest DispatchEnv SnapStep where
  start := SharedRequest.start
  advance env s t := (sharedStep env s.server t).map fun r => ({ s with server := r.1 }, r.2)
  outside := snapStep

/-! ## §3. A rename that nothing interrupts. -/

section Alone

variable (tree : Bool) (src dst : FsPath)

/-- One step of a rename with the server to itself. -/
def MoveAlone (a b : Server × MoveTask) : Prop := moveStep a.1 a.2 = some b

theorem moveAlone_take (todo : List FsPath) : ∀ s : Server,
    Relation.ReflTransGen MoveAlone (s, ⟨true, src, dst, .take todo⟩)
      (s.withState { s.state with
        fuseMap := todo.foldl (ServerState.moveEntry src dst) s.state.fuseMap },
        ⟨true, src, dst, .listTable⟩) := by
  induction todo with
  | nil => exact fun s => .single rfl
  | cons old todo ih =>
    intro s
    rw [List.foldl_cons]
    unfold ServerState.moveEntry
    cases hold : s.state.fuseMap.lookup old with
    | none =>
      refine .head (b := (s, ⟨true, src, dst, .take todo⟩)) ?_ (ih s)
      unfold MoveAlone moveStep
      simp only [hold]
      rfl
    | some entry =>
      refine .head (b := (s.withState { s.state with fuseMap := s.state.fuseMap.erase old },
        ⟨true, src, dst, .place (ServerState.movedPath src dst old) entry todo⟩)) ?_ ?_
      · unfold MoveAlone moveStep
        simp only [hold]
      · exact .head rfl (ih _)

theorem moveAlone_growTable (todo : List FsPath) : ∀ s : Server,
    Relation.ReflTransGen MoveAlone (s, ⟨tree, src, dst, .growTable todo⟩)
      (s.withState { s.state with
        pathTree := todo.foldl (fun table old => table.insert (ServerState.movedPath src dst old))
          s.state.pathTree },
        ⟨tree, src, dst, .done (if tree then .renameTree else .renameFile)⟩) := by
  induction todo with
  | nil => exact fun s => .single rfl
  | cons old todo ih => exact fun s => .head rfl (ih _)

theorem moveAlone_table (s : Server) :
    Relation.ReflTransGen MoveAlone (s, ⟨tree, src, dst, .listTable⟩)
      (s.withState (s.state.renameTree src dst),
        ⟨tree, src, dst, .done (if tree then .renameTree else .renameFile)⟩) := by
  refine .head rfl (.head rfl ?_)
  exact moveAlone_growTable tree src dst _ _

/-- The request that a rename task answers. -/
def moveRequest (tree : Bool) (src dst : FsPath) : Request :=
  if tree then .renameTree src dst else .renameFile src dst

/-- The steps of a rename that nothing interrupts are `dispatch`. -/
theorem move_alone_eq_dispatch (env : DispatchEnv) (s : Server) :
    let r := dispatch env s (moveRequest tree src dst)
    Relation.ReflTransGen MoveAlone (s, moveStart tree src dst)
      (r.2, ⟨tree, src, dst, .done r.1⟩) := by
  cases tree with
  | true =>
    have hlist : MoveAlone (s, moveStart true src dst)
        (s, ⟨true, src, dst, .take (s.state.pathTree.subtreePaths src)⟩) := rfl
    refine .head hlist ?_
    exact (moveAlone_take src dst _ s).trans (moveAlone_table true src dst _)
  | false =>
    show Relation.ReflTransGen MoveAlone (s, ⟨false, src, dst, .take [src]⟩)
      ((s.renameFile src dst).2, ⟨false, src, dst, .done (s.renameFile src dst).1⟩)
    unfold Server.renameFile
    cases hsrc : s.state.fuseMap.lookup src with
    | none =>
      refine .single ?_
      show (match s.state.fuseMap.lookup src with
        | some entry => _ | none => _ : Option (Server × MoveTask)) = _
      rw [hsrc]
      rfl
    | some entry =>
      have hself : ServerState.movedPath src dst src = dst := by
        unfold ServerState.movedPath
        rw [if_pos List.prefix_rfl, rebase_self_left]
      refine .head (b := (s.withState { s.state with fuseMap := s.state.fuseMap.erase src },
        ⟨false, src, dst, .place (ServerState.movedPath src dst src) entry []⟩)) ?_ ?_
      · show (match s.state.fuseMap.lookup src with
          | some entry => _ | none => _ : Option (Server × MoveTask)) = _
        rw [hsrc]
      · rw [hself]
        exact .head rfl (.head rfl (moveAlone_table false src dst _))

end Alone

/-! ## §4. The condition on one step. -/

/-- The next step allocates an object. -/
def SharedTask.allocates : SharedTask → Bool
  | .ensure _ ⟨_, .allocate⟩ => true
  | _ => false

/-- The object that the next step inserts, and the key; the daemon itself gave the task the id. -/
def SharedTask.carries : SharedTask → Option (FsPath × UInt64)
  | .ensure path ⟨_, .insertExisting id⟩ => some (path, id)
  | .ensure path ⟨_, .insertNew id⟩ => some (path, id)
  | .move ⟨_, _, _, .place path entry _⟩ => entry.objectId.map fun id => (path, id)
  | _ => none

/-- The object that the next step inserts with an id from the client, and the key. -/
def SharedTask.sends : SharedTask → Option (FsPath × UInt64)
  | .other (.upsertFileEntry path id _) => some (path, id)
  | _ => none

/-- The key has been read already, or the id was allocated before `next_id` was read. -/
def SnapPhase.Admits : SnapPhase → FsPath × UInt64 → Prop
  | .reading nextId passed _, x => x.1 ∈ passed ∨ x.2 < nextId
  | _, _ => True

instance : ∀ (snap : SnapPhase) (x : FsPath × UInt64), Decidable (snap.Admits x)
  | .reading nextId passed _, x => inferInstanceAs (Decidable (x.1 ∈ passed ∨ x.2 < nextId))
  | .idle, _ => isTrue trivial
  | .taken _ _, _ => isTrue trivial

/-- The condition on one step: no object allocated after `next_id` was read is inserted at a key
still to be read.  Ids from clients are allocated ones, and the counter does not wrap. -/
structure KeepsBelow (s : Flushing) (t : SharedTask) : Prop where
  room : t.allocates = true → s.server.state.nextId.toNat + 1 < 2 ^ 64
  known : ∀ x ∈ t.sends, x.2 < s.server.state.nextId
  sent : ∀ x ∈ t.sends, s.snap.Admits x
  carried : ∀ x ∈ t.carries, s.snap.Admits x

instance (s : Flushing) (t : SharedTask) : Decidable (KeepsBelow s t) :=
  decidable_of_iff (((t.allocates = true → s.server.state.nextId.toNat + 1 < 2 ^ 64) ∧
      ∀ x ∈ t.sends, x.2 < s.server.state.nextId) ∧
      (∀ x ∈ t.sends, s.snap.Admits x) ∧ ∀ x ∈ t.carries, s.snap.Admits x)
    ⟨fun h => ⟨h.1.1, h.1.2, h.2.1, h.2.2⟩, fun h => ⟨⟨h.room, h.known⟩, h.sent, h.carried⟩⟩

/-! ## §5. One step. -/

/-- Every object of `m'` was at the same key of `m`, or is the one inserted. -/
def Traced (m m' : FuseMap) (inserted : Option (FsPath × UInt64)) : Prop :=
  ∀ p e id, m'.lookup p = some e → e.objectId = some id →
    (∃ e₀, m.lookup p = some e₀ ∧ e₀.objectId = some id) ∨ inserted = some (p, id)

section Traced

variable {m : FuseMap} {inserted : Option (FsPath × UInt64)}

theorem Traced.refl (m : FuseMap) (inserted : Option (FsPath × UInt64)) : Traced m m inserted :=
  fun _ e _ he hid => Or.inl ⟨e, he, hid⟩

theorem traced_erase (m : FuseMap) (path : FsPath) (inserted : Option (FsPath × UInt64)) :
    Traced m (m.erase path) inserted := by
  intro p e id he hid
  rw [lookup_erase_ite] at he
  split at he
  · cases he
  · exact Or.inl ⟨e, he, hid⟩

theorem traced_insert {path : FsPath} {entry : FuseEntry}
    (h : ∀ id, entry.objectId = some id →
      (∃ e₀, m.lookup path = some e₀ ∧ e₀.objectId = some id) ∨ inserted = some (path, id)) :
    Traced m (m.insert path entry) inserted := by
  intro p e id he hid
  rw [lookup_insert_ite] at he
  split at he
  · next heq =>
    cases he
    rw [heq]
    exact h id hid
  · exact Or.inl ⟨e, he, hid⟩

end Traced

/-- Requests that touch the map once: what they insert, and that they allocate nothing. -/
theorem traced_dispatch (env : DispatchEnv) (s : Server) (req : Request)
    (h : req.touchesOnce = true) :
    Traced s.state.fuseMap (dispatch env s req).2.state.fuseMap (SharedTask.other req).sends ∧
    (dispatch env s req).2.state.nextId = s.state.nextId := by
  cases req with
  | ensureFileObject path md => cases h
  | ensureFileObjectFromReal path md => cases h
  | renameFile src dst => cases h
  | renameTree src dst => cases h
  | deleteWhiteout path => cases h
  | getObjectPath id =>
    show Traced _ (s.getObjectPath id).2.state.fuseMap _ ∧ (s.getObjectPath id).2.state.nextId = _
    unfold Server.getObjectPath
    split <;> exact ⟨Traced.refl _ _, rfl⟩
  | upsertFileEntry path id md =>
    refine ⟨traced_insert fun id' hid => Or.inr ?_, rfl⟩
    cases hid
    rfl
  | putFileMeta path md =>
    show Traced _ (s.putFileMeta path md).2.state.fuseMap _ ∧
      (s.putFileMeta path md).2.state.nextId = _
    unfold Server.putFileMeta
    cases hentry : s.state.fuseMap.lookup path with
    | none => exact ⟨Traced.refl _ _, rfl⟩
    | some entry => exact ⟨traced_insert fun id hid => Or.inl ⟨entry, hentry, hid⟩, rfl⟩
  | deleteFile path => exact ⟨traced_erase _ _ _, rfl⟩
  | putDir path md => exact ⟨traced_insert nofun, rfl⟩
  | putSymlink path target md => exact ⟨traced_insert nofun, rfl⟩
  | putWhiteout path => exact ⟨traced_insert nofun, rfl⟩
  | flush =>
    show Traced _ (s.flushRequest env.flushIo env.order).2.state.fuseMap _ ∧
      (s.flushRequest env.flushIo env.order).2.state.nextId = _
    rw [flushRequest_state]
    exact ⟨Traced.refl _ _, rfl⟩
  | getFileMeta path => exact ⟨Traced.refl _ _, rfl⟩
  | getEntry path => exact ⟨Traced.refl _ _, rfl⟩
  | readDirAll path => exact ⟨Traced.refl _ _, rfl⟩
  | listWhiteoutUnder path => exact ⟨Traced.refl _ _, rfl⟩
  | logAccess path operation pid => exact ⟨Traced.refl _ _, rfl⟩

/-- The object in the task's hand was allocated by this daemon. -/
def CarriesBelow (s : Server) (t : SharedTask) : Prop :=
  ∀ x ∈ t.carries, x.2 < s.state.nextId

/-- What one step of a request does. -/
structure StepFacts (s s' : Server) (t t' : SharedTask) : Prop where
  grows : s.state.nextId ≤ s'.state.nextId
  traced : Traced s.state.fuseMap s'.state.fuseMap (t.carries.or t.sends)
  carries : CarriesBelow s' t'

theorem lt_add_one_of_room {n : UInt64} (h : n.toNat + 1 < 2 ^ 64) : n < n + 1 := by
  rw [UInt64.lt_iff_toNat_lt, UInt64.toNat_add]
  show n.toNat < (n.toNat + 1) % 2 ^ 64
  omega

theorem ensureAlloc_nextId (env : DispatchEnv) (path : FsPath) (r : EnsureRequest)
    (store : ObjectStore) : (ensureAlloc env path r store).2.nextId = store.nextId + 1 ∧
      ∀ id, (ensureAlloc env path r store).1 = .ok id → id = store.nextId := by
  unfold ensureAlloc
  split
  · have hcopy := ObjectStore.allocates_putCopyFrom store env.storeIo (env.real path)
    exact ⟨hcopy.burns, fun id hid => (hcopy.onOk id hid).1⟩
  · have hput := ObjectStore.allocates_put store env.storeIo []
    exact ⟨hput.burns, fun id hid => (hput.onOk id hid).1⟩

section Steps

variable {env : DispatchEnv} {s s' : Server}

theorem ensure_facts {path : FsPath} {t t' : EnsureTask}
    (hbelow : IdsBelow s.state.fuseMap s.state.nextId)
    (hroom : (SharedTask.ensure path t).allocates = true → s.state.nextId.toNat + 1 < 2 ^ 64)
    (h : ensureStep path env s t = some (s', t')) :
    StepFacts s s' (.ensure path t) (.ensure path t') := by
  obtain ⟨req, phase⟩ := t
  have hinsert : ∀ id, Traced s.state.fuseMap
      (s.state.fuseMap.insert path (.ofObject req.md id)) (some (path, id)) := by
    intro id
    refine traced_insert fun id' hid => Or.inr ?_
    cases hid
    rfl
  cases phase with
  | lookup =>
    cases h
    refine ⟨UInt64.le_refl _, Traced.refl _ _, ?_⟩
    intro x hx
    cases hfound : reusable s path with
    | none => rw [hfound] at hx; cases hx
    | some id =>
      rw [hfound] at hx
      cases hx
      obtain ⟨entry, hentry, hid⟩ := Option.bind_eq_some_iff.mp hfound
      exact hbelow path entry id hentry (reusableObject_eq_some hid).2.1
  | insertExisting id => cases h; exact ⟨UInt64.le_refl _, hinsert id, nofun⟩
  | allocate =>
    cases h
    obtain ⟨hburns, hok⟩ := ensureAlloc_nextId env path req s.objects
    have hnext : (s.withObjects (ensureAlloc env path req s.objects).2).state.nextId
        = s.state.nextId + 1 := hburns
    have hlt := lt_add_one_of_room (hroom rfl)
    refine ⟨?_, Traced.refl _ _, ?_⟩
    · rw [hnext]
      exact UInt64.le_of_lt hlt
    · intro x hx
      rw [hnext]
      cases hres : (ensureAlloc env path req s.objects).1 with
      | error err => rw [hres] at hx; cases hx
      | ok id =>
        rw [hres] at hx
        cases hx
        show id < s.state.nextId + 1
        rw [show id = s.state.nextId from hok id hres]
        exact hlt
  | insertNew id => cases h; exact ⟨UInt64.le_refl _, hinsert id, nofun⟩
  | reply response => cases h; exact ⟨UInt64.le_refl _, Traced.refl _ _, nofun⟩
  | done response => cases h

theorem move_facts {t t' : MoveTask} (hbelow : IdsBelow s.state.fuseMap s.state.nextId)
    (h : moveStep s t = some (s', t')) : StepFacts s s' (.move t) (.move t') := by
  obtain ⟨tree, src, dst, phase⟩ := t
  cases phase with
  | list => cases h; exact ⟨UInt64.le_refl _, Traced.refl _ _, nofun⟩
  | take todo =>
    cases todo with
    | nil => cases h; exact ⟨UInt64.le_refl _, Traced.refl _ _, nofun⟩
    | cons old todo =>
      unfold moveStep at h
      simp only at h
      cases hold : s.state.fuseMap.lookup old with
      | none =>
        rw [hold] at h
        simp only at h
        split at h <;> cases h <;> exact ⟨UInt64.le_refl _, Traced.refl _ _, nofun⟩
      | some entry =>
        rw [hold] at h
        cases h
        refine ⟨UInt64.le_refl _, traced_erase _ _ _, ?_⟩
        intro x hx
        obtain ⟨id, hid, rfl⟩ := Option.map_eq_some_iff.mp hx
        exact hbelow old entry id hold hid
  | place path entry todo =>
    cases h
    refine ⟨UInt64.le_refl _, traced_insert fun id hid => Or.inr ?_, nofun⟩
    show (entry.objectId.map fun id => (path, id)).or none = some (path, id)
    rw [hid]
    rfl
  | listTable => cases h; exact ⟨UInt64.le_refl _, Traced.refl _ _, nofun⟩
  | cutTable subtree => cases h; exact ⟨UInt64.le_refl _, Traced.refl _ _, nofun⟩
  | growTable todo =>
    cases todo <;> cases h <;> exact ⟨UInt64.le_refl _, Traced.refl _ _, nofun⟩
  | done response => cases h

theorem whiteout_facts {path : FsPath} {phase phase' : WhiteoutPhase}
    (h : whiteoutStep path s phase = some (s', phase')) :
    StepFacts s s' (.whiteout path phase) (.whiteout path phase') := by
  cases phase with
  | look =>
    have hsame : ∀ phase'', StepFacts s s (.whiteout path .look) (.whiteout path phase'') :=
      fun _ => ⟨UInt64.le_refl _, Traced.refl _ _, nofun⟩
    unfold whiteoutStep at h
    simp only at h
    cases hentry : s.state.fuseMap.lookup path with
    | none =>
      rw [hentry] at h
      cases h
      exact hsame _
    | some existing =>
      rw [hentry] at h
      simp only at h
      split at h <;> cases h <;> exact hsame _
  | remove => cases h; exact ⟨UInt64.le_refl _, traced_erase _ _ _, nofun⟩
  | done => cases h

/-- **One step of a request.** -/
theorem sharedStep_facts {t t' : SharedTask} (hbelow : IdsBelow s.state.fuseMap s.state.nextId)
    (hroom : t.allocates = true → s.state.nextId.toNat + 1 < 2 ^ 64)
    (h : sharedStep env s t = some (s', t')) : StepFacts s s' t t' := by
  cases t with
  | ensure path t =>
    obtain ⟨⟨s₁, t₁⟩, hstep, heq⟩ := Option.map_eq_some_iff.mp h
    cases heq
    exact ensure_facts hbelow hroom hstep
  | move t =>
    obtain ⟨⟨s₁, t₁⟩, hstep, heq⟩ := Option.map_eq_some_iff.mp h
    cases heq
    exact move_facts hbelow hstep
  | whiteout path phase =>
    obtain ⟨⟨s₁, t₁⟩, hstep, heq⟩ := Option.map_eq_some_iff.mp h
    cases heq
    exact whiteout_facts hstep
  | other req =>
    unfold sharedStep at h
    simp only at h
    split at h
    · next honce =>
      cases h
      obtain ⟨htraced, hnext⟩ := traced_dispatch env s req honce
      refine ⟨?_, htraced, nofun⟩
      rw [hnext]
      exact UInt64.le_refl _
    · cases h
  | answered response => cases h

end Steps

/-! ## §6. The invariant. -/

/-- What the snapshot has read, and what it has still to read, is below the `next_id` that it
read. -/
def SnapPhase.Sound (fuseMap : FuseMap) : SnapPhase → Prop
  | .idle => True
  | .reading nextId passed entries => IdsBelow entries nextId ∧
      ∀ p ∉ passed, ∀ e id, fuseMap.lookup p = some e → e.objectId = some id → id < nextId
  | .taken md entries => IdsBelow entries md.nextId

/-- All ids of the map are below the counter, and the snapshot is sound. -/
structure Consistent (s : Flushing) : Prop where
  below : IdsBelow s.server.state.fuseMap s.server.state.nextId
  snap : s.snap.Sound s.server.state.fuseMap

theorem SnapPhase.Sound.step {m m' : FuseMap} {inserted : Option (FsPath × UInt64)}
    {snap : SnapPhase} (h : snap.Sound m) (htraced : Traced m m' inserted)
    (hadmits : ∀ x ∈ inserted, snap.Admits x) : snap.Sound m' := by
  cases snap with
  | idle => trivial
  | reading nextId passed entries =>
    obtain ⟨hentries, hunread⟩ := h
    refine ⟨hentries, fun p hp e id he hid => ?_⟩
    obtain ⟨e₀, he₀, hid₀⟩ | hinserted := htraced p e id he hid
    · exact hunread p hp e₀ id he₀ hid₀
    · have hx : p ∈ passed ∨ id < nextId := hadmits (p, id) hinserted
      exact hx.resolve_left hp
  | taken md entries => exact h

/-- A step of a request. -/
theorem consistent_shared {s : Flushing} {s' : Server} {t t' : SharedTask} (h : Consistent s)
    (hcarries : CarriesBelow s.server t) (hkeeps : KeepsBelow s t)
    (hfacts : StepFacts s.server s' t t') : Consistent { s with server := s' } := by
  have hinserted : ∀ x ∈ t.carries.or t.sends,
      x.2 < s.server.state.nextId ∧ s.snap.Admits x := by
    intro x hx
    obtain hx | hx : x ∈ t.carries ∨ x ∈ t.sends := by
      cases hc : t.carries with
      | none => rw [hc] at hx; exact Or.inr hx
      | some y => rw [hc] at hx; exact Or.inl hx
    · exact ⟨hcarries x hx, hkeeps.carried x hx⟩
    · exact ⟨hkeeps.known x hx, hkeeps.sent x hx⟩
  refine ⟨?_, h.snap.step hfacts.traced fun x hx => (hinserted x hx).2⟩
  intro p e id he hid
  have hlt : id < s.server.state.nextId := by
    obtain ⟨e₀, he₀, hid₀⟩ | hnew := hfacts.traced p e id he hid
    · exact h.below p e₀ id he₀ hid₀
    · exact (hinserted _ hnew).1
  exact UInt64.lt_of_lt_of_le hlt hfacts.grows

/-- A step of the snapshot. -/
theorem consistent_snap {s s' : Flushing} {a : SnapStep} (h : Consistent s)
    (hstep : snapStep a s = some s') : Consistent s' ∧ s'.server = s.server := by
  obtain ⟨server, snap⟩ := s
  obtain ⟨hbelow, hsnap⟩ := h
  cases a with
  | readNext =>
    cases snap with
    | idle =>
      cases hstep
      refine ⟨⟨hbelow, ?_, fun p _ e id he hid => hbelow p e id he hid⟩, rfl⟩
      intro p e id he
      rw [Finmap.lookup_empty] at he
      cases he
    | reading nextId passed entries => cases hstep
    | taken md entries => cases hstep
  | pass path =>
    cases snap with
    | idle => cases hstep
    | reading nextId passed entries =>
      obtain ⟨hentries, hunread⟩ := hsnap
      unfold snapStep at hstep
      simp only at hstep
      split at hstep
      · cases hstep
      · next hfresh =>
        cases hstep
        refine ⟨⟨hbelow, ?_, ?_⟩, rfl⟩
        · -- the entry read here was still to be read
          intro p e id he hid
          cases hentry : server.state.fuseMap.lookup path with
          | none =>
            rw [hentry] at he
            exact hentries p e id he hid
          | some entry =>
            rw [hentry] at he
            unfold collectEntry at he
            simp only at he
            rw [lookup_insert_ite] at he
            split at he
            · cases he
              exact hunread path hfresh e id hentry hid
            · exact hentries p e id he hid
        · intro p hp
          exact hunread p fun hpassed => hp (Finset.mem_insert_of_mem hpassed)
    | taken md entries => cases hstep
  | finish =>
    cases snap with
    | idle => cases hstep
    | reading nextId passed entries =>
      unfold snapStep at hstep
      simp only at hstep
      split at hstep
      · cases hstep
        exact ⟨⟨hbelow, hsnap.1⟩, rfl⟩
      · cases hstep
    | taken md entries => cases hstep

/-- The snapshot, once taken, has all its ids below its `next_id`. -/
def SnapshotGood (p : Pool Flushing SharedTask) : Prop :=
  ∀ md fuseMap, p.shared.snap = .taken md fuseMap → IdsBelow fuseMap md.nextId

theorem carriesBelow_start (s : Server) (req : SharedRequest) : CarriesBelow s req.start := by
  cases req with
  | move tree src dst => cases tree <;> exact nofun
  | ensure path req => exact nofun
  | whiteout path => exact nofun
  | other req => exact nofun

/-- **Flush** beside any number of requests. -/
theorem snapshot_ids_below (s : Server) (hs : IdsBelow s.state.fuseMap s.state.nextId)
    (acts : List (PoolAct SharedRequest DispatchEnv SnapStep))
    (h : StepsMeet flushProtocol.step (Protocol.Guarded KeepsBelow)
      (Protocol.idle ⟨s, .idle⟩) acts) :
    AlwaysOn flushProtocol.step SnapshotGood (Protocol.idle ⟨s, .idle⟩) acts := by
  have hadvance : ∀ {e : DispatchEnv} {s : Flushing} {t : SharedTask} {s' t'}, Consistent s →
      KeepsBelow s t → flushProtocol.advance e s t = some (s', t') →
      ∃ server, s' = { s with server } ∧ StepFacts s.server server t t' := by
    intro e s t s' t' hok hg hstep
    obtain ⟨⟨server, t₁⟩, hshared, heq⟩ := Option.map_eq_some_iff.mp hstep
    cases heq
    exact ⟨server, rfl, sharedStep_facts hok.below hg.room hshared⟩
  have hstart : Consistent ⟨s, .idle⟩ := ⟨hs, trivial⟩
  have hall := Protocol.pool_invariant flushProtocol (G := KeepsBelow) (I := Consistent)
    (Q := fun s t => CarriesBelow s.server t) (fun s req _ => carriesBelow_start s.server req)
    ?_ ?_ ?_ (Protocol.holds_idle hstart) h
  · intro pre hpre p hp md fuseMap htaken
    have hsnap := (hall pre hpre p hp).shared.snap
    rw [htaken] at hsnap
    exact hsnap
  · intro e s t s' t' hok hcarries hg hstep
    obtain ⟨server, rfl, hfacts⟩ := hadvance hok hg hstep
    exact ⟨consistent_shared hok hcarries hg hfacts, hfacts.carries⟩
  · intro e s t s' t' u hok _ hu hg hstep
    obtain ⟨server, rfl, hfacts⟩ := hadvance hok hg hstep
    exact fun x hx => UInt64.lt_of_lt_of_le (hu x hx) hfacts.grows
  · intro a s s' hok hstep
    obtain ⟨hok', hserver⟩ := consistent_snap hok hstep
    refine ⟨hok', fun u hu => ?_⟩
    rw [hserver]
    exact hu

/-- An allocation beside the snapshot, at a key that has been passed; and a rename. -/
theorem snapshot_ids_below_passed :
    let acts := [PoolAct.start 0 (.ensure [.a] ⟨false, .zero⟩), .advance 0 .quiet, .advance 0 .quiet,
      .advance 0 .quiet, .start 1 (.move false [.a] [.b]), .outside .readNext,
      .start 2 (.ensure [.c] ⟨false, .zero⟩), .advance 2 .quiet, .advance 2 .quiet,
      .outside (.pass [.c]), .advance 2 .quiet, .advance 1 .quiet, .advance 1 .quiet,
      .outside (.pass [.b]), .outside .finish]
    AlwaysOn flushProtocol.step SnapshotGood (Protocol.idle ⟨Server.init "", .idle⟩) acts := by
  intro acts
  refine snapshot_ids_below (Server.init "") ?_ acts (by decide)
  intro p e id he
  rw [show (Server.init "").state.fuseMap.lookup p = none from Finmap.lookup_empty _] at he
  cases he

/-- An object allocated and inserted between the two reads. -/
theorem not_snapshot_ids_below :
    let acts := [PoolAct.outside SnapStep.readNext, .start 0 (.ensure [.a] ⟨false, .zero⟩),
      .advance 0 .quiet, .advance 0 .quiet, .advance 0 .quiet, .outside (.pass [.a]),
      .outside .finish]
    IdsBelow (Server.init "").state.fuseMap (Server.init "").state.nextId ∧
    ¬ AlwaysOn flushProtocol.step SnapshotGood
      (Protocol.idle ⟨Server.init "", .idle⟩) acts := by
  constructor
  · intro p e id he
    rw [show (Server.init "").state.fuseMap.lookup p = none from Finmap.lookup_empty _] at he
    cases he
  · intro h
    have hgood := h _ List.prefix_rfl _ rfl _ _ rfl
    exact absurd (hgood [.a] (.ofObject .zero 1) 1 (by decide) rfl) (by decide)

end Cas.Syncing
