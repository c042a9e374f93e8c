/-
  Cas.Fuse.CopyUpRace — clients that open one host file for writing at once.

  `execute_open` decides from the entry it has read, and acts on that with
  several messages.  The daemon makes one object for all, but a
  client that found no entry copies the host file onto the object once
  more, over whatever has been written meanwhile.  The bytes written stay
  exactly as long as no such copy changes one of them
  (`writesKept_iff`); in `not_writesKept_race` one does.
-/
import Cas.Fuse.PlainMap
import Cas.Lib.Interleave

namespace Cas.Fuse

open Cas.Lib Cas.Host Cas.Syncing

/-! ## §1. The steps of an open. -/

/-- The flags of an open for writing. -/
abbrev WriteFlags := { flags : OpenFlags // flags.needWrite = true }

/-- What a client does next. -/
inductive CopyUpPhase
  | getEntry
  | getObjectPath (entry : Option FuseEntry)
  | decide (entry : Option FuseEntry) (objectPath : Option ObjectPath)
  | ensure (existing : Option UInt64) (needsEnsure copyUp deleteWhiteout : Bool)
  | copy (id : UInt64) (path : ObjectPath) (copyUp deleteWhiteout : Bool)
  | deleteWhiteout (id : UInt64) (path : ObjectPath) (deleteWhiteout : Bool)
  | openObject (id : UInt64) (path : ObjectPath)
  | write (file : OpenFile)
  | failed

structure CopyUpTask where
  flags : WriteFlags
  phase : CopyUpPhase

/-- The last byte that was written through a handle, by offset. -/
abbrev Written := ℕ → Option UInt8

/-- What the clients share, and what they have written. -/
structure SharedFile where
  world : World
  written : Written

def Written.record (written : Written) (offset : ℕ) (data : Bytes) : Written := fun i =>
  if offset ≤ i ∧ i < offset + data.length then data[i - offset]? else written i

/-- Where a write goes: with `append` to the end of the object. -/
def World.writeOffset (w : World) (fd : Fd) (offset : ℕ) : ℕ :=
  match fd.backing with
  | .object path => if fd.append then ((w.objects.lookup path).getD []).length else offset
  | .host _ => offset

namespace SharedFile

/-- Go on after a part of the open, or give up. -/
def goOn {α : Type} (s : SharedFile) (flags : WriteFlags) (r : EStateM.Result Error World α)
    (next : α → CopyUpPhase) : SharedFile × CopyUpTask :=
  match r with
  | .ok a w => ({ s with world := w }, ⟨flags, next a⟩)
  | .error _ w => ({ s with world := w }, ⟨flags, .failed⟩)

def writeFile (s : SharedFile) (file : OpenFile) (offset : ℕ) (data : Bytes) : SharedFile :=
  match file.file.writeAt offset data s.world with
  | .ok _ w => ⟨w, s.written.record (s.world.writeOffset file.file offset) data⟩
  | .error _ w => { s with world := w }

end SharedFile

def afterDecide : OpenDecision → CopyUpPhase
  | .openObject existing needsEnsure copyUp deleteWhiteout =>
    .ensure existing needsEnsure copyUp deleteWhiteout
  | .notFound | .error | .openReal => .failed

/-- One step of a client; the offset and the data are those of a write. -/
def copyUpStep (pol : Policy) (p : FsPath) (e : Env × ℕ × Bytes) (s : SharedFile)
    (t : CopyUpTask) : Option (SharedFile × CopyUpTask) :=
  match t.phase with
  | .getEntry => some (s.goOn t.flags (Client.getEntry e.1 p s.world) .getObjectPath)
  | .getObjectPath entry =>
    some (s.goOn t.flags (loadObjectPath e.1 entry s.world) (.decide entry))
  | .decide fuseEntry objectPath =>
    some (s.goOn t.flags (peekHost (fun fs => fs.exists p) s.world) fun realExists =>
      afterDecide (decideOpen
        { accessMode := pol.classify p, path := p, needWrite := t.flags.1.needWrite
          truncateRequested := t.flags.1.trunc, realExists, fuseEntry, objectPath }))
  | .ensure existing needsEnsure copyUp deleteWhiteout =>
    let defaultMeta := fileMetaNow e.1 0 (S_IFREG ||| 0o644) e.1.uid e.1.gid
    some (s.goOn t.flags (objectForOpen e.1 p defaultMeta existing needsEnsure copyUp s.world)
      fun r => .copy r.1 r.2 copyUp deleteWhiteout)
  | .copy id path copyUp deleteWhiteout =>
    some (s.goOn t.flags (onlyIf copyUp (ignore (copyToObject p path)) s.world)
      fun _ => .deleteWhiteout id path deleteWhiteout)
  | .deleteWhiteout id path deleteWhiteout =>
    some (s.goOn t.flags (onlyIf deleteWhiteout (ignore (Client.deleteWhiteout e.1 p)) s.world)
      fun _ => .openObject id path)
  | .openObject id path =>
    some (s.goOn t.flags (openObject t.flags.1.options path s.world)
      fun fd => .write (.passthroughObject fd id))
  | .write file => some (s.writeFile file e.2.1 e.2.2, t)
  | .failed => none

/-- The content of the object of `p`. -/
def ownContent (w : World) (p : FsPath) : Option Bytes :=
  (ownObject w p).bind fun id => w.objects.lookup (objectPath id)

/-- Any number of opens of `p` for writing.  The outside world (requests for other paths, messages
that go wrong) leaves the entry at `p` and its object alone. -/
def copyUpProtocol (pol : Policy) (p : FsPath) :
    Protocol SharedFile CopyUpTask WriteFlags (Env × ℕ × Bytes) World where
  start flags := ⟨flags, .getEntry⟩
  advance := copyUpStep pol p
  outside w s :=
    if w.entry p = s.world.entry p ∧ ownContent w p = ownContent s.world p
      then some { s with world := w } else none

/-! ## §2. Without interruption the steps are `open`. -/

section Alone

variable {pol : Policy} {p : FsPath} {e : Env × ℕ × Bytes} {flags : WriteFlags}

theorem alone_failed (n : ℕ) (s : SharedFile) :
    (copyUpProtocol pol p).alone e n s ⟨flags, .failed⟩ = (s, ⟨flags, .failed⟩) := by
  cases n <;> rfl

/-- One part, and the parts after it. -/
theorem alone_bind {α β : Type} {n : ℕ} {s : SharedFile} {phase : CopyUpPhase} {m : FuseM α}
    {k : α → FuseM β} {next : α → CopyUpPhase} {last : β → CopyUpPhase}
    (hstep : copyUpStep pol p e s ⟨flags, phase⟩ = some (s.goOn flags (m s.world) next))
    (hrest : ∀ a w, (copyUpProtocol pol p).alone e n { s with world := w } ⟨flags, next a⟩
      = s.goOn flags (k a w) last) :
    (copyUpProtocol pol p).alone e (n + 1) s ⟨flags, phase⟩
      = s.goOn flags ((m >>= k) s.world) last := by
  unfold Protocol.alone
  rw [show (copyUpProtocol pol p).advance e s ⟨flags, phase⟩ = _ from hstep, run_bind]
  unfold SharedFile.goOn at hrest ⊢
  cases m s.world with
  | ok a w => exact hrest a w
  | error err w => exact alone_failed n _

/-- The decision of an open for writing. -/
theorem decideOpen_write {state : OpenState} (hmode : state.accessMode = .copyOnWrite)
    (hwrite : state.needWrite = true) : decideOpen state = .notFound ∨
      ∃ needsEnsure copyUp, decideOpen state
        = .openObject (state.fuseEntry.bind (·.objectId)) needsEnsure copyUp true := by
  unfold decideOpen computeOpenBehavior
  cases isWhiteoutEntry state.fuseEntry with
  | true => exact Or.inl rfl
  | false =>
    right
    simp only [hmode, hwrite]
    exact ⟨_, _, rfl⟩

/-- **The steps of one client, taken in a row, are `execute_open`.** -/
theorem open_alone (hmode : pol.classify p = .copyOnWrite) (s : SharedFile) :
    (copyUpProtocol pol p).alone e 7 s ((copyUpProtocol pol p).start flags)
      = s.goOn flags ((do
          let state ← loadOpenState pol e.1 p flags.1.needWrite flags.1.trunc
          let defaultMeta := fileMetaNow e.1 0 (S_IFREG ||| 0o644) e.1.uid e.1.gid
          executeOpen e.1 (decideOpen state) p flags.1 defaultMeta : FuseM OpenFile) s.world)
        .write := by
  unfold loadOpenState
  simp only [bind_assoc, pure_bind]
  apply alone_bind rfl
  intro entry w₁
  apply alone_bind rfl
  intro objectPath w₂
  apply alone_bind rfl
  intro realExists w₃
  rcases @decideOpen_write ⟨pol.classify p, p, flags.1.needWrite, flags.1.trunc, realExists, entry,
      objectPath⟩ hmode flags.2 with hd | ⟨needsEnsure, copyUp, hd⟩
  · rw [hd]
    exact alone_failed _ _
  · rw [hd]
    apply alone_bind rfl
    intro r w₄
    apply alone_bind rfl
    intro _ w₅
    apply alone_bind rfl
    intro _ w₆
    apply alone_bind rfl
    exact fun _ _ => rfl

end Alone

/-! ## §3. The object of the path. -/

/-- The entry of `p`, if there is one, is a file, and its object is there. -/
def OwnsFile (w : World) (p : FsPath) : Prop :=
  ∀ e, w.entry p = some e → ∃ id, e.objectId = some id ∧ e.reusableObject = some id ∧
    (w.objects.lookup (objectPath id)).isSome = true

/-- `p` has a file as before, and with the same object if it had one. -/
structure Stays (p : FsPath) (w w' : World) : Prop where
  owns : OwnsFile w' p
  same : ∀ id, ownObject w p = some id → ownObject w' p = some id
  content : ∀ id, ownObject w p = some id →
    w'.objects.lookup (objectPath id) = w.objects.lookup (objectPath id)

section Owns

variable {w : World} {p : FsPath} (h : OwnsFile w p)

include h

/-- Whoever leaves the entry and its object alone. -/
theorem OwnsFile.of_entry {w' : World} (hentry : w'.entry p = w.entry p)
    (hobject : ∀ id, ownObject w p = some id →
      w'.objects.lookup (objectPath id) = w.objects.lookup (objectPath id)) : Stays p w w' := by
  have hown : ownObject w' p = ownObject w p := by
    unfold ownObject
    rw [hentry]
  refine ⟨?_, fun id hid => hown.trans hid, hobject⟩
  intro e he
  obtain ⟨id, hid, hreuse, hstored⟩ := h e (hentry.symm.trans he)
  have hself : ownObject w p = some id := by
    unfold ownObject
    rw [← hentry, he]
    exact hid
  refine ⟨id, hid, hreuse, ?_⟩
  rw [hobject id hself]
  exact hstored

theorem OwnsFile.of_daemon {w' : World} (hd : w'.daemon = w.daemon) : Stays p w w' := by
  apply h.of_entry
  · unfold World.entry
    rw [hd]
  · intro id _
    unfold World.objects
    rw [hd]

theorem OwnsFile.unserved {w' : World} (hw : Unserved w w') : Stays p w w' := by
  obtain ⟨faults, rfl⟩ := hw
  exact h.of_daemon rfl

/-- The object of the entry is the one to reuse, and is there. -/
theorem OwnsFile.own {id : UInt64} (hid : ownObject w p = some id) :
    (w.entry p).bind FuseEntry.reusableObject = some id ∧
      ∃ data, w.objects.lookup (objectPath id) = some data := by
  obtain ⟨e, he, hobject⟩ := Option.bind_eq_some_iff.mp hid
  obtain ⟨id', hid', hreuse, hstored⟩ := h e he
  obtain rfl : id' = id := Option.some.inj (hid'.symm.trans hobject)
  refine ⟨?_, Option.isSome_iff_exists.mp hstored⟩
  rw [he]
  exact hreuse

/-- A path with nothing to reuse has no entry. -/
theorem OwnsFile.free (hnone : (w.entry p).bind FuseEntry.reusableObject = none) :
    w.entry p = none ∧ ownObject w p = none := by
  have he : w.entry p = none := by
    cases he : w.entry p with
    | none => rfl
    | some e =>
      obtain ⟨id, -, hreuse, -⟩ := h e he
      rw [he] at hnone
      exact absurd (hnone.symm.trans hreuse) (Option.some_ne_none id).symm
  refine ⟨he, ?_⟩
  unfold ownObject
  rw [he]
  rfl

omit h in
theorem ownsFile_ofObject {md : FileMetadata} {id : UInt64}
    (hentry : w.entry p = some (.ofObject md id))
    (hstored : (w.objects.lookup (objectPath id)).isSome = true) : OwnsFile w p := by
  intro e he
  rw [hentry] at he
  cases he
  exact ⟨id, rfl, rfl, hstored⟩

/-- The daemon's answer to an ensure request is the object that the path has from then on. -/
theorem OwnsFile.ensureObject (md : FileMetadata)
    {alloc : ObjectStore → Except String UInt64 × ObjectStore}
    (halloc : ∀ id, (alloc w.daemon.objects).1 = .ok id →
      ((alloc w.daemon.objects).2.files.lookup (objectPath id)).isSome = true)
    {w' : World} (hw' : w'.daemon = (w.daemon.ensureObject p md alloc).2) :
    Stays p w w' ∧ ∀ r, takeObject (w.daemon.ensureObject p md alloc).1 = some r →
      ownObject w' p = some r.1 ∧ r.2 = objectPath r.1 := by
  unfold Server.ensureObject at hw' ⊢
  cases hr : (w.daemon.state.fuseMap.lookup p).bind FuseEntry.reusableObject with
  | some id =>
    rw [hr] at hw'
    have hown : ownObject w p = some id := by
      obtain ⟨e, he, hreuse⟩ := Option.bind_eq_some_iff.mp hr
      obtain ⟨id', hid', hreuse', -⟩ := h e he
      unfold ownObject
      rw [show w.entry p = some e from he]
      exact hid'.trans (hreuse'.symm.trans hreuse)
    have hentry : w'.entry p = some (.ofObject md id) := by
      unfold World.entry
      rw [hw']
      exact Finmap.lookup_insert _
    have hobjects : w'.objects = w.objects := by
      unfold World.objects
      rw [hw']
      rfl
    obtain ⟨-, data, hdata⟩ := h.own hown
    refine ⟨⟨ownsFile_ofObject hentry ?_, fun id' hid' => ?_, fun _ _ => by rw [hobjects]⟩,
      fun r hr => ?_⟩
    · rw [hobjects, hdata]
      rfl
    · rw [ownObject_ofObject hentry, ← hown, hid']
    · cases hr
      exact ⟨ownObject_ofObject hentry, rfl⟩
  | none =>
    rw [hr] at hw'
    obtain ⟨he, hfree⟩ := h.free hr
    have hvacuous : OwnsFile w' p → Stays p w w' := by
      intro hw
      refine ⟨hw, fun id hid => ?_, fun id hid => ?_⟩
      · rw [hfree] at hid
        cases hid
      · rw [hfree] at hid
        cases hid
    rcases hal : alloc w.daemon.objects with ⟨res, store⟩
    rw [hal] at hw' halloc
    cases res with
    | ok id =>
      have hentry : w'.entry p = some (.ofObject md id) := by
        unfold World.entry
        rw [hw']
        exact Finmap.lookup_insert _
      have hstored : (w'.objects.lookup (objectPath id)).isSome = true := by
        unfold World.objects
        rw [hw']
        exact halloc id rfl
      refine ⟨hvacuous (ownsFile_ofObject hentry hstored), fun r hr => ?_⟩
      cases hr
      exact ⟨ownObject_ofObject hentry, rfl⟩
    | error msg =>
      refine ⟨hvacuous fun e he' => ?_, fun r hr => ?_⟩
      · have hsame : w'.entry p = w.entry p := by
          unfold World.entry
          rw [hw']
          rfl
        rw [hsame, he] at he'
        cases he'
      · cases hr

end Owns

/-! ## §4. What one message does. -/

section Messages

variable {w₀ : World} {p : FsPath} (h : OwnsFile w₀ p) (env : Env)

include h

/-- An ensure request, whether it arrives or not. -/
theorem ensures_ensure (md : FileMetadata) {req : Request}
    (alloc : FileSystem → ObjectStore → Except String UInt64 × ObjectStore)
    (hreq : ∀ w : World, dispatch (env.dispatchEnv w.host) w.daemon req
      = w.daemon.ensureObject p md (alloc w.host))
    (halloc : ∀ host store id, (alloc host store).1 = .ok id →
      ((alloc host store).2.files.lookup (objectPath id)).isSome = true) :
    Ensures (Unserved w₀) (call env req takeObject)
      (fun r w => Stays p w₀ w ∧ ownObject w p = some r.1 ∧ r.2 = objectPath r.1)
      (Stays p w₀) := by
  have hserved : ∀ w, Unserved w₀ w → ∀ w' : World,
      w'.daemon = (dispatch (env.dispatchEnv w.host) w.daemon req).2 → Stays p w₀ w' ∧
        ∀ r, takeObject (dispatch (env.dispatchEnv w.host) w.daemon req).1 = some r →
          ownObject w' p = some r.1 ∧ r.2 = objectPath r.1 := by
    rintro w ⟨faults, rfl⟩ w' hw'
    rw [hreq] at hw' ⊢
    exact h.ensureObject md (halloc _ _) hw'
  apply ensures_call env (steady_unserved w₀)
  · intro w r hw hr
    obtain ⟨hstays, hown⟩ := hserved w hw { w with
      daemon := (dispatch (env.dispatchEnv w.host) w.daemon req).2 } rfl
    exact ⟨hstays, hown r hr⟩
  · intro w hw
    exact (hserved w hw { w with
      daemon := (dispatch (env.dispatchEnv w.host) w.daemon req).2 } rfl).1
  · exact fun w hw => h.unserved hw

omit h in
/-- The path of an object depends on its id only. -/
theorem ensures_getObjectPath (id : UInt64) :
    Ensures (Unserved w₀) (Client.getObjectPath env id)
      (fun path w => Unserved w₀ w ∧ path = objectPath id) (Unserved w₀) := by
  intro w hw
  have hkeep := keeps_getObjectPath env (steady_unserved w₀) id w hw
  cases hrun : Client.getObjectPath env id w with
  | error err w' =>
    rw [hrun] at hkeep
    exact hkeep
  | ok path w' =>
    rw [hrun] at hkeep
    refine ⟨hkeep, ?_⟩
    obtain ⟨response, t, hsend, htake⟩ := bind_eq_ok.mp hrun
    have hreply : response = (w.daemon.getObjectPath id).1 := by
      cases hf : w.faults.head?.join with
      | none =>
        rw [sendRequest_arrives _ hf] at hsend
        cases hsend
        rfl
      | some fault =>
        obtain ⟨err, hfails⟩ := sendRequest_fails env (.getObjectPath id) hf
        rw [hfails] at hsend
        cases hsend
    unfold Server.getObjectPath at hreply
    split at hreply
    · subst hreply
      cases htake
      rfl
    · subst hreply
      cases htake

theorem ensures_objectForOpen (md : FileMetadata) {existing : Option UInt64}
    (hexisting : ∀ id, existing = some id → ownObject w₀ p = some id)
    (needsEnsure copyUp : Bool) :
    Ensures (Unserved w₀) (objectForOpen env p md existing needsEnsure copyUp)
      (fun r w => Stays p w₀ w ∧ ownObject w p = some r.1 ∧ r.2 = objectPath r.1)
      (Stays p w₀) := by
  unfold objectForOpen
  cases needsEnsure with
  | true =>
    cases copyUp with
    | true =>
      apply ensures_ensure h env md (fun host store =>
        store.putCopyFrom env.storeIo ((env.dispatchEnv host).real p)) fun _ => rfl
      intro host store id hid
      obtain ⟨-, data, -, hdata⟩ := (ObjectStore.allocates_putCopyFrom store env.storeIo
        ((env.dispatchEnv host).real p)).onOk id hid
      rw [hdata]
      rfl
    | false =>
      apply ensures_ensure h env md (fun _ store => store.allocEmpty env.storeIo) fun _ => rfl
      intro host store id hid
      obtain ⟨-, data, -, hdata⟩ := (ObjectStore.allocates_put store env.storeIo []).onOk id hid
      unfold ObjectStore.allocEmpty
      rw [hdata]
      rfl
  | false =>
    cases existing with
    | none => exact Ensures.fail fun w hw => h.unserved hw
    | some oid =>
      have hown : ∀ w, Unserved w₀ w → Stays p w₀ w ∧ ownObject w p = some oid := by
        intro w hw
        have hstays := h.unserved hw
        exact ⟨hstays, hstays.same oid (hexisting oid rfl)⟩
      apply Ensures.bind ((ensures_getObjectPath env oid).weaken (fun _ hw => hw)
        (fun _ _ hw => hw) fun _ hw => h.unserved hw)
      intro path
      apply Ensures.ret
      rintro w ⟨hw, hpath⟩
      exact ⟨(hown w hw).1, (hown w hw).2, hpath⟩

/-- There is no whiteout to delete. -/
theorem ensures_deleteWhiteout (delete : Bool) :
    Ensures (Unserved w₀) (onlyIf delete (ignore (Client.deleteWhiteout env p)))
      (fun _ => Stays p w₀) (Stays p w₀) := by
  have hserved : ∀ w, Unserved w₀ w →
      (dispatch (env.dispatchEnv w.host) w.daemon (.deleteWhiteout p)).2 = w.daemon := by
    rintro w ⟨faults, rfl⟩
    show (w₀.daemon.deleteWhiteout p).2 = w₀.daemon
    unfold Server.deleteWhiteout
    cases he : w₀.daemon.state.fuseMap.lookup p with
    | none => rfl
    | some e =>
      obtain ⟨id, -, hreuse, -⟩ := h e he
      have hfile : e.entryType ≠ .whiteout := by
        intro ht
        unfold FuseEntry.reusableObject at hreuse
        rw [ht, if_neg fun hc => by cases hc.1] at hreuse
        cases hreuse
      dsimp only
      rw [if_neg hfile]
  have hcall : Ensures (Unserved w₀) (Client.deleteWhiteout env p) (fun _ => Stays p w₀)
      (Stays p w₀) := by
    apply ensures_call env (steady_unserved w₀)
    · rintro w a ⟨faults, rfl⟩ -
      exact h.of_daemon (hserved _ ⟨faults, rfl⟩)
    · rintro w ⟨faults, rfl⟩
      exact h.of_daemon (hserved _ ⟨faults, rfl⟩)
    · exact fun w hw => h.unserved hw
  cases delete with
  | true => exact hcall.ignore
  | false => exact Ensures.ret fun w hw => h.unserved hw

end Messages

/-! ## §5. What is written stays. -/

/-- The object of `p` has every byte that was written. -/
def WritesKept (p : FsPath) (s : SharedFile) : Prop :=
  ∀ i b, s.written i = some b → ∃ id data, ownObject s.world p = some id ∧
    s.world.objects.lookup (objectPath id) = some data ∧ data[i]? = some b

/-- The condition on one step: the client's own copy of the host file changes no byte that was
written. -/
def CopyAgrees (p : FsPath) (s : SharedFile) (t : CopyUpTask) : Prop :=
  match t.phase with
  | .copy _ _ true _ =>
    ∀ data, s.world.host.readFile p = .ok data → ∀ i b, s.written i = some b → data[i]? = some b
  | _ => True

/-- The next step of the task copies the host file onto the object. -/
def CopyUpPhase.copiesHost : CopyUpPhase → Bool
  | .copy _ _ true _ => true
  | _ => false

theorem copyAgrees_of_not_copiesHost {p : FsPath} {s : SharedFile} {t : CopyUpTask}
    (h : t.phase.copiesHost = false) : CopyAgrees p s t := by
  obtain ⟨flags, phase⟩ := t
  cases phase with
  | copy id path copyUp delete =>
    cases copyUp with
    | true => cases h
    | false => trivial
  | _ => trivial

/-- What the clients share. -/
structure SharedInv (p : FsPath) (s : SharedFile) : Prop where
  owns : OwnsFile s.world p
  written : ∀ i b, s.written i = some b → (ownObject s.world p).isSome = true

/-- What a client knows: the object it has read or been given is that of the path. -/
def KnowsObject (p : FsPath) (w : World) (t : CopyUpTask) : Prop :=
  match t.phase with
  | .getObjectPath entry | .decide entry _ =>
    ∀ id, entry.bind (·.objectId) = some id → ownObject w p = some id
  | .ensure existing _ _ _ => ∀ id, existing = some id → ownObject w p = some id
  | .copy id path _ _ | .deleteWhiteout id path _ | .openObject id path =>
    ownObject w p = some id ∧ path = objectPath id
  | .write file => ∃ id, ownObject w p = some id ∧ file = objectHandle t.flags.1.options id
  | .getEntry | .failed => True

theorem KnowsObject.mono {p : FsPath} {w w' : World} {t : CopyUpTask} (h : KnowsObject p w t)
    (hsame : ∀ id, ownObject w p = some id → ownObject w' p = some id) : KnowsObject p w' t := by
  obtain ⟨flags, phase⟩ := t
  cases phase with
  | getObjectPath entry | decide entry objectPath =>
    exact fun id hid => hsame id (h id hid)
  | ensure existing needsEnsure copyUp delete => exact fun id hid => hsame id (h id hid)
  | copy id path copyUp delete | deleteWhiteout id path delete | openObject id path =>
    exact ⟨hsame id h.1, h.2⟩
  | write file =>
    obtain ⟨id, hid, hfile⟩ := h
    exact ⟨id, hsame id hid, hfile⟩
  | getEntry | failed => trivial

/-- What one step of a client comes to. -/
structure Advances (p : FsPath) (s s' : SharedFile) (t t' : CopyUpTask) : Prop where
  inv : SharedInv p s'
  same : ∀ id, ownObject s.world p = some id → ownObject s'.world p = some id
  knows : KnowsObject p s'.world t'
  kept : WritesKept p s → (WritesKept p s' ↔ CopyAgrees p s t)

section Steps

variable {pol : Policy} {p : FsPath} {s : SharedFile} {t : CopyUpTask} (h : SharedInv p s)

include h

/-- Where the object of `p` stays, so does what was written. -/
theorem SharedInv.stays {u : SharedFile} (hw : Stays p s.world u.world)
    (hwritten : u.written = s.written) : SharedInv p u ∧ (WritesKept p s → WritesKept p u) := by
  constructor
  · refine ⟨hw.owns, fun i b hb => ?_⟩
    rw [hwritten] at hb
    obtain ⟨id, hid⟩ := Option.isSome_iff_exists.mp (h.written i b hb)
    rw [hw.same id hid]
    rfl
  · intro hkept i b hb
    rw [hwritten] at hb
    obtain ⟨id, data, hid, hdata, hi⟩ := hkept i b hb
    exact ⟨id, data, hw.same id hid, (hw.content id hid).trans hdata, hi⟩

/-- A part of the open that leaves the object alone. -/
theorem advances_goOn {α : Type} {m : FuseM α} {next : α → CopyUpPhase}
    (hagree : CopyAgrees p s t)
    (hm : Ensures (Unserved s.world) m
      (fun a w => Stays p s.world w ∧ KnowsObject p w ⟨t.flags, next a⟩) (Stays p s.world)) :
    Advances p s (s.goOn t.flags (m s.world) next).1 t (s.goOn t.flags (m s.world) next).2 := by
  have key := hm s.world ⟨s.world.faults, rfl⟩
  unfold SharedFile.goOn
  cases hrun : m s.world with
  | ok a w =>
    rw [hrun] at key
    obtain ⟨hstays, hknows⟩ := key
    obtain ⟨hinv, hkept⟩ := h.stays (u := { s with world := w }) hstays rfl
    exact ⟨hinv, hstays.same, hknows, fun hs => iff_of_true (hkept hs) hagree⟩
  | error err w =>
    rw [hrun] at key
    obtain ⟨hinv, hkept⟩ := h.stays (u := { s with world := w }) key rfl
    exact ⟨hinv, key.same, trivial, fun hs => iff_of_true (hkept hs) hagree⟩

/-- New content of the object of `p`. -/
theorem SharedInv.setObject {id : UInt64} (hid : ownObject s.world p = some id) (data : Bytes)
    (written : Written) : SharedInv p ⟨s.world.setObject (objectPath id) data, written⟩ := by
  refine ⟨fun e he => ?_, fun i b _ => ?_⟩
  · obtain ⟨id', hid', hreuse, -⟩ := h.owns e he
    obtain rfl : id' = id := by
      have hown : ownObject s.world p = some id' := by
        unfold ownObject
        rw [show s.world.entry p = some e from he]
        exact hid'
      exact Option.some.inj (hown.symm.trans hid)
    refine ⟨id', hid', hreuse, ?_⟩
    rw [World.objects_setObject, if_pos rfl]
    rfl
  · exact (congrArg Option.isSome hid).trans rfl

omit h in
/-- What is written is kept if the object has it. -/
theorem writesKept_setObject {id : UInt64} (hid : ownObject s.world p = some id) (data : Bytes)
    (written : Written) : WritesKept p ⟨s.world.setObject (objectPath id) data, written⟩ ↔
      ∀ i b, written i = some b → data[i]? = some b := by
  have hdata : (s.world.setObject (objectPath id) data).objects.lookup (objectPath id)
      = some data := by
    rw [World.objects_setObject, if_pos rfl]
  constructor
  · intro hkept i b hb
    obtain ⟨id', data', hid', hdata', hi⟩ := hkept i b hb
    obtain rfl : id' = id := Option.some.inj (hid'.symm.trans hid)
    obtain rfl : data' = data := Option.some.inj (hdata'.symm.trans hdata)
    exact hi
  · exact fun hall i b hb => ⟨id, data, hid, hdata, hall i b hb⟩

/-- The client's own copy. -/
theorem advances_copy {flags : WriteFlags} {id : UInt64} {delete : Bool}
    (hid : ownObject s.world p = some id) :
    let t : CopyUpTask := ⟨flags, .copy id (objectPath id) true delete⟩
    let r := s.goOn flags (ignore (copyToObject p (objectPath id)) s.world)
      fun _ => .deleteWhiteout id (objectPath id) delete
    Advances p s r.1 t r.2 := by
  intro t r
  cases hreal : s.world.host.readFile p with
  | error errno =>
    have hr : r = (s, ⟨flags, .deleteWhiteout id (objectPath id) delete⟩) := by
      show s.goOn flags (ignore (copyToObject p (objectPath id)) s.world) _ = _
      rw [run_ignore]
      unfold copyToObject
      rw [run_bind_error (readHost_error hreal)]
      rfl
    rw [hr]
    refine ⟨h, fun _ hid => hid, ⟨hid, rfl⟩, fun hs => iff_of_true hs ?_⟩
    intro data hdata
    rw [hreal] at hdata
    cases hdata
  | ok data =>
    have hr : r = (⟨s.world.setObject (objectPath id) data, s.written⟩,
        ⟨flags, .deleteWhiteout id (objectPath id) delete⟩) := by
      show s.goOn flags (ignore (copyToObject p (objectPath id)) s.world) _ = _
      rw [run_ignore]
      unfold copyToObject
      rw [run_bind_ok (readHost_ok hreal), onObjects_ok (a := ()) rfl]
      rfl
    rw [hr]
    refine ⟨h.setObject hid data _, fun _ hid => hid, ⟨hid, rfl⟩, fun hs => ?_⟩
    rw [writesKept_setObject hid]
    constructor
    · intro hall data' hdata'
      obtain rfl : data = data' := Except.ok.inj (hreal.symm.trans hdata')
      exact hall
    · exact fun hagree => hagree data hreal

/-- A write covers what it writes, and keeps the rest. -/
theorem advances_write {flags : WriteFlags} {id : UInt64} (hid : ownObject s.world p = some id)
    (offset : ℕ) (data : Bytes) :
    let t : CopyUpTask := ⟨flags, .write (objectHandle flags.1.options id)⟩
    Advances p s (s.writeFile (objectHandle flags.1.options id) offset data) t t := by
  intro t
  obtain ⟨-, old, hold⟩ := h.owns.own hid
  have hoffset : s.world.writeOffset (objectHandle flags.1.options id).file offset
      = if flags.1.options.append then old.length else offset := by
    show (if flags.1.options.append then ((s.world.objects.lookup _).getD []).length else offset) = _
    rw [hold]
    rfl
  have hwritable : (flags.1.options.write || flags.1.options.append) = true := by
    rw [show flags.1.options.write = true from flags.2]
    rfl
  have hrun := writeAt_objectHandle hwritable hold offset data
  rw [← hoffset] at hrun
  have hs' : s.writeFile (objectHandle flags.1.options id) offset data
      = ⟨s.world.setObject (objectPath id) (writeAt old
          (s.world.writeOffset (objectHandle flags.1.options id).file offset) data),
        s.written.record (s.world.writeOffset (objectHandle flags.1.options id).file offset)
          data⟩ := by
    unfold SharedFile.writeFile
    rw [hrun]
  rw [hs']
  refine ⟨h.setObject hid _ _, fun _ hid => hid, ⟨id, hid, rfl⟩, fun hs => iff_of_true ?_ trivial⟩
  rw [writesKept_setObject hid]
  intro i b hb
  unfold Written.record at hb
  split at hb
  · next hin =>
    rw [getElem?_writeAt_inside _ _ _ hin.1 hin.2]
    exact hb
  · next hout =>
    -- a byte from before
    obtain ⟨id', old', hid', hold', hi⟩ := hs i b hb
    obtain rfl : id' = id := Option.some.inj (hid'.symm.trans hid)
    obtain rfl : old' = old := Option.some.inj (hold'.symm.trans hold)
    obtain ⟨hlt, -⟩ := List.getElem?_eq_some_iff.mp hi
    rw [getElem?_writeAt_outside _ _ _ hlt (by omega)]
    exact hi

variable (env : Env)

theorem ensures_getEntry_knows (flags : WriteFlags) :
    Ensures (Unserved s.world) (Client.getEntry env p)
      (fun entry w => Stays p s.world w ∧ KnowsObject p w ⟨flags, .getObjectPath entry⟩)
      (Stays p s.world) := by
  apply ensures_call env (steady_unserved s.world)
  · rintro w entry ⟨faults, rfl⟩ hentry
    obtain rfl : s.world.entry p = entry := Option.some.inj hentry
    exact ⟨h.owns.of_daemon rfl, fun id hid => hid⟩
  · rintro w ⟨faults, rfl⟩
    exact h.owns.of_daemon rfl
  · exact fun w hw => h.owns.unserved hw

/-- **One step of a client.** -/
theorem advances_copyUpStep (hmode : pol.classify p = .copyOnWrite) (ht : KnowsObject p s.world t)
    (offset : ℕ) (data : Bytes) {r : SharedFile × CopyUpTask}
    (hstep : copyUpStep pol p (env, offset, data) s t = some r) : Advances p s r.1 t r.2 := by
  obtain ⟨flags, phase⟩ := t
  cases phase with
  | getEntry =>
    obtain rfl := Option.some.inj hstep
    exact advances_goOn h trivial (ensures_getEntry_knows h env flags)
  | getObjectPath entry =>
    obtain rfl := Option.some.inj hstep
    refine advances_goOn h trivial ?_
    refine (keeps_loadObjectPath env (steady_unserved s.world) entry).weaken (fun _ hw => hw)
      (fun objectPath w hw => ?_) fun w hw => h.owns.unserved hw
    have hstays := h.owns.unserved hw
    exact ⟨hstays, fun id hid => hstays.same id (ht id hid)⟩
  | decide entry objectPath =>
    obtain rfl := Option.some.inj hstep
    refine advances_goOn h trivial ?_
    intro w hw
    have hstays := h.owns.unserved hw
    refine ⟨hstays, ?_⟩
    rcases @decideOpen_write ⟨pol.classify p, p, flags.1.needWrite, flags.1.trunc, w.host.exists p,
        entry, objectPath⟩ hmode flags.2 with hd | ⟨needsEnsure, copyUp, hd⟩
    · rw [hd]
      trivial
    · rw [hd]
      exact fun id hid => hstays.same id (ht id hid)
  | ensure existing needsEnsure copyUp delete =>
    obtain rfl := Option.some.inj hstep
    exact advances_goOn h trivial (ensures_objectForOpen h.owns env _ ht needsEnsure copyUp)
  | copy id path copyUp delete =>
    obtain rfl := Option.some.inj hstep
    obtain ⟨hid, rfl⟩ := ht
    cases copyUp with
    | true => exact advances_copy h hid
    | false =>
      refine advances_goOn h trivial ?_
      intro w hw
      have hstays := h.owns.unserved hw
      exact ⟨hstays, hstays.same id hid, rfl⟩
  | deleteWhiteout id path delete =>
    obtain rfl := Option.some.inj hstep
    obtain ⟨hid, rfl⟩ := ht
    refine advances_goOn h trivial ?_
    exact (ensures_deleteWhiteout h.owns env delete).weaken (fun _ hw => hw)
      (fun _ w hstays => ⟨hstays, hstays.same id hid, rfl⟩) fun _ hw => hw
  | openObject id path =>
    obtain rfl := Option.some.inj hstep
    obtain ⟨hid, rfl⟩ := ht
    refine advances_goOn h trivial ?_
    rintro w ⟨faults, rfl⟩
    obtain ⟨-, data, hdata⟩ := h.owns.own hid
    rw [openObject_existing (w := { s.world with faults }) (fun hc => by cases hc.1) hdata]
    exact ⟨h.owns.of_daemon rfl, id, hid, rfl⟩
  | write file =>
    obtain rfl := Option.some.inj hstep
    obtain ⟨id, hid, hfile⟩ := ht
    have hfile' : file = objectHandle flags.1.options id := hfile
    subst hfile'
    exact advances_write h hid offset data
  | failed => cases hstep

end Steps

/-! ## §6. Runs. -/

/-- A file that nobody has written to yet. -/
def SharedFile.start (w : World) : SharedFile := ⟨w, fun _ => none⟩

section Pool

variable {pol : Policy} {p : FsPath}

/-- The outside world does not touch the object. -/
theorem stays_outside {s s' : SharedFile} (hs : SharedInv p s) {v : World}
    (hstep : (copyUpProtocol pol p).outside v s = some s') :
    Stays p s.world s'.world ∧ s'.written = s.written := by
  have hif : (if v.entry p = s.world.entry p ∧ ownContent v p = ownContent s.world p
      then some { s with world := v } else none) = some s' := hstep
  split at hif
  · next hsame =>
    cases hif
    refine ⟨hs.owns.of_entry hsame.1 fun id hid => ?_, rfl⟩
    have hown : ownObject v p = some id := by
      unfold ownObject
      rw [hsame.1]
      exact hid
    have hcontent := hsame.2
    unfold ownContent at hcontent
    rw [hown, hid] at hcontent
    exact hcontent
  · cases hif

/-- A client that has given up was not about to copy. -/
theorem copyAgrees_of_none {e : Env × ℕ × Bytes} {s : SharedFile} {t : CopyUpTask}
    (hnone : copyUpStep pol p e s t = none) : CopyAgrees p s t := by
  obtain ⟨flags, phase⟩ := t
  cases phase with
  | failed => trivial
  | _ => cases hnone

/-- The invariants hold whatever happens to the bytes. -/
theorem holds_copyUp (hmode : pol.classify p = .copyOnWrite) {pool pool' : Pool SharedFile CopyUpTask}
    {act : PoolAct WriteFlags (Env × ℕ × Bytes) World}
    (hpool : Protocol.Holds (SharedInv p) (fun s t => KnowsObject p s.world t) pool)
    (hstep : (copyUpProtocol pol p).step pool act = some pool') :
    Protocol.Holds (SharedInv p) (fun s t => KnowsObject p s.world t) pool' := by
  apply (copyUpProtocol pol p).holds_step (G := fun _ _ => True) (a := act) _ _ _ _ hpool _ hstep
  · exact fun _ _ _ => trivial
  · intro e s t s' t' hs ht _ hadv
    have key := advances_copyUpStep hs e.1 hmode ht e.2.1 e.2.2 hadv
    exact ⟨key.inv, key.knows⟩
  · intro e s t s' t' u hs ht hu _ hadv
    exact hu.mono (advances_copyUpStep hs e.1 hmode ht e.2.1 e.2.2 hadv).same
  · intro v s s' hs hout
    obtain ⟨hstays, hwritten⟩ := stays_outside hs hout
    exact ⟨(hs.stays hstays hwritten).1, fun u hu => hu.mono hstays.same⟩
  · cases act with
    | start i x | outside v => trivial
    | advance i e => exact fun _ _ => trivial

/-- **One step** keeps what was written exactly if it is no copy that changes it. -/
theorem writesKept_step (hmode : pol.classify p = .copyOnWrite)
    {pool pool' : Pool SharedFile CopyUpTask}
    {act : PoolAct WriteFlags (Env × ℕ × Bytes) World}
    (hpool : Protocol.Holds (SharedInv p) (fun s t => KnowsObject p s.world t) pool)
    (hkept : WritesKept p pool.shared)
    (hstep : (copyUpProtocol pol p).step pool act = some pool') :
    WritesKept p pool'.shared ↔ Protocol.Guarded (CopyAgrees p) pool act := by
  rcases (copyUpProtocol pol p).step_cases hstep with ⟨i, x, rfl, -, rfl⟩
    | ⟨i, e, t, s', t', rfl, hi, hadv, rfl⟩ | ⟨v, s', rfl, hout, rfl⟩
  · exact iff_of_true hkept trivial
  · have key := advances_copyUpStep hpool.shared e.1 hmode (hpool.tasks i t hi) e.2.1 e.2.2 hadv
    apply (key.kept hkept).trans
    constructor
    · intro hagree u hu
      rw [hi] at hu
      cases hu
      exact hagree
    · exact fun hguard => hguard t hi
  · obtain ⟨hstays, hwritten⟩ := stays_outside hpool.shared hout
    exact iff_of_true ((hpool.shared.stays hstays hwritten).2 hkept) trivial

/-- **What is written stays, exactly as long as no client's own copy of the host file changes a
byte that was written.** -/
theorem writesKept_iff (hmode : pol.classify p = .copyOnWrite) {w : World} (hw : OwnsFile w p)
    (acts : List (PoolAct WriteFlags (Env × ℕ × Bytes) World)) :
    AlwaysOn (copyUpProtocol pol p).step (fun pool => WritesKept p pool.shared)
        (Protocol.idle (SharedFile.start w)) acts ↔
      StepsMeet (copyUpProtocol pol p).step (Protocol.Guarded (CopyAgrees p))
        (Protocol.idle (SharedFile.start w)) acts := by
  have hstart : Protocol.Holds (SharedInv p) (fun s t => KnowsObject p s.world t)
      (Protocol.idle (SharedFile.start w) : Pool SharedFile CopyUpTask) :=
    Protocol.holds_idle ⟨hw, fun i b hb => by cases hb⟩
  apply alwaysOn_iff_of_guarded (G := fun _ _ => True) _ _ hstart _ (stepsMeet_true _ _)
  · intro pool act hpool hnone
    cases act with
    | start i x | outside v => trivial
    | advance i e =>
      intro t hi
      have hmap : ((pool.tasks.lookup i).bind fun t => (copyUpStep pol p e pool.shared t).map
        fun r => (⟨r.1, pool.tasks.insert i r.2⟩ : Pool SharedFile CopyUpTask)) = none := hnone
      rw [hi, Option.bind_some, Option.map_eq_none_iff] at hmap
      exact copyAgrees_of_none hmap
  · intro pool act pool' hpool hkept _ hstep
    exact ⟨writesKept_step hmode hpool hkept hstep, fun _ => holds_copyUp hmode hpool hstep⟩
  · intro i b hb
    cases hb

end Pool

def rdwr : WriteFlags := ⟨⟨.rdwr, false, false⟩, rfl⟩

/-- A client takes its next step; if that is a write, it writes a nine at the start. -/
def nine (i : ℕ) : PoolAct WriteFlags (Env × ℕ × Bytes) World := .advance i (Env.quiet, 0, [9])

/-- Two clients open `/a`, which no one has opened before; the first writes, and the second goes
on after that. -/
def writeBetween : List (PoolAct WriteFlags (Env × ℕ × Bytes) World) :=
  [.start 0 rdwr, .start 1 rdwr, nine 0, nine 0, nine 0, nine 1, nine 1, nine 1,
    nine 0, nine 0, nine 0, nine 0, nine 0, nine 1, nine 1]

/-- The first client truncates `/a` and writes; the second opens it after that. -/
def oneAfterAnother : List (PoolAct WriteFlags (Env × ℕ × Bytes) World) :=
  [.start 0 ⟨⟨.rdwr, false, true⟩, rfl⟩, nine 0, nine 0, nine 0, nine 0, nine 0, nine 0, nine 0,
    nine 0, .start 1 rdwr, nine 1, nine 1, nine 1, nine 1, nine 1, nine 1, nine 1, nine 1]

/-- A file that is truncated is not copied, and neither is one that has an object. -/
theorem writesKept_oneAfterAnother :
    AlwaysOn (copyUpProtocol allCopyOnWrite [.a]).step (fun pool => WritesKept [.a] pool.shared)
      (Protocol.idle (SharedFile.start (World.mount twoFiles (Server.init "s"))))
      oneAfterAnother := by
  apply (writesKept_iff rfl (fun _ he => by cases he) oneAfterAnother).mpr
  apply StepsMeet.imp_of_guarded (I := fun _ => True) (fun _ _ _ _ _ _ => trivial) ?_ trivial
    (show StepsMeet _ (Protocol.Guarded fun _ t => t.phase.copiesHost = false) _ _ by decide)
  intro pool act _ hnot
  cases act with
  | start i x | outside v => trivial
  | advance i e => exact fun t hi => copyAgrees_of_not_copiesHost (hnot t hi)

/-- The second client copies the host file over the byte that the first has written. -/
theorem not_writesKept_race :
    ¬ AlwaysOn (copyUpProtocol allCopyOnWrite [.a]).step (fun pool => WritesKept [.a] pool.shared)
      (Protocol.idle (SharedFile.start (World.mount twoFiles (Server.init "s"))))
      writeBetween := by
  intro h
  have hend : (run (copyUpProtocol allCopyOnWrite [.a]).step
      (Protocol.idle (SharedFile.start (World.mount twoFiles (Server.init "s"))))
      writeBetween).map (fun pool => (pool.shared.written 0, ownContent pool.shared.world [.a]))
        = some (some 9, some [1]) := by
    decide
  obtain ⟨pool, hrun, hpair⟩ := Option.map_eq_some_iff.mp hend
  obtain ⟨hnine, hcontent⟩ := Prod.mk.inj hpair
  obtain ⟨id, data, hid, hdata, hi⟩ := h _ List.prefix_rfl pool hrun 0 9 hnine
  unfold ownContent at hcontent
  rw [hid, Option.bind_some, hdata] at hcontent
  cases hcontent
  cases hi

end Cas.Fuse
