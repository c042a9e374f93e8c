/-
  Cas.Fuse.WriteOpen — opening a file for writing.

  The decision asks for an object to be ensured when the entry has none or
  its file is gone; the daemon only looks whether the entry has one.
  `writeOpen_recovers_iff` says what this makes of an object that is lost,
  `writeOpen_unseen_iff` which opens a stat and a fresh read do not notice.
-/
import Cas.Fuse.FreshRead

namespace Cas.Fuse

open Cas.Lib Cas.Host Cas.Syncing

/-! ## §1. Decisions to ensure. -/

/-- When an open ensures an object. -/
theorem ensure_of_decideOpen {state : OpenState} {known : Option UInt64} {copyUp delete : Bool}
    (h : decideOpen state = .openObject known true copyUp delete) :
    (state.fuseEntry.bind (·.objectId) = none ∨ state.objectPath = none) ∧
      (copyUp = true ↔ state.accessMode = .copyOnWrite ∧
        state.fuseEntry.bind (·.objectId) = none ∧ state.truncateRequested = false ∧
        state.realExists = true) := by
  unfold decideOpen computeOpenBehavior at h
  cases hwhite : isWhiteoutEntry state.fuseEntry with
  | true => simp [hwhite] at h
  | false =>
    simp only [hwhite, Bool.false_eq_true, if_false] at h
    cases hid : state.fuseEntry.bind (·.objectId) <;> cases hpath : state.objectPath <;>
      cases hmode : state.accessMode <;> cases hwrite : state.needWrite <;>
      simp [hid, hpath, hmode, hwrite] at h ⊢
    all_goals
      obtain ⟨-, rfl, -⟩ := h
      simp

/-! ## §2. A lost object. -/

section Recover

variable {pol : Policy} {env : Env} {w w₁ : World} {p : FsPath} {flags : OpenFlags}

/-- After the ensure request: the file is there, the entry refers to it, the open succeeds; and it
finds the host content, where there is some and it is not cut off. -/
structure Recovered (pol : Policy) (env : Env) (w w₁ : World) (p : FsPath) (flags : OpenFlags)
    (md : FileMetadata) (decision : OpenDecision) (id : UInt64) (path : ObjectPath) : Prop where
  stored : path ∈ w₁.objects
  refers : (w₁.entry p).bind (·.objectId) = some id ∧ path = objectPath id
  opens : ∃ file w₂, executeOpen env decision p flags md w = .ok file w₂ ∧
    file.file.backing = .object path ∧
    (pol.classify p = .copyOnWrite → flags.trunc = false → ∀ data,
      w.host.readFile p = .ok data → w₂.objects.lookup path = some data)

/-- The entry has no object; or it has one that the daemon does not hand out, and no host content
is missed. -/
def Recoverable (pol : Policy) (w : World) (p : FsPath) (flags : OpenFlags) : Prop :=
  ∀ e, w.entry p = some e → e.objectId ≠ none → e.reusableObject = none ∧
    (pol.classify p = .copyOnWrite → flags.trunc = false → ∀ data,
      w.host.readFile p = .ok data → data = [])

theorem exists_of_readFile {fs : FileSystem} {data : Bytes} (h : fs.readFile p = .ok data) :
    fs.exists p = true := by
  unfold FileSystem.readFile at h
  unfold FileSystem.exists
  cases hfind : fs.find true p with
  | error errno =>
    rw [hfind] at h
    cases h
  | ok found => rfl

/-- The rest of an open once the object is ensured. -/
theorem executeOpen_ensured (known : Option UInt64) {copyUp delete : Bool} {md : FileMetadata}
    {id : UInt64} {path : ObjectPath}
    (hens : objectForOpen env p md known true copyUp w = .ok (id, path) w₁)
    (hentry : w₁.entry p = some (.ofObject md id)) {w₂ : World}
    (hcopy : onlyIf copyUp (ignore (copyToObject p path)) w₁ = .ok () w₂)
    (hstate : w₂.faults = [] ∧ w₂.entry p = w₁.entry p) :
    executeOpen env (.openObject known true copyUp delete) p flags md w
      = (openObject flags.options path >>= fun file =>
          pure (.passthroughObject file id) : FuseM OpenFile) w₂ := by
  have hdelete : onlyIf delete (ignore (Client.deleteWhiteout env p)) w₂ = .ok () w₂ := by
    cases delete with
    | false => rfl
    | true =>
      apply deleteWhiteout_quiet hstate.1
      intro e he
      rw [hstate.2, hentry] at he
      cases he
      exact EntryType.noConfusion
  rw [executeOpen_openObject, run_bind_ok hens, run_bind_ok hcopy, run_bind_ok hdelete]

/-- An ensure request that makes an object: empty, or with the host content. -/
theorem ensure_fresh (hq : w.faults = []) {known : Option UInt64} {copyUp : Bool}
    {md : FileMetadata} {id : UInt64} {path : ObjectPath}
    (hfree : (w.entry p).bind FuseEntry.reusableObject = none)
    (hens : objectForOpen env p md known true copyUp w = .ok (id, path) w₁) :
    ∃ data, id = w.daemon.state.nextId ∧ path = objectPath id ∧ w₁ = w.newObject p md data ∧
      if copyUp then w.host.readFile p = .ok data else data = [] := by
  cases copyUp with
  | true =>
    have hrun : objectForOpen env p md known true true w = _ := ensure_made hq hfree
      (fun store => store.putCopyFrom env.storeIo ((env.dispatchEnv w.host).real p)) rfl
    rw [hrun] at hens
    unfold ObjectStore.putCopyFrom Env.dispatchEnv at hens
    cases hread : w.host.readFile p with
    | error errno => simp [hread, Except.mapError] at hens
    | ok data =>
      cases hio : env.storeIo with
      | createFails err => simp [hread, hio, Except.mapError] at hens
      | writeFails n err => simp [hread, hio, Except.mapError] at hens
      | ok =>
        simp only [hread, hio, Except.mapError] at hens
        cases hens
        exact ⟨data, rfl, rfl, rfl, rfl⟩
  | false =>
    have hrun : objectForOpen env p md known true false w = _ := ensure_made hq hfree
      (fun store => store.allocEmpty env.storeIo) rfl
    rw [hrun] at hens
    unfold ObjectStore.allocEmpty ObjectStore.put at hens
    cases hio : env.storeIo with
    | createFails err => simp [hio] at hens
    | writeFails n err => simp [hio] at hens
    | ok =>
      simp only [hio] at hens
      cases hens
      exact ⟨[], rfl, rfl, rfl, rfl⟩

variable (flags) in
/-- An open whose object has just been made. -/
theorem executeOpen_fresh (delete : Bool) (hq : w.faults = []) {known : Option UInt64}
    {copyUp : Bool} {md : FileMetadata} {data : Bytes}
    (hens : objectForOpen env p md known true copyUp w
      = .ok (w.daemon.state.nextId, objectPath w.daemon.state.nextId) (w.newObject p md data))
    (hdata : if copyUp then w.host.readFile p = .ok data else data = []) :
    executeOpen env (.openObject known true copyUp delete) p flags md w
      = .ok (objectHandle flags.options w.daemon.state.nextId) (w.newObject p md data) := by
  have hobject : (w.newObject p md data).objects.lookup (objectPath w.daemon.state.nextId)
      = some data := by
    rw [World.objects_newObject, if_pos rfl]
  have hentry : (w.newObject p md data).entry p
      = some (.ofObject md w.daemon.state.nextId) := by
    rw [World.entry_newObject, if_pos rfl]
  have hcopy : onlyIf copyUp (ignore (copyToObject p (objectPath w.daemon.state.nextId)))
      (w.newObject p md data) = .ok () (w.newObject p md data) := by
    cases copyUp with
    | false => rfl
    | true => exact copyToObject_same hdata hobject
  rw [executeOpen_ensured known hens hentry hcopy ⟨hq, rfl⟩,
    run_bind_ok (openObject_existing (fun hc => by cases hc.1) hobject)]
  rfl

/-- **Write-open recovers a missing object** exactly when the daemon makes a new one, and no host
content is missed. -/
theorem writeOpen_recovers_iff (hq : w.faults = []) {state : OpenState}
    (hload : loadOpenState pol env p flags.needWrite flags.trunc w = .ok state w)
    {known : Option UInt64} {copyUp delete : Bool}
    (hdecide : decideOpen state = .openObject known true copyUp delete) (md : FileMetadata)
    {id : UInt64} {path : ObjectPath}
    (hens : objectForOpen env p md known true copyUp w = .ok (id, path) w₁) :
    Recovered pol env w w₁ p flags md (.openObject known true copyUp delete) id path ↔
      Recoverable pol w p flags := by
  obtain rfl := (EStateM.Result.ok.inj ((loadOpenState_quiet hq _ _).symm.trans hload)).1
  obtain ⟨hneeds, hcopyUp⟩ := ensure_of_decideOpen hdecide
  cases hreuse : (w.entry p).bind FuseEntry.reusableObject with
  | some oid =>
    -- the daemon hands out the object that is gone
    obtain ⟨e, he, hoid⟩ := Option.bind_eq_some_iff.mp hreuse
    have hobj : e.objectId = some oid := by
      unfold FuseEntry.reusableObject at hoid
      split at hoid
      · exact hoid
      · cases hoid
    have hbind : (w.entry p).bind (·.objectId) = some oid := by
      rw [he]
      exact hobj
    have hmissing : w.stored oid = none := by
      rcases hneeds with hnone | hnone
      · exact absurd (hnone.symm.trans hbind) nofun
      · have hpath : ((w.entry p).bind (·.objectId)).bind w.stored = none := hnone
        rw [hbind] at hpath
        exact hpath
    have hcopy : copyUp = false := by
      rw [Bool.eq_false_iff]
      intro hc
      exact absurd ((hcopyUp.mp hc).2.1.symm.trans hbind) nofun
    subst hcopy
    have hrun : objectForOpen env p md known true false w = _ := ensure_reused hq hreuse
      (fun store => store.allocEmpty env.storeIo) rfl
    rw [hrun] at hens
    cases hens
    refine iff_of_false (fun hrec => ?_) (fun hrec => ?_)
    · exact stored_none_iff.mp hmissing hrec.stored
    · have hnone := (hrec e he (by rw [hobj]; exact Option.some_ne_none _)).1
      rw [hoid] at hnone
      cases hnone
  | none =>
    obtain ⟨data, rfl, rfl, rfl, hdata⟩ := ensure_fresh hq hreuse hens
    have hobject : (w.newObject p md data).objects.lookup (objectPath w.daemon.state.nextId)
        = some data := by
      rw [World.objects_newObject, if_pos rfl]
    have hrun := executeOpen_fresh flags delete hq hens hdata
    constructor
    · intro hrec e he hne
      refine ⟨?_, fun hmode htrunc host hhost => ?_⟩
      · rw [he] at hreuse
        exact hreuse
      · obtain ⟨file, w₂, hopen, -, hcontent⟩ := hrec.opens
        rw [hrun] at hopen
        cases hopen
        have hsame : data = host :=
          Option.some.inj (hobject.symm.trans (hcontent hmode htrunc host hhost))
        have hcopy : copyUp = false := by
          rw [Bool.eq_false_iff]
          intro hc
          have hnone := (hcopyUp.mp hc).2.1
          rw [show (w.entry p).bind (·.objectId) = e.objectId by rw [he]; rfl] at hnone
          exact hne hnone
        rw [hcopy] at hdata
        rw [← hsame]
        exact hdata
    · intro hrec
      refine ⟨Finmap.lookup_isSome.mp (Option.isSome_of_eq_some hobject), ⟨?_, rfl⟩, _, _, hrun,
        rfl, ?_⟩
      · rw [World.entry_newObject, if_pos rfl]
        rfl
      · intro hmode htrunc host hhost
        rw [hobject]
        cases copyUp with
        | true => rw [Except.ok.inj (hdata.symm.trans hhost)]
        | false =>
          have hempty : data = [] := hdata
          cases hobj : (w.entry p).bind (·.objectId) with
          | none =>
            -- then the host content would have been copied
            have hcopy := hcopyUp.mpr ⟨hmode, hobj, htrunc, exists_of_readFile hhost⟩
            cases hcopy
          | some oid =>
            obtain ⟨e, he, hoid⟩ := Option.bind_eq_some_iff.mp hobj
            have hnone := (hrec e he (by rw [hoid]; exact Option.some_ne_none _)).2 hmode htrunc
              host hhost
            rw [hempty, hnone]

end Recover

/-- The first write-open of a host file. -/
theorem writeOpen_recovers_copyUp :
    Recovered allCopyOnWrite Env.quiet (World.mount twoFiles (Server.init "s"))
        ((World.mount twoFiles (Server.init "s")).newObject [Name.a]
          (fileMetaNow Env.quiet 0 S_IFREG 0 0) [1]) [Name.a] ⟨.rdwr, false, false⟩
        (fileMetaNow Env.quiet 0 S_IFREG 0 0) (.openObject none true true true) 1
        (objectPath 1) := by
  refine Iff.mpr (writeOpen_recovers_iff rfl (loadOpenState_quiet rfl _ _) (by decide) _
    (ensureFileObjectFromReal_quiet rfl rfl (by decide) (by decide) _)) ?_
  -- the daemon has no entry for the path yet
  intro e he
  cases he

/-- `/a` was created, and its object file is gone. -/
def lostA : World :=
  { createdA with
    daemon := { createdA.daemon with storage := { createdA.daemon.storage with objects := ∅ } } }

/-- The daemon hands out the lost object, and the open fails. -/
theorem not_writeOpen_recovers :
    ¬ ∀ (pol : Policy) (env : Env) (w w₁ : World) (p : FsPath) (flags : OpenFlags)
      (state : OpenState) (known : Option UInt64) (copyUp delete : Bool) (md : FileMetadata)
      (id : UInt64) (path : ObjectPath), w.faults = [] →
      loadOpenState pol env p flags.needWrite flags.trunc w = .ok state w →
      decideOpen state = .openObject known true copyUp delete →
      objectForOpen env p md known true copyUp w = .ok (id, path) w₁ →
      Recovered pol env w w₁ p flags md (.openObject known true copyUp delete) id path := by
  intro h
  have hens : objectForOpen Env.quiet [Name.a] (fileMetaNow Env.quiet 0 S_IFREG 0 0) (some 1) true
      false lostA = .ok (1, objectPath 1)
        (lostA.published [Name.a] (fileMetaNow Env.quiet 0 S_IFREG 0 0) 1) :=
    ensure_reused rfl (by decide) (fun store => store.allocEmpty .ok) rfl
  have hrec := h allCopyOnWrite Env.quiet lostA _ [Name.a] ⟨.rdwr, false, false⟩ _ (some 1) false
    true _ 1 (objectPath 1) rfl (loadOpenState_quiet rfl _ _) (by decide) hens
  exact Finmap.notMem_empty hrec.stored

/-! ## §3. What stat and a fresh read notice. -/

/-- Stat of `p` and a fresh open and read of `ino` give in `w'` what they gave in `w`. -/
def SameToReaders (pol : Policy) (w w' : World) (p : FsPath) (ino : UInt64) : Prop :=
  (∀ s, StatReports pol w p s ↔ StatReports pol w' p s) ∧
    ∀ env : Env, env.faults = [] → ∀ offset len,
      freshRead pol env w' ino offset len = freshRead pol env w ino offset len

/-- What a stat reports after the entry has been made anew. -/
def defaultShown (env : Env) : Shown := ⟨.regularFile, 0, 0o644, env.uid, env.gid⟩

/-- The open finds the object of the entry; or the object cannot be made; or the file looks like a
new one. -/
def OpensUnseen (env : Env) (w : World) (p : FsPath) (s : Shown) : Prop :=
  (∃ id ∈ (w.entry p).bind (·.objectId), objectPath id ∈ w.objects) ∨
    (w.entry p = none ∧ env.storeIo ≠ .ok) ∨ s = defaultShown env

instance (env : Env) (w : World) (p : FsPath) (s : Shown) : Decidable (OpensUnseen env w p s) :=
  inferInstanceAs (Decidable (_ ∨ _ ∨ _))

section Unseen

variable {pol : Policy} {env : Env} {w : World} {p : FsPath} {s : Shown} {ino : UInt64}
  {flags : OpenFlags}

theorem entryShown_default (env : Env) (id : UInt64) :
    entryShown (.ofObject (fileMetaNow env 0 (S_IFREG ||| 0o644) env.uid env.gid) id)
      = some (defaultShown env) := by
  have hmd : typeBits (fileMetaNow env 0 (S_IFREG ||| 0o644) env.uid env.gid) = S_IFREG :=
    typeBits_regular 0 0o644 env.uid env.gid env
  unfold entryShown
  rw [kindFromEntry_file (GoodEntry.ofObject hmd id) rfl]
  have hperm : (S_IFREG ||| 0o644) &&& 0o7777 = 0o644 := by decide
  show some (Shown.mk .regularFile 0 ((S_IFREG ||| 0o644) &&& 0o7777) env.uid env.gid) = _
  rw [hperm]
  rfl

/-- Readers notice nothing when the attributes and the content are the same. -/
theorem sameToReaders_iff {w' : World} (hw : Reachable pol w) (hw' : Reachable pol w')
    (hs : shownAt pol w p = some s) (hk : s.kind = .regularFile)
    (hino : w.inodes.getPath ino = some p) (hino' : w'.inodes.getPath ino = some p) {s' : Shown}
    (hs' : shownAt pol w' p = some s') (hk' : s'.kind = .regularFile)
    (hcontent : contentAt pol w' p = contentAt pol w p) :
    SameToReaders pol w w' p ino ↔ s' = s := by
  constructor
  · intro h
    have hrep := (h.1 s).mp (statReports_iff.mpr hs)
    exact Option.some.inj (hs'.symm.trans (statReports_iff.mp hrep))
  · rintro rfl
    refine ⟨fun t => ?_, fun env hq offset len => ?_⟩
    · rw [statReports_iff, statReports_iff, hs, hs']
    · rw [freshRead_eq env hq hw.goodStore hino hs hk,
        freshRead_eq env hq hw'.goodStore hino' hs' hk', hcontent]

/-- Readers of an entry that has been made anew. -/
theorem sameToReaders_default {w' : World} (hw : Reachable pol w) (hw' : Reachable pol w')
    (hmode : pol.classify p = .copyOnWrite) (hs : shownAt pol w p = some s)
    (hk : s.kind = .regularFile) (hino : w.inodes.getPath ino = some p)
    (hino' : w'.inodes.getPath ino = some p) {id : UInt64}
    (hentry : w'.entry p
      = some (.ofObject (fileMetaNow env 0 (S_IFREG ||| 0o644) env.uid env.gid) id))
    (hobject : w'.objects.lookup (objectPath id) = contentAt pol w p) :
    SameToReaders pol w w' p ino ↔ s = defaultShown env := by
  have hstat : ¬ StatsHost pol w' p := by
    rintro (hpass | ⟨-, hnone⟩)
    · rw [hmode] at hpass
      cases hpass
    · rw [hentry] at hnone
      cases hnone
  have hshown : shownAt pol w' p = some (defaultShown env) := by
    rw [shownAt_entry hstat, hentry]
    exact entryShown_default env id
  rw [sameToReaders_iff hw hw' hs hk hino hino' hshown rfl
    ((contentAt_entry hstat hentry rfl rfl).2.trans hobject)]
  exact eq_comm

variable (env flags) in
/-- An open of a lost object: the entry is made anew, and the open fails. -/
theorem open_lost (hq : w.faults = []) (hmode : pol.classify p = .copyOnWrite)
    (hino : w.inodes.getPath ino = some p) (hwrite : flags.needWrite = true) {e : FuseEntry}
    (he : w.entry p = some e) (hwhite : e.entryType ≠ .whiteout) {id : UInt64}
    (hid : e.objectId = some id) (hreuse : e.reusableObject = some id)
    (hlost : objectPath id ∉ w.objects) :
    «open» pol env ino flags w = .error (.ofErrno .enoent)
      (w.published p (fileMetaNow env 0 (S_IFREG ||| 0o644) env.uid env.gid) id) := by
  have hload : loadOpenState pol env p flags.needWrite flags.trunc w = _ :=
    loadOpenState_quiet hq _ _
  have hdecide : decideOpen ⟨pol.classify p, p, flags.needWrite, flags.trunc, w.host.exists p,
      w.entry p, ((w.entry p).bind (·.objectId)).bind w.stored⟩
        = .openObject (some id) true false true := by
    have hnot : isWhiteoutEntry (w.entry p) = false := by
      rw [he]
      exact decide_eq_false hwhite
    have hbind : (w.entry p).bind (·.objectId) = some id := by
      rw [he]
      exact hid
    have hnone : (some id).bind w.stored = none := stored_none_iff.mpr hlost
    unfold decideOpen computeOpenBehavior
    simp [hnot, hbind, hnone, hmode, hwrite]
  have hens : objectForOpen env p (fileMetaNow env 0 (S_IFREG ||| 0o644) env.uid env.gid) (some id)
      true false w = .ok (id, objectPath id)
        (w.published p (fileMetaNow env 0 (S_IFREG ||| 0o644) env.uid env.gid) id) := by
    have hbind : (w.entry p).bind FuseEntry.reusableObject = some id := by
      rw [he]
      exact hreuse
    exact ensure_reused hq hbind (fun store => store.allocEmpty env.storeIo) rfl
  have hexec : executeOpen env (.openObject (some id) true false true) p flags
      (fileMetaNow env 0 (S_IFREG ||| 0o644) env.uid env.gid) w = .error (.ofErrno .enoent)
        (w.published p (fileMetaNow env 0 (S_IFREG ||| 0o644) env.uid env.gid) id) := by
    have hentry : (w.published p (fileMetaNow env 0 (S_IFREG ||| 0o644) env.uid env.gid) id).entry p
        = some (.ofObject (fileMetaNow env 0 (S_IFREG ||| 0o644) env.uid env.gid) id) := by
      rw [World.entry_published, if_pos rfl]
    rw [executeOpen_ensured (some id) hens hentry rfl ⟨hq, rfl⟩]
    apply run_bind_error
    have hcreate : ¬ (flags.options.create = true ∧ flags.options.write = false ∧
        flags.options.append = false) := fun hc => by cases hc.1
    unfold openObject
    apply run_bind_error
    apply onObjects_error
    have hgone : objectPath id ∉ (w.published p
        (fileMetaNow env 0 (S_IFREG ||| 0o644) env.uid env.gid) id).daemon.storage.objects := hlost
    rw [if_neg hcreate, if_neg hgone]
    rfl
  have hpath : pathOf ino w = .ok p w := pathOf_ok hino
  unfold «open»
  rw [run_bind_ok hpath, run_bind_ok (reqStart_quiet hq _ _), run_bind_ok (connectDaemon_quiet hq),
    run_bind_ok hload, hdecide]
  exact run_bind_error hexec

variable (env) in
/-- An open whose copy-up fails at the daemon. -/
theorem open_notCopied (hq : w.faults = []) (hmode : pol.classify p = .copyOnWrite)
    (hino : w.inodes.getPath ino = some p) (hwrite : flags.needWrite = true)
    (htrunc : flags.trunc = false) (hentry : w.entry p = none) {data : Bytes}
    (hreal : w.host.readFile p = .ok data) (hio : env.storeIo ≠ .ok) :
    ∃ err store, «open» pol env ino flags w
      = .error err { w with daemon := w.daemon.withObjects store } := by
  have hload : loadOpenState pol env p flags.needWrite flags.trunc w = _ :=
    loadOpenState_quiet hq _ _
  have hdecide : decideOpen ⟨pol.classify p, p, flags.needWrite, flags.trunc, w.host.exists p,
      w.entry p, ((w.entry p).bind (·.objectId)).bind w.stored⟩
        = .openObject none true true true :=
    decideOpen_write_new hmode hwrite htrunc hentry (exists_of_readFile hreal)
  have hreuse : (w.entry p).bind FuseEntry.reusableObject = none := by
    rw [hentry]
    rfl
  obtain ⟨msg, store, halloc⟩ : ∃ msg store, w.daemon.objects.putCopyFrom env.storeIo
      ((env.dispatchEnv w.host).real p) = (.error msg, store) := by
    unfold ObjectStore.putCopyFrom Env.dispatchEnv
    cases hs : env.storeIo with
    | ok => exact absurd hs hio
    | createFails err =>
      simp only [hreal, Except.mapError]
      exact ⟨_, _, rfl⟩
    | writeFails n err =>
      simp only [hreal, Except.mapError]
      exact ⟨_, _, rfl⟩
  have hens : objectForOpen env p (fileMetaNow env 0 (S_IFREG ||| 0o644) env.uid env.gid) none
      true true w = .error (.syncingClient (.server msg))
        { w with daemon := w.daemon.withObjects store } := by
    have hrun : objectForOpen env p (fileMetaNow env 0 (S_IFREG ||| 0o644) env.uid env.gid) none
        true true w = _ := ensure_made hq hreuse
      (fun store => store.putCopyFrom env.storeIo ((env.dispatchEnv w.host).real p)) rfl
    rw [hrun, halloc]
  have hpath : pathOf ino w = .ok p w := pathOf_ok hino
  refine ⟨.syncingClient (.server msg), store, ?_⟩
  unfold «open»
  rw [run_bind_ok hpath, run_bind_ok (reqStart_quiet hq _ _), run_bind_ok (connectDaemon_quiet hq),
    run_bind_ok hload, hdecide]
  apply run_bind_error
  rw [executeOpen_openObject]
  exact run_bind_error hens

/-- **Copy-up is invisible to stat and to readers** exactly when the object is there already, when
none can be made, or when the file looks like one that the opener has just made. -/
theorem writeOpen_unseen_iff (hw : Reachable pol w) (hq : env.faults = [])
    (hmode : pol.classify p = .copyOnWrite) (hino : w.inodes.getPath ino = some p)
    (hs : StatReports pol w p s) (hk : s.kind = .regularFile) (hwrite : flags.needWrite = true)
    (htrunc : flags.trunc = false) :
    SameToReaders pol w (serveFuse pol env w (.open ino flags)).2 p ino ↔ OpensUnseen env w p s := by
  have hshown : shownAt pol w p = some s := statReports_iff.mp hs
  have hw' : Reachable pol (serveFuse pol env w (.open ino flags)).2 := .serve hw env _
  cases he : w.entry p with
  | some e =>
    have hstat : ¬ StatsHost pol w p := by
      rintro (hpass | ⟨-, hnone⟩)
      · rw [hmode] at hpass
        cases hpass
      · rw [he] at hnone
        cases hnone
    have hse : entryShown e = some s := by
      rw [shownAt_entry hstat, he] at hshown
      exact hshown
    have hgood : GoodEntry e := hw.goodStore.entries p e he
    obtain ⟨ht, id, hid⟩ := entryShown_regular hgood hse hk
    have hwhite : e.entryType ≠ .whiteout := by
      rw [ht]
      exact nofun
    have hbind : (w.entry p).bind (·.objectId) = some id := by
      rw [he]
      exact hid
    by_cases hmem : objectPath id ∈ w.objects
    · -- the object is there
      obtain ⟨data, hdata⟩ := Finmap.mem_iff.mp hmem
      have hrun := open_object (w := { w with faults := env.faults }) env hq hmode hino hwrite he
        hwhite hid hdata
      rw [serveFuse_ok (.open ino flags) hrun] at hw' ⊢
      rw [sameToReaders_iff hw hw' hshown hk hino hino hshown hk rfl]
      exact iff_of_true rfl (Or.inl ⟨id, hbind, hmem⟩)
    · -- it is lost
      have htarget : e.symlinkTarget = none := by
        by_contra hne
        have hlink := hgood.shape.2.mp (Option.isSome_iff_ne_none.mpr hne)
        rw [ht] at hlink
        cases hlink
      have hreuse : e.reusableObject = some id := by
        unfold FuseEntry.reusableObject
        rw [if_pos ⟨ht, htarget⟩, hid]
      have hrun := open_lost (w := { w with faults := env.faults }) env flags hq hmode hino
        hwrite he hwhite hid hreuse hmem
      rw [serveFuse_error (.open ino flags) hrun] at hw' ⊢
      have hentry : (World.published { w with faults := env.faults } p
          (fileMetaNow env 0 (S_IFREG ||| 0o644) env.uid env.gid) id).entry p
            = some (.ofObject (fileMetaNow env 0 (S_IFREG ||| 0o644) env.uid env.gid) id) := by
        rw [World.entry_published, if_pos rfl]
      rw [sameToReaders_default hw hw' hmode hshown hk hino hino hentry
        (contentAt_entry hstat he ht hid).2.symm]
      unfold OpensUnseen
      rw [hbind, he]
      constructor
      · exact fun hsame => Or.inr (Or.inr hsame)
      · rintro (⟨i, hi, hstored⟩ | ⟨hnone, -⟩ | hsame)
        · cases hi
          exact absurd hstored hmem
        · cases hnone
        · exact hsame
  | none =>
    have hstat : StatsHost pol w p := Or.inr ⟨hmode, he⟩
    have hhost : hostShown w.host p = some s := by
      rw [← shownAt_host hstat]
      exact hshown
    obtain ⟨found, data, -, hfind, hdata⟩ := hostShown_regular hhost hk
    have hreal : w.host.readFile p = .ok data := readFile_of_find hfind hdata
    have hcontent₀ : contentAt pol w p = some data := by
      apply (contentAt_host hstat _ hfind hdata).2
      rw [he]
      rfl
    by_cases hio : env.storeIo = .ok
    · -- the copy-up
      have hrun := open_copyUp (w := { w with faults := env.faults }) env hq hio hmode hino
        hwrite htrunc he hreal (exists_of_readFile hreal)
      rw [serveFuse_ok (.open ino flags) hrun] at hw' ⊢
      have hentry : (World.withHandle (World.newObject { w with faults := env.faults } p
          (fileMetaNow env 0 (S_IFREG ||| 0o644) env.uid env.gid) data)
            (objectHandle flags.options w.daemon.state.nextId)).entry p
              = some (.ofObject (fileMetaNow env 0 (S_IFREG ||| 0o644) env.uid env.gid)
                  w.daemon.state.nextId) := by
        show (World.newObject _ p _ data).entry p = _
        rw [World.entry_newObject, if_pos rfl]
      have hobject : (World.withHandle (World.newObject { w with faults := env.faults } p
          (fileMetaNow env 0 (S_IFREG ||| 0o644) env.uid env.gid) data)
            (objectHandle flags.options w.daemon.state.nextId)).objects.lookup
              (objectPath w.daemon.state.nextId) = contentAt pol w p := by
        show (World.newObject _ p _ data).objects.lookup _ = _
        rw [World.objects_newObject, if_pos rfl, hcontent₀]
      rw [sameToReaders_default hw hw' hmode hshown hk hino hino hentry hobject]
      unfold OpensUnseen
      rw [he]
      constructor
      · exact fun hsame => Or.inr (Or.inr hsame)
      · rintro (⟨i, hi, -⟩ | ⟨-, hfails⟩ | hsame)
        · cases hi
        · exact absurd hio hfails
        · exact hsame
    · -- no object can be made
      obtain ⟨err, store, hrun⟩ := open_notCopied (w := { w with faults := env.faults }) env hq
        hmode hino hwrite htrunc he hreal hio
      rw [serveFuse_error (.open ino flags) hrun] at hw' ⊢
      have hcontent : contentAt pol ({ w with
          faults := env.faults
          daemon := w.daemon.withObjects store } : World) p = contentAt pol w p := by
        have hnot : isWhiteoutEntry (w.entry p) = false := by
          rw [he]
          rfl
        rw [hcontent₀]
        exact (contentAt_host (w := ({ w with
          faults := env.faults
          daemon := w.daemon.withObjects store } : World)) hstat hnot hfind hdata).2
      rw [sameToReaders_iff hw hw' hshown hk hino hino hshown hk hcontent]
      exact iff_of_true rfl (Or.inr (Or.inl ⟨he, hio⟩))

end Unseen

/-- A write-open of a file that was created finds its object. -/
theorem writeOpen_unseen_created :
    SameToReaders allCopyOnWrite createdA
      (serveFuse allCopyOnWrite Env.quiet createdA (.open 2 ⟨.rdwr, false, false⟩)).2 [Name.a] 2 :=
  (writeOpen_unseen_iff (s := defaultShown Env.quiet) (.serve (.mount emptyRoot "s") _ _) rfl rfl
    (by decide) (statReports_iff.mpr (by decide)) rfl rfl rfl).mpr (by decide)

/-- `/a` of the host has been looked up. -/
def foundA : World :=
  (serveFuse allCopyOnWrite Env.quiet (World.mount twoFiles (Server.init "s"))
    (.lookup 1 (.name Name.a))).2

/-- After a write-open of a host file stat shows size 0. -/
theorem not_writeOpen_unseen :
    ¬ ∀ (pol : Policy) (w : World), Reachable pol w → ∀ (p : FsPath) (ino : UInt64) (s : Shown),
      pol.classify p = .copyOnWrite → w.inodes.getPath ino = some p →
      StatReports pol w p s → s.kind = .regularFile → ∀ (env : Env) (flags : OpenFlags),
      env.faults = [] → env.storeIo = .ok → flags.needWrite = true → flags.trunc = false →
      SameToReaders pol w (serveFuse pol env w (.open ino flags)).2 p ino := by
  intro h
  have hbefore : StatReports allCopyOnWrite foundA [Name.a] ⟨.regularFile, 1, 0o644, 0, 0⟩ :=
    statReports_iff.mpr (by decide)
  have hsame := h allCopyOnWrite foundA (.serve (.mount twoFiles "s") _ _) [Name.a] 2 _ rfl
    (by decide) hbefore rfl Env.quiet ⟨.rdwr, false, false⟩ rfl rfl rfl rfl
  have hafter := statReports_iff.mp ((hsame.1 _).mp hbefore)
  exact absurd hafter (by decide)

end Cas.Fuse
