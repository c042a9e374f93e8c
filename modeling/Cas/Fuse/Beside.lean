/-
  Cas.Fuse.Beside — the same work done on two hosts.

  Two worlds with the same daemon and the same tables differ in the host
  only (`Beside`).  A message or a table goes alike in both (`Same`); a
  stat, an open or work on a descriptor does when the host calls it makes
  do.  A FuseOnly path needs none: what is looked up on the host for it
  decides nothing.
-/
import Cas.Fuse.View

namespace Cas.Fuse

open Cas.Lib Cas.Host Cas.Syncing

/-! ## §1. Worlds side by side. -/

/-- How the hosts of two runs are related, given the files open in both. -/
abbrev HostRel := FileSystem → FileSystem → FMap UInt64 OpenFile → Prop

/-- The same world on another host. -/
def Beside (R : HostRel) (w w' : World) : Prop :=
  ∃ host', w' = { w with host := host' } ∧ R w.host host' w.openFiles

variable {R T : HostRel} {α : Type} (pol : Policy) (env : Env)

theorem Beside.mono {w w' : World} (h : Beside R w w') (hR : ∀ fs fs' files, R fs fs' files →
    T fs fs' files) : Beside T w w' := by
  obtain ⟨host', rfl, hw⟩ := h
  exact ⟨host', rfl, hR _ _ _ hw⟩

/-! ## §2. Messages and tables. -/

theorem same_nextFault : Same (Beside R) nextFault nextFault := by
  intro w w' h
  obtain ⟨host', rfl, hw⟩ := h
  exact ⟨rfl, host', rfl, hw⟩

theorem same_connectDaemon : Same (Beside R) connectDaemon connectDaemon := by
  apply Same.bind same_nextFault
  intro fault
  cases fault with
  | none => exact Same.ret
  | some f => cases f <;> exact Same.fail

/-- Only the copying allocation reads the host. -/
def copiesHost : Request → Prop
  | .ensureFileObjectFromReal _ _ => True
  | _ => False

theorem dispatch_host {req : Request} (hreq : ¬ copiesHost req) (fs fs' : FileSystem) (s : Server) :
    dispatch (env.dispatchEnv fs') s req = dispatch (env.dispatchEnv fs) s req := by
  cases req with
  | ensureFileObjectFromReal path md => exact absurd trivial hreq
  | _ => rfl

theorem same_sendRequest {req : Request} (hsame : ∀ fs fs' files s, R fs fs' files →
    dispatch (env.dispatchEnv fs') s req = dispatch (env.dispatchEnv fs) s req) :
    Same (Beside R) (sendRequest env req) (sendRequest env req) := by
  have hnow : Same (Beside R) (dispatchNow env req) (dispatchNow env req) := by
    intro w w' h
    obtain ⟨host', rfl, hw⟩ := h
    unfold dispatchNow
    simp only [hsame _ _ _ w.daemon hw]
    exact ⟨trivial, host', rfl, hw⟩
  apply Same.bind same_nextFault
  intro fault
  cases fault with
  | none => exact hnow
  | some f =>
    cases f with
    | unsent err => exact Same.fail
    | lost err => exact Same.bind hnow fun _ => Same.fail

theorem same_take {take : Response → Option α} {response : Response} :
    Same (Beside R) (match take response with
      | some a => pure a
      | none =>
        match response with
        | .error msg => throw (.syncingClient (.server msg))
        | _ => throw unexpected : FuseM α) (match take response with
      | some a => pure a
      | none =>
        match response with
        | .error msg => throw (.syncingClient (.server msg))
        | _ => throw unexpected : FuseM α) := by
  cases take response with
  | some a => exact Same.ret
  | none => cases response <;> exact Same.fail

theorem same_call (req : Request) (take : Response → Option α)
    (hreq : ¬ copiesHost req) :
    Same (Beside R) (call env req take) (call env req take) :=
  Same.bind (same_sendRequest env fun fs fs' _ s _ => dispatch_host env hreq fs fs' s)
    fun _ => same_take

theorem same_getObjectPath (id : UInt64) :
    Same (Beside R) (Client.getObjectPath env id) (Client.getObjectPath env id) := by
  apply Same.bind (same_sendRequest env fun fs fs' _ s _ =>
    dispatch_host env (show ¬ copiesHost (.getObjectPath id) from not_false) fs fs' s)
  intro response
  cases response <;> first | exact Same.ret | exact Same.fail

theorem same_pathOf (ino : UInt64) : Same (Beside R) (pathOf ino) (pathOf ino) := by
  intro w w' h
  obtain ⟨host', rfl, hw⟩ := h
  unfold pathOf
  simp only
  cases w.inodes.getPath ino <;> exact ⟨rfl, host', rfl, hw⟩

theorem same_getOrInsert (path : FsPath) :
    Same (Beside R) (getOrInsert path) (getOrInsert path) := by
  intro w w' h
  obtain ⟨host', rfl, hw⟩ := h
  exact ⟨rfl, host', rfl, hw⟩

theorem same_childEntries (children : List (Name × FileType × FsPath)) :
    Same (Beside R) (childEntries children) (childEntries children) := by
  induction children with
  | nil => exact Same.ret
  | cons child rest ih =>
    obtain ⟨name, kind, full⟩ := child
    exact Same.bind (same_getOrInsert full) fun _ => Same.bind ih fun _ => Same.ret

theorem same_onObjects (f : FMap ObjectPath Bytes → Except Errno (α × FMap ObjectPath Bytes)) :
    Same (Beside R) (onObjects f) (onObjects f) := by
  intro w w' h
  obtain ⟨host', rfl, hw⟩ := h
  unfold onObjects
  simp only
  cases f w.daemon.storage.objects <;> exact ⟨rfl, host', rfl, hw⟩

/-- An open file that both runs may keep. -/
theorem agree_addOpenFile {file : OpenFile} (hadd : ∀ fs fs' files fh, R fs fs' files →
    T fs fs' (files.insert fh file)) :
    Agree (Beside R) (addOpenFile file) (addOpenFile file)
      (fun fh fh' w w' => fh = fh' ∧ Beside T w w') (Beside T) := by
  intro w w' h
  obtain ⟨host', rfl, hw⟩ := h
  exact ⟨rfl, host', rfl, hadd _ _ _ _ hw⟩

theorem same_removeOpenFile (fh : UInt64) (hdrop : ∀ fs fs' files, R fs fs' files →
    R fs fs' (files.erase fh)) : Same (Beside R) (removeOpenFile fh) (removeOpenFile fh) := by
  intro w w' h
  obtain ⟨host', rfl, hw⟩ := h
  exact ⟨rfl, host', rfl, hdrop _ _ _ hw⟩

/-! ## §3. Host calls. -/

theorem same_peekHost {f : FileSystem → α} (hf : ∀ fs fs' files, R fs fs' files → f fs' = f fs) :
    Same (Beside R) (peekHost f) (peekHost f) := by
  intro w w' h
  obtain ⟨host', rfl, hw⟩ := h
  exact ⟨(hf _ _ _ hw).symm, host', rfl, hw⟩

/-- What is looked up may differ. -/
theorem agree_peekHost (f : FileSystem → α) :
    Agree (Beside R) (peekHost f) (peekHost f) (fun _ _ => Beside R) (Beside R) := fun _ _ h => h

theorem same_readHost {f : FileSystem → Except Errno α}
    (hf : ∀ fs fs' files, R fs fs' files → f fs' = f fs) :
    Same (Beside R) (readHost f) (readHost f) := by
  intro w w' h
  obtain ⟨host', rfl, hw⟩ := h
  unfold readHost
  simp only [hf _ _ _ hw]
  cases f w.host <;> exact ⟨rfl, host', rfl, hw⟩

/-- Two results of one call: the same value on hosts that `Q` relates, or the same error. -/
def CallsAgree (Q : α → FileSystem → FileSystem → Prop) (E : Prop)
    (r r' : Except Errno (α × FileSystem)) : Prop :=
  match r, r' with
  | .ok (a, fs), .ok (a', fs') => a = a' ∧ Q a fs fs'
  | .error errno, .error errno' => errno = errno' ∧ E
  | _, _ => False

theorem agree_onHost {Q : α → HostRel} {f : FileSystem → Except Errno (α × FileSystem)}
    (hf : ∀ fs fs' files, R fs fs' files →
      CallsAgree (fun a t t' => Q a t t' files) (T fs fs' files) (f fs) (f fs')) :
    Agree (Beside R) (onHost f) (onHost f) (fun a a' w w' => a = a' ∧ Beside (Q a) w w')
      (Beside T) := by
  intro w w' h
  obtain ⟨host', rfl, hw⟩ := h
  have key := hf _ _ _ hw
  unfold CallsAgree at key
  unfold onHost
  simp only
  cases hr : f w.host with
  | ok r =>
    cases hr' : f host' with
    | ok r' =>
      rw [hr, hr'] at key
      exact ⟨key.1, r'.2, rfl, key.2⟩
    | error errno' =>
      rw [hr, hr'] at key
      exact key.elim
  | error errno =>
    cases hr' : f host' with
    | ok r' =>
      rw [hr, hr'] at key
      exact key.elim
    | error errno' =>
      rw [hr, hr'] at key
      exact ⟨congrArg Error.ofErrno key.1, host', rfl, key.2⟩

/-! ## §4. stat. -/

/-- Worlds side by side of which `D` is known. -/
def Knowing (D : World → Prop) (R : HostRel) (w w' : World) : Prop := Beside R w w' ∧ D w

theorem Same.knowing {D : World → Prop} {m m' : FuseM α} (h : Same (Beside R) m m')
    (hD : Keeps D m) : Same (Knowing D R) m m' :=
  (h.and_ensures hD).weaken (fun _ _ hw => hw) (fun _ _ _ _ hw => ⟨hw.1.1, hw.1.2, hw.2⟩)
    fun _ _ hw => hw

theorem Knowing.forget {D : World → Prop} {w w' : World} (h : Knowing D R w w') : Beside R w w' :=
  h.1

/-- The entry of a path is known. -/
def EntryIs (path : FsPath) (entry : Option FuseEntry) (w : World) : Prop := w.entry path = entry

theorem steady_entryIs {path : FsPath} {entry : Option FuseEntry} : Steady (EntryIs path entry) :=
  fun _ _ h => h

/-- What is known of an entry is what the daemon replies. -/
theorem agree_getEntry (path : FsPath) (entry : Option FuseEntry) :
    Agree (Knowing (EntryIs path entry) R) (Client.getEntry env path) (Client.getEntry env path)
      (fun a a' w w' => a = a' ∧ a = entry ∧ Knowing (EntryIs path entry) R w w') (Beside R) := by
  have hreply : Ensures (EntryIs path entry) (Client.getEntry env path)
      (fun a w => a = entry ∧ EntryIs path entry w) (EntryIs path entry) :=
    ensures_call env steady_entryIs
      (fun w a hw ha => ⟨(Option.some.inj ha).symm.trans hw, hw⟩) (fun w hw => hw) fun _ hw => hw
  have hsame : Same (Beside R) (Client.getEntry env path) (Client.getEntry env path) :=
    same_call env _ _ (by exact not_false)
  exact (hsame.and_ensures hreply).weaken (fun _ _ hw => hw)
    (fun _ _ _ _ hw => ⟨hw.1.1, hw.2.1, hw.1.2, hw.2.2⟩) fun _ _ hw => hw.1

/-- Both hosts have the same node at a path, unless the path is FuseOnly. -/
def StatsAlike (pol : Policy) (R : HostRel) (path : FsPath) : Prop :=
  pol.classify path ≠ .fuseOnly → ∀ fs fs' files, R fs fs' files →
    fs'.symlinkMetadata path = fs.symlinkMetadata path

theorem decideStat_fuseOnly (realExists : Bool) (entry : Option FuseEntry) :
    decideStat ⟨.fuseOnly, realExists, entry⟩ ≠ .useReal := by
  unfold decideStat
  cases entry with
  | none => simp
  | some e => by_cases ht : e.entryType = .whiteout <;> simp [ht]

/-- Where a node of the host would not be shown, the host decides nothing. -/
theorem decideStat_unshown {mode : AccessMode} {entry : Option FuseEntry}
    (h : decideStat ⟨mode, true, entry⟩ ≠ .useReal) (realExists : Bool) :
    decideStat ⟨mode, realExists, entry⟩ = decideStat ⟨mode, true, entry⟩ := by
  cases realExists with
  | true => rfl
  | false =>
    cases mode with
    | passthrough => exact absurd rfl h
    | fuseOnly => rfl
    | copyOnWrite =>
      cases entry with
      | none => exact absurd rfl h
      | some e => rfl

theorem same_statFusePath (path : FsPath) :
    Same (Beside R) (statFusePath env path) (statFusePath env path) := by
  apply Same.bind (same_call env _ _ (by exact not_false))
  intro entry
  cases entry with
  | none => exact Same.fail
  | some e =>
    dsimp only
    cases kindFromEntry e with
    | none => exact Same.fail
    | some kind => exact Same.bind (same_getOrInsert path) fun _ => Same.ret

variable {path : FsPath}

/-- **stat** asks the host when the entry does not decide. -/
theorem agree_statPath {entry : Option FuseEntry}
    (h : decideStat ⟨pol.classify path, true, entry⟩ = .useReal → ∀ fs fs' files, R fs fs' files →
      fs'.symlinkMetadata path = fs.symlinkMetadata path) :
    Agree (Knowing (EntryIs path entry) R) (statPath pol env path) (statPath pol env path)
      (fun a a' w w' => a = a' ∧ Beside R w w') (Beside R) := by
  apply Agree.bind_same ((Same.knowing same_connectDaemon (keeps_connectDaemon steady_entryIs)).weaken
    (fun _ _ hw => hw) (fun _ _ _ _ hw => hw) fun _ _ hw => hw.1)
  intro _
  have hload : Agree (Knowing (EntryIs path entry) R) (loadStatState pol env path)
      (loadStatState pol env path)
      (fun state state' w w' => decideStat state = decideStat state' ∧
        (decideStat state = .useReal → decideStat ⟨pol.classify path, true, entry⟩ = .useReal) ∧
        Beside R w w') (Beside R) := by
    have hpeek : Agree (Knowing (EntryIs path entry) R)
        (peekHost fun fs => (fs.symlinkMetadata path).isOk)
        (peekHost fun fs => (fs.symlinkMetadata path).isOk)
        (fun real real' w w' => (decideStat ⟨pol.classify path, true, entry⟩ = .useReal →
          real = real') ∧ Knowing (EntryIs path entry) R w w') (Beside R) := by
      intro w w' hw
      obtain ⟨⟨host', rfl, hR⟩, hentry⟩ := hw
      exact ⟨fun huse => congrArg (·.isOk) (h huse _ _ _ hR).symm, ⟨host', rfl, hR⟩, hentry⟩
    apply Agree.bind hpeek
    intro real real'
    apply Agree.of_fact
    intro hreal
    apply Agree.bind_eq (agree_getEntry env path entry)
    intro loaded
    apply Agree.of_fact
    intro hloaded
    subst hloaded
    apply Agree.ret
    intro w w' hw
    by_cases huse : decideStat ⟨pol.classify path, true, loaded⟩ = .useReal
    · rw [hreal huse]
      exact ⟨rfl, fun _ => huse, hw.1⟩
    · rw [decideStat_unshown huse real, decideStat_unshown huse real']
      exact ⟨rfl, id, hw.1⟩
  apply Agree.bind hload
  intro state state' w w' hw
  obtain ⟨hsame, huse, hbeside⟩ := hw
  rw [← hsame]
  refine (?_ : Same (Beside R) _ _) w w' hbeside
  cases hdecide : decideStat state with
  | useReal =>
    exact Same.bind (same_readHost (h (huse hdecide))) fun _ => Same.bind (same_getOrInsert path)
      fun _ => Same.ret
  | useFuse => exact same_statFusePath env path
  | notFound => exact Same.fail

/-- The daemon has an entry for the path. -/
def HasEntry (path : FsPath) (w : World) : Prop := ∃ e, w.entry path = some e

/-- An entry decides what a stat of a path that is not Passthrough reports. -/
theorem agree_statPath_entry (hmode : pol.classify path ≠ .passthrough) :
    Agree (Knowing (HasEntry path) R) (statPath pol env path) (statPath pol env path)
      (fun a a' w w' => a = a' ∧ Beside R w w') (Beside R) := by
  intro w w' hw
  obtain ⟨hbeside, e, he⟩ := hw
  have hdecides : decideStat ⟨pol.classify path, true, some e⟩ ≠ .useReal := by
    intro huse
    cases hm : pol.classify path with
    | passthrough => exact hmode hm
    | fuseOnly => exact decideStat_fuseOnly true (some e) (hm ▸ huse)
    | copyOnWrite =>
      rw [hm] at huse
      unfold decideStat at huse
      simp only at huse
      split at huse <;> cases huse
  exact agree_statPath pol env (fun huse => absurd huse hdecides) w w' ⟨hbeside, he⟩

/-- The daemon has a node at the path. -/
def HasNode (path : FsPath) (w : World) : Prop :=
  ∃ e, w.entry path = some e ∧ e.entryType ≠ .whiteout

theorem agree_statPath_node (hmode : pol.classify path ≠ .passthrough) :
    Agree (Knowing (HasNode path) R) (statPath pol env path) (statPath pol env path)
      (fun a a' w w' => a = a' ∧ Beside R w w') (Beside R) :=
  (agree_statPath_entry pol env hmode).weaken (fun _ _ hw => ⟨hw.1, hw.2.imp fun _ he => he.1⟩)
    (fun _ _ _ _ hw => hw) fun _ _ hw => hw

theorem same_statPath (h : StatsAlike pol R path) :
    Same (Beside R) (statPath pol env path) (statPath pol env path) := by
  intro w w' hw
  refine agree_statPath pol env (fun huse => h fun hmode => ?_) w w' ⟨hw, rfl⟩
  exact decideStat_fuseOnly true _ (hmode ▸ huse)

theorem same_entryReply (h : StatsAlike pol R path) :
    Same (Beside R) (entryReply pol env path) (entryReply pol env path) :=
  Same.bind (same_statPath pol env h) fun _ => Same.ret

theorem same_attrReply (h : StatsAlike pol R path) :
    Same (Beside R) (attrReply pol env path) (attrReply pol env path) :=
  Same.bind (same_statPath pol env h) fun _ => Same.ret

/-! ## §5. Opens. -/

/-- Both runs may keep `file` among their open files. -/
def Admits (R : HostRel) (file : OpenFile) : HostRel := fun fs fs' files =>
  R fs fs' files ∧ ∀ fh, R fs fs' (files.insert fh file)

/-- A file of the object store may always be opened and any file be closed. -/
structure FilesFree (R : HostRel) : Prop where
  object : ∀ fs fs' files (fd : Fd) path id, fd.backing = .object path → R fs fs' files →
    ∀ fh, R fs fs' (files.insert fh (.passthroughObject fd id))
  closed : ∀ fs fs' files fh, R fs fs' files → R fs fs' (files.erase fh)

/-- What an open of a path that is not FuseOnly does on the hosts, it does alike. -/
structure OpensAlike (pol : Policy) (env : Env) (R : HostRel) (path : FsPath) (opts : OpenOptions) :
    Prop where
  found : pol.classify path ≠ .fuseOnly → ∀ fs fs' files, R fs fs' files →
    fs'.exists path = fs.exists path ∧ fs'.readFile path = fs.readFile path
  opened : pol.classify path ≠ .fuseOnly →
    Agree (Beside R) (openHost env opts path) (openHost env opts path)
      (fun fd fd' w w' => fd = fd' ∧ Beside (Admits R (.passthroughReal fd)) w w') (Beside R)

theorem same_loadObjectPath (entry : Option FuseEntry) :
    Same (Beside R) (loadObjectPath env entry) (loadObjectPath env entry) := by
  unfold loadObjectPath
  cases entry.bind (·.objectId) with
  | none => exact Same.ret
  | some id => exact Same.bind (same_getObjectPath env id).attempt fun _ => Same.ret

theorem same_objectForOpen (md : FileMetadata) (known : Option UInt64) (ensure : Bool) :
    Same (Beside R) (objectForOpen env path md known ensure false)
      (objectForOpen env path md known ensure false) := by
  unfold objectForOpen
  cases ensure with
  | true => exact same_call env _ _ (by exact not_false)
  | false =>
    cases known with
    | none => exact Same.fail
    | some id => exact Same.bind (same_getObjectPath env id) fun _ => Same.ret

theorem same_copyingCall {md : FileMetadata} (hread : ∀ fs fs' files, R fs fs' files →
    fs'.readFile path = fs.readFile path) :
    Same (Beside R) (Client.ensureFileObjectFromReal env path md)
      (Client.ensureFileObjectFromReal env path md) := by
  apply Same.bind _ fun _ => same_take
  apply same_sendRequest
  intro fs fs' files s hR
  have hreal : (env.dispatchEnv fs').real path = (env.dispatchEnv fs).real path := by
    show (fs'.readFile path).mapError _ = (fs.readFile path).mapError _
    rw [hread fs fs' files hR]
  show s.ensureObject path md (fun store => store.putCopyFrom env.storeIo _) =
    s.ensureObject path md (fun store => store.putCopyFrom env.storeIo _)
  rw [hreal]

/-- The end of an open that works on an object. -/
theorem agree_openObjectFile (hfiles : FilesFree R) (opts : OpenOptions) (id : UInt64)
    (objectPath : ObjectPath) (delete : Bool) :
    Agree (Beside R) (onlyIf delete (ignore (Client.deleteWhiteout env path)) >>= fun _ =>
        openObject opts objectPath >>= fun file => pure (OpenFile.passthroughObject file id))
      (onlyIf delete (ignore (Client.deleteWhiteout env path)) >>= fun _ =>
        openObject opts objectPath >>= fun file => pure (OpenFile.passthroughObject file id))
      (fun file file' w w' => file = file' ∧ Beside (Admits R file) w w') (Beside R) := by
  apply Agree.bind_same (Same.onlyIf (same_call env _ _ (by exact not_false)).ignore)
  intro _
  have hopen : Agree (Beside R) (openObject opts objectPath) (openObject opts objectPath)
      (fun fd fd' w w' => fd = fd' ∧ fd = fdOf opts (.object objectPath) ∧ Beside R w w')
      (Beside R) :=
    Agree.bind_same (same_onObjects _) fun _ => Agree.ret fun _ _ hw => ⟨rfl, rfl, hw⟩
  apply Agree.bind_eq hopen
  intro fd
  apply Agree.ret
  intro w w' hw
  obtain ⟨rfl, host', rfl, hR⟩ := hw
  exact ⟨rfl, host', rfl, hR, hfiles.object _ _ _ _ _ _ rfl hR⟩

/-- Does carrying out the decision take the host's file? -/
def OpenDecision.usesHost : OpenDecision → Bool
  | .openReal => true
  | .openObject _ _ copyUpFromReal _ => copyUpFromReal
  | .notFound | .error => false

/-- Would an open take the host's file, were there one? -/
def opensHost (pol : Policy) (path : FsPath) (flags : OpenFlags) (entry : Option FuseEntry) : Bool :=
  (decideOpen ⟨pol.classify path, path, flags.needWrite, flags.trunc, true, entry, none⟩).usesHost

theorem decideOpen_fuseOnly (path : FsPath) (needWrite truncate real : Bool) (entry : Option FuseEntry)
    (objectPath : Option ObjectPath) :
    (decideOpen ⟨.fuseOnly, path, needWrite, truncate, real, entry, objectPath⟩).usesHost = false := by
  unfold decideOpen computeOpenBehavior
  by_cases hwhite : isWhiteoutEntry entry = true
  · rw [if_pos hwhite]
    rfl
  · rw [if_neg hwhite]
    rfl

/-- Where a file of the host would not be taken, the host decides nothing. -/
theorem decideOpen_unused {mode : AccessMode} {path : FsPath} {needWrite truncate : Bool}
    {entry : Option FuseEntry}
    (h : (decideOpen ⟨mode, path, needWrite, truncate, true, entry, none⟩).usesHost = false)
    (real real' : Bool) (objectPath : Option ObjectPath) :
    decideOpen ⟨mode, path, needWrite, truncate, real', entry, objectPath⟩
        = decideOpen ⟨mode, path, needWrite, truncate, real, entry, objectPath⟩ ∧
      (decideOpen ⟨mode, path, needWrite, truncate, real, entry, objectPath⟩).usesHost = false := by
  unfold decideOpen computeOpenBehavior at h ⊢
  by_cases hwhite : isWhiteoutEntry entry = true
  · rw [if_pos hwhite, if_pos hwhite]
    exact ⟨rfl, rfl⟩
  · rw [if_neg hwhite] at h ⊢
    rw [if_neg hwhite]
    cases mode with
    | passthrough => cases h
    | fuseOnly => exact ⟨rfl, rfl⟩
    | copyOnWrite =>
      cases needWrite with
      | false =>
        cases hid : entry.bind (·.objectId) with
        | none =>
          rw [hid] at h
          cases h
        | some id => cases objectPath <;> exact ⟨rfl, rfl⟩
      | true =>
        -- no copy, because of an object or a truncation
        have hno : (!(entry.bind (·.objectId)).isSome && !truncate && true) = false := h
        have hcopy : ∀ r : Bool, (!(entry.bind (·.objectId)).isSome && !truncate && r) = false := by
          intro r
          rw [Bool.and_true] at hno
          rw [hno, Bool.false_and]
        refine ⟨?_, hcopy real⟩
        show OpenDecision.openObject _ _ (!(entry.bind (·.objectId)).isSome && !truncate && real') _
          = .openObject _ _ (!(entry.bind (·.objectId)).isSome && !truncate && real) _
        rw [hcopy real, hcopy real']

theorem agree_executeOpen (hfiles : FilesFree R) {flags : OpenFlags} (decision : OpenDecision)
    (hvisible : decision.usesHost = true → pol.classify path ≠ .fuseOnly)
    (halike : decision.usesHost = true → OpensAlike pol env R path flags.options)
    (md : FileMetadata) :
    Agree (Beside R) (executeOpen env decision path flags md)
      (executeOpen env decision path flags md)
      (fun file file' w w' => file = file' ∧ Beside (Admits R file) w w') (Beside R) := by
  cases decision with
  | notFound => exact Agree.fail fun _ _ h => h
  | error => exact Agree.fail fun _ _ h => h
  | openReal =>
    exact Agree.bind_eq ((halike rfl).opened (hvisible rfl)) fun fd => Agree.ret fun _ _ hw => ⟨rfl, hw⟩
  | openObject known ensure copyUp delete =>
    cases copyUp with
    | false =>
      rw [executeOpen_openObject]
      apply Agree.bind_same (same_objectForOpen env md known ensure)
      intro object
      have hskip : Same (Beside R) (onlyIf false (ignore (copyToObject path object.2)))
          (onlyIf false (ignore (copyToObject path object.2))) :=
        Same.ret (P := Beside R) (a := ())
      exact Agree.bind_same hskip fun _ => agree_openObjectFile env hfiles _ _ _ _
    | true =>
      have hread : ∀ fs fs' files, R fs fs' files → fs'.readFile path = fs.readFile path :=
        fun fs fs' files hR => ((halike rfl).found (hvisible rfl) fs fs' files hR).2
      have hfor : Same (Beside R) (objectForOpen env path md known ensure true)
          (objectForOpen env path md known ensure true) := by
        unfold objectForOpen
        cases ensure with
        | true => exact same_copyingCall env hread
        | false =>
          cases known with
          | none => exact Same.fail
          | some id => exact Same.bind (same_getObjectPath env id) fun _ => Same.ret
      rw [executeOpen_openObject]
      apply Agree.bind_same hfor
      intro object
      apply Agree.bind_same (Same.onlyIf (Same.bind (same_readHost hread) fun _ =>
        same_onObjects _).ignore)
      exact fun _ => agree_openObjectFile env hfiles _ _ _ _

theorem same_reqStart (operation : String) (path : FsPath) :
    Same (Beside R) (reqStart pol env operation path) (reqStart pol env operation path) :=
  Same.onlyIf (Same.bind same_connectDaemon fun _ => (same_call env _ _ (by exact not_false)).ignore).ignore

theorem opensHost_visible {flags : OpenFlags} {entry : Option FuseEntry}
    (h : opensHost pol path flags entry = true) : pol.classify path ≠ .fuseOnly := by
  intro hmode
  unfold opensHost at h
  rw [hmode, decideOpen_fuseOnly] at h
  cases h

/-- The states that an open loads differ at most in what the host has of a file not taken. -/
theorem agree_loadOpenState {flags : OpenFlags} {entry : Option FuseEntry}
    (h : opensHost pol path flags entry = true → ∀ fs fs' files, R fs fs' files →
      fs'.exists path = fs.exists path) :
    Agree (Knowing (EntryIs path entry) R)
      (loadOpenState pol env path flags.needWrite flags.trunc)
      (loadOpenState pol env path flags.needWrite flags.trunc)
      (fun state state' w w' => decideOpen state = decideOpen state' ∧
        ((decideOpen state).usesHost = true → opensHost pol path flags entry = true) ∧
        Beside R w w')
      (Beside R) := by
  apply Agree.bind_eq (agree_getEntry env path entry)
  intro loaded
  apply Agree.of_fact
  intro hloaded
  subst hloaded
  have hobject : Agree (Knowing (EntryIs path loaded) R) (loadObjectPath env loaded)
      (loadObjectPath env loaded) (fun a a' w w' => a = a' ∧ Beside R w w') (Beside R) :=
    (same_loadObjectPath env loaded).weaken (fun _ _ hw => hw.1) (fun _ _ _ _ hw => hw)
      fun _ _ hw => hw
  apply Agree.bind_same hobject
  intro objectPath
  by_cases huse : opensHost pol path flags loaded = true
  · apply Agree.bind_same (same_peekHost (h huse))
    intro real
    exact Agree.ret fun w w' hw => ⟨rfl, fun _ => huse, hw⟩
  · have hno : (decideOpen ⟨pol.classify path, path, flags.needWrite, flags.trunc, true, loaded,
        none⟩).usesHost = false := Bool.eq_false_iff.mpr huse
    apply Agree.bind (agree_peekHost _)
    intro real real'
    apply Agree.ret
    intro w w' hw
    obtain ⟨hsame, hunused⟩ := decideOpen_unused hno real real' objectPath
    refine ⟨hsame.symm, fun hhost => ?_, hw⟩
    rw [hunused] at hhost
    cases hhost

/-- What `open` does once it has asked for the log. -/
theorem agree_openPath (hfiles : FilesFree R) {flags : OpenFlags} {entry : Option FuseEntry}
    (h : opensHost pol path flags entry = true → OpensAlike pol env R path flags.options)
    (md : FileMetadata) :
    Agree (Knowing (EntryIs path entry) R) (do
      let state ← loadOpenState pol env path flags.needWrite flags.trunc
      let file ← executeOpen env (decideOpen state) path flags md
      let fh ← addOpenFile file
      pure (Reply.opened fh)) (do
      let state ← loadOpenState pol env path flags.needWrite flags.trunc
      let file ← executeOpen env (decideOpen state) path flags md
      let fh ← addOpenFile file
      pure (Reply.opened fh)) (fun a a' w w' => a = a' ∧ Beside R w w') (Beside R) := by
  apply Agree.bind (agree_loadOpenState pol env fun huse fs fs' files hR =>
    ((h huse).found (opensHost_visible pol huse) fs fs' files hR).1)
  intro state state' w w' hw
  obtain ⟨hsame, huse, hbeside⟩ := hw
  rw [← hsame]
  refine (?_ : Same (Beside R) _ _) w w' hbeside
  apply Agree.bind_eq (agree_executeOpen pol env hfiles _
    (fun hd => opensHost_visible pol (huse hd)) (fun hd => h (huse hd)) md)
  intro file
  have hadd : Agree (Beside (Admits R file)) (addOpenFile file) (addOpenFile file)
      (fun fh fh' w w' => fh = fh' ∧ Beside R w w') (Beside R) :=
    agree_addOpenFile fun _ _ _ fh hR => hR.2 fh
  exact Agree.bind_same hadd fun _ => Same.ret

/-- The worlds side by side, with the inode table that names the operands. -/
def Start (R : HostRel) (t : InodeTable) (w w' : World) : Prop := Beside R w w' ∧ w.inodes = t

variable {β : Type} {t : InodeTable} {Q : β → β → World → World → Prop} {E : World → World → Prop}

/-- The path of an inode, with something else known of the worlds. -/
theorem agree_pathOf_knowing {D : World → Prop} {ino : UInt64} {k : FsPath → FuseM β}
    (hk : ∀ path, t.getPath ino = some path →
      Agree (fun w w' => Start R t w w' ∧ D w) (k path) (k path) Q E)
    (hE : ∀ w w', Beside R w w' → E w w') :
    Agree (fun w w' => Start R t w w' ∧ D w) (pathOf ino >>= k) (pathOf ino >>= k) Q E := by
  intro w w' h
  obtain ⟨⟨⟨host', rfl, hw⟩, rfl⟩, hD⟩ := h
  rw [run_bind, run_bind]
  unfold pathOf
  simp only
  cases hpath : w.inodes.getPath ino with
  | none => exact ⟨rfl, hE _ _ ⟨host', rfl, hw⟩⟩
  | some path => exact hk path hpath _ _ ⟨⟨⟨host', rfl, hw⟩, rfl⟩, hD⟩

theorem agree_pathOf {ino : UInt64} {k : FsPath → FuseM β}
    (hk : ∀ path, t.getPath ino = some path → Agree (Start R t) (k path) (k path) Q E)
    (hE : ∀ w w', Beside R w w' → E w w') :
    Agree (Start R t) (pathOf ino >>= k) (pathOf ino >>= k) Q E :=
  fun w w' h => agree_pathOf_knowing (D := fun _ => True)
    (fun path hpath v v' hv => hk path hpath v v' hv.1) hE w w' ⟨h, trivial⟩

theorem agree_getPath_knowing {D : World → Prop} {parent : UInt64} {name : Component}
    {k : FsPath → FuseM β} (hk : ∀ path, (t.getPath parent).map name.under = some path →
      Agree (fun w w' => Start R t w w' ∧ D w) (k path) (k path) Q E)
    (hE : ∀ w w', Beside R w w' → E w w') :
    Agree (fun w w' => Start R t w w' ∧ D w) (getPath parent name >>= k) (getPath parent name >>= k)
      Q E := by
  intro w w' h
  have key : Agree (fun w w' => Start R t w w' ∧ D w)
      (pathOf parent >>= fun path => k (name.under path))
      (pathOf parent >>= fun path => k (name.under path)) Q E :=
    agree_pathOf_knowing (fun path hpath => hk _ (by rw [hpath]; rfl)) hE
  have hbind : ∀ v, (getPath parent name >>= k) v
      = (pathOf parent >>= fun path => k (name.under path)) v := by
    intro v
    show ((pathOf parent >>= fun path => pure (name.under path)) >>= k) v = _
    rw [run_bind, run_bind, run_bind]
    cases pathOf parent v <;> rfl
  rw [hbind, hbind]
  exact key w w' h

theorem agree_getPath {parent : UInt64} {name : Component} {k : FsPath → FuseM β}
    (hk : ∀ path, (t.getPath parent).map name.under = some path →
      Agree (Start R t) (k path) (k path) Q E)
    (hE : ∀ w w', Beside R w w' → E w w') :
    Agree (Start R t) (getPath parent name >>= k) (getPath parent name >>= k) Q E :=
  fun w w' h => agree_getPath_knowing (D := fun _ => True)
    (fun path hpath v v' hv => hk path hpath v v' hv.1) hE w w' ⟨h, trivial⟩

theorem start_of_agree {m m' : FuseM β} (h : Agree (Beside R) m m' Q E) : Agree (Start R t) m m' Q E :=
  fun w w' hw => h w w' hw.1

/-! ## §6. Descriptors. -/

/-- `fh` is open in both runs, on the same file. -/
def Has (R : HostRel) (fh : UInt64) (file : OpenFile) : HostRel := fun fs fs' files =>
  R fs fs' files ∧ files.lookup fh = some file

/-- What is done through the open files is done alike on both hosts. -/
structure HandlesAlike (R : HostRel) : Prop where
  read : ∀ fs fs' files fh (file : OpenFile) ino, R fs fs' files → files.lookup fh = some file →
    file.file.backing = .host ino → ∀ offset len, fs'.readIno ino offset len = fs.readIno ino offset len
  write : ∀ fs fs' files fh (file : OpenFile) ino, R fs fs' files → files.lookup fh = some file →
    file.file.backing = .host ino → ∀ f : Bytes → Bytes,
      CallsAgree (fun (_ : Unit) t t' => R t t' files) (R fs fs' files)
        ((fs.modifyIno ino f).map fun t => ((), t)) ((fs'.modifyIno ino f).map fun t => ((), t))
  perm : ∀ fs fs' files fh (file : OpenFile) ino, R fs fs' files → files.lookup fh = some file →
    file.file.backing = .host ino → ∀ f : Kind → Perm → Perm,
      CallsAgree (fun (_ : Unit) t t' => R t t' files) (R fs fs' files)
        ((fs.modifyPerm ino f).map fun t => ((), t)) ((fs'.modifyPerm ino f).map fun t => ((), t))

section Handles

variable (hh : HandlesAlike R) {fh : UInt64} {file : OpenFile}

theorem agree_openFileOf :
    Agree (Beside R) (openFileOf fh) (openFileOf fh)
      (fun file file' w w' => file = file' ∧ Beside (Has R fh file) w w') (Beside R) := by
  intro w w' h
  obtain ⟨host', rfl, hw⟩ := h
  unfold openFileOf
  simp only
  cases hfile : w.openFiles.lookup fh with
  | none => exact ⟨rfl, host', rfl, hw⟩
  | some file => exact ⟨rfl, host', rfl, hw, hfile⟩

include hh

theorem same_readAt (offset len : Nat) :
    Same (Beside (Has R fh file)) (file.file.readAt offset len) (file.file.readAt offset len) := by
  unfold Fd.readAt
  cases hb : file.file.backing with
  | host ino =>
    exact same_readHost fun fs fs' files hR => hh.read fs fs' files fh file ino hR.1 hR.2 hb offset len
  | object path => exact same_onObjects _

omit hh in
theorem same_changeIno {f : FileSystem → Except Errno FileSystem}
    (hf : ∀ fs fs' files, Has R fh file fs fs' files →
      CallsAgree (fun (_ : Unit) t t' => R t t' files) (R fs fs' files)
        ((f fs).map fun t => ((), t)) ((f fs').map fun t => ((), t))) :
    Same (Beside (Has R fh file)) (changeHost f) (changeHost f) := by
  apply agree_onHost (Q := fun _ => Has R fh file) (T := Has R fh file)
  intro fs fs' files hR
  have key := hf fs fs' files hR
  unfold CallsAgree at key ⊢
  cases hr : f fs with
  | ok t =>
    cases hr' : f fs' with
    | ok t' =>
      rw [hr, hr'] at key
      exact ⟨rfl, key.2, hR.2⟩
    | error errno' =>
      rw [hr, hr'] at key
      exact key.elim
  | error errno =>
    cases hr' : f fs' with
    | ok t' =>
      rw [hr, hr'] at key
      exact key.elim
    | error errno' =>
      rw [hr, hr'] at key
      exact ⟨key.1, hR⟩

theorem same_writeAt (offset : Nat) (data : Bytes) :
    Same (Beside (Has R fh file)) (file.file.writeAt offset data)
      (file.file.writeAt offset data) := by
  unfold Fd.writeAt
  by_cases hdata : data = []
  · rw [if_pos hdata]
    exact Same.ret
  · rw [if_neg hdata]
    apply Same.bind _ fun _ => Same.ret
    unfold Fd.write
    by_cases hw : file.file.writable = false
    · rw [if_pos hw]
      exact Same.fail
    · rw [if_neg hw]
      cases hb : file.file.backing with
      | host ino =>
        exact same_changeIno fun fs fs' files hR => hh.write fs fs' files fh file ino hR.1 hR.2 hb _
      | object path => exact same_onObjects _

theorem same_setattrOpenHandle (mode uid gid : Option UInt32) (size : Option UInt64) :
    Same (Beside (Has R fh file)) (setattrOpenHandle file.file mode uid gid size)
      (setattrOpenHandle file.file mode uid gid size) := by
  apply Same.bind
  · apply Same.forSome
    intro sz
    unfold Fd.setLen
    by_cases hw : file.file.writable = false
    · rw [if_pos hw]
      exact Same.fail
    · rw [if_neg hw]
      cases hb : file.file.backing with
      | host ino =>
        exact same_changeIno fun fs fs' files hR => hh.write fs fs' files fh file ino hR.1 hR.2 hb _
      | object path => exact same_onObjects _
  · intro _
    apply Same.bind
    · apply Same.forSome
      intro m
      apply Same.ignore
      unfold Fd.setPermissions
      cases hb : file.file.backing with
      | host ino =>
        exact same_changeIno fun fs fs' files hR => hh.perm fs fs' files fh file ino hR.1 hR.2 hb _
      | object path => exact Same.ret
    · intro _
      apply Same.onlyIf
      apply Same.ignore
      unfold Fd.chown
      cases hb : file.file.backing with
      | host ino =>
        exact same_changeIno fun fs fs' files hR => hh.perm fs fs' files fh file ino hR.1 hR.2 hb _
      | object path => exact Same.ret

end Handles

end Cas.Fuse
