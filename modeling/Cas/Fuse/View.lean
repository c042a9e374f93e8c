/-
  Cas.Fuse.View — what a client sees at a CopyOnWrite path.

  The view of a path merges its fuse entry, the object file behind the
  entry and the host node.  `cowView` says what comes out; the theorems of
  §3 say that readlink and a fresh open and read show it (`Stat` says it
  of stat).
-/
import Cas.Fuse.Reachable

namespace Cas.Fuse

open Cas.Lib Cas.Host Cas.Syncing

/-! ## §1. Views. -/

/-- What a path shows; content and link target may fail to be read. -/
inductive View
  | absent
  | file (content : Except Errno Bytes)
  | dir
  | symlink (target : Except Errno Bytes)
  deriving DecidableEq

/-- The kind that stat reports. -/
def View.kind? : View → Option FileType
  | .absent => none
  | .file _ => some .regularFile
  | .dir => some .directory
  | .symlink _ => some .symlink

/-- A stat that answers as the view says. -/
def ShowsKind (view : View) (result : Except Error (FileType × FileAttr)) : Prop :=
  match view.kind? with
  | none => result = .error (.ofErrno .enoent)
  | some kind => ∃ attr, result = .ok (kind, attr)

def World.entry (w : World) (p : FsPath) : Option FuseEntry := w.daemon.state.fuseMap.lookup p

def World.objects (w : World) : FMap ObjectPath Bytes := w.daemon.storage.objects

/-- The object file of an id, if it is there. -/
def World.stored (w : World) (id : UInt64) : Option ObjectPath :=
  if (w.objects.lookup (objectPath id)).isSome then some (objectPath id) else none

/-- What the host shows. -/
def hostView (fs : FileSystem) (p : FsPath) : View :=
  match fs.symlinkMetadata p with
  | .error _ => .absent
  | .ok inode =>
    match inode.content with
    | .file _ => .file (fs.readFile p)
    | .dir => .dir
    | .symlink _ => .symlink (fs.readLink p)

/-- What an open for reading finds behind a `File` entry. -/
def objectContent (w : World) (p : FsPath) : Option UInt64 → Except Errno Bytes
  | none => w.host.readFile p
  | some id =>
    match w.objects.lookup (objectPath id) with
    | none => .error .eio
    | some data => .ok data

def entryView (w : World) (p : FsPath) (e : FuseEntry) : View :=
  match kindFromEntry e with
  | none => .absent
  | some .directory => .dir
  | some .regularFile => .file (objectContent w p e.objectId)
  | some .symlink =>
    .symlink (if e.entryType = .symlink then .ok (e.symlinkTarget.getD []) else w.host.readLink p)

/-- What a CopyOnWrite path shows. -/
def cowView (w : World) (p : FsPath) : View :=
  match w.entry p with
  | none => hostView w.host p
  | some e => entryView w p e

/-- Nothing shows at or below a name that the host's root does not have. -/
theorem hostView_missing {fs : FileSystem} {n : Name} (h : fs.kindAt [n] = none) (r : FsPath) :
    hostView fs (n :: r) = .absent := by
  have hloc : fs.locate false (n :: r) = if r = [] then .ok [n] else .error .enoent := by
    show walkFrom fs.kindAt false _ [] (Comp.name n :: r.map Comp.name) = _
    rw [walkFrom_missing (show fs.kindAt ([] ++ [n]) = none from h)]
    cases r <;> rfl
  have hfind : ∃ errno, fs.symlinkMetadata (n :: r) = .error errno := by
    unfold FileSystem.symlinkMetadata FileSystem.find
    rw [hloc]
    by_cases hr : r = []
    · rw [if_pos hr]
      unfold FileSystem.kindAt FileSystem.node at h
      cases hname : fs.names.lookup [n] with
      | none => exact ⟨.enoent, by simp [hname]; rfl⟩
      | some ino =>
        cases hinode : fs.inodes.lookup ino with
        | none => exact ⟨.enoent, by simp [hname, hinode]; rfl⟩
        | some inode => simp [hname, hinode] at h
    · rw [if_neg hr]
      exact ⟨.enoent, rfl⟩
  obtain ⟨errno, he⟩ := hfind
  unfold hostView
  rw [he]

/-! ## §2. Good entries. -/

theorem kindFromEntry_whiteout {e : FuseEntry} : kindFromEntry e = none ↔ e.entryType = .whiteout := by
  unfold kindFromEntry
  cases e.entryType with
  | file =>
    show (if _ then _ else _) = none ↔ _
    split
    · simp
    · split <;> simp
  | dir => simp
  | symlink => simp
  | whiteout => simp

/-- A good entry of type `File` shows a regular file. -/
theorem kindFromEntry_file {e : FuseEntry} (he : GoodEntry e) (ht : e.entryType = .file) :
    kindFromEntry e = some .regularFile := by
  unfold kindFromEntry
  rw [ht]
  have hbits : e.metadata.mode &&& S_IFMT = S_IFREG := he.regular ht
  show (if e.metadata.mode &&& S_IFMT = S_IFLNK then _ else _) = _
  rw [hbits]
  rfl

/-- A good entry shows the same wherever it is. -/
theorem entryView_eq {w : World} {p q : FsPath} {e : FuseEntry} (he : GoodEntry e) :
    entryView w p e = entryView w q e := by
  cases ht : e.entryType with
  | file =>
    unfold entryView
    rw [kindFromEntry_file he ht]
    cases hid : e.objectId with
    | none =>
      have hsome := he.shape.1.mpr ht
      rw [hid] at hsome
      cases hsome
    | some id => rfl
  | dir =>
    unfold entryView kindFromEntry
    rw [ht]
  | symlink =>
    unfold entryView kindFromEntry
    rw [ht]
    rfl
  | whiteout =>
    unfold entryView
    rw [kindFromEntry_whiteout.mpr ht]

theorem entryView_absent {w : World} {p : FsPath} {e : FuseEntry} :
    entryView w p e = .absent ↔ e.entryType = .whiteout := by
  rw [← kindFromEntry_whiteout]
  unfold entryView
  cases kindFromEntry e with
  | none => simp
  | some kind => cases kind <;> simp

/-- A view depends on the entry, the object files and the host. -/
theorem cowView_congr {w w' : World} {p : FsPath} (hentry : w'.entry p = w.entry p)
    (hobjects : w'.objects = w.objects) (hhost : w'.host = w.host) :
    cowView w' p = cowView w p := by
  have hcontent : objectContent w' p = objectContent w p := by
    funext id
    unfold objectContent
    rw [hobjects, hhost]
  unfold cowView entryView
  rw [hentry, hhost, hcontent]

/-- An object entry shows its object file. -/
theorem cowView_object {w : World} {p : FsPath} {md : FileMetadata} {id : UInt64} {data : Bytes}
    (hentry : w.entry p = some (.ofObject md id)) (hmd : typeBits md = S_IFREG)
    (hobject : w.objects.lookup (objectPath id) = some data) :
    cowView w p = .file (.ok data) := by
  unfold cowView
  rw [hentry]
  show entryView w p (.ofObject md id) = _
  unfold entryView
  rw [kindFromEntry_file (GoodEntry.ofObject hmd id) rfl]
  show View.file (objectContent w p (some id)) = _
  unfold objectContent
  simp only [hobject]

/-- A good entry takes its view along. -/
theorem cowView_moved {w w' : World} {p q : FsPath} {e : FuseEntry} (he : GoodEntry e)
    (hp : w.entry p = some e) (hq : w'.entry q = some e) (hobjects : w'.objects = w.objects)
    (hhost : w'.host = w.host) : cowView w' q = cowView w p := by
  have hview : cowView w' q = entryView w' q e := by
    unfold cowView
    rw [hq]
  have hview' : cowView w p = entryView w p e := by
    unfold cowView
    rw [hp]
  have hcontent : objectContent w' p = objectContent w p := by
    funext id
    unfold objectContent
    rw [hobjects, hhost]
  rw [hview, hview', entryView_eq he (q := p)]
  unfold entryView
  rw [hhost, hcontent]

/-- The file behind a descriptor holds `data`. -/
def Fd.Reads (fd : Fd) (w : World) (data : Bytes) : Prop :=
  match fd.backing with
  | .host ino => ∃ inode, w.host.inodes.lookup ino = some inode ∧ inode.content = .file data
  | .object path => w.objects.lookup path = some data

theorem readAt_of_reads {w : World} {fd : Fd} {data : Bytes} (h : fd.Reads w data)
    (offset len : Nat) : fd.readAt offset len w = .ok (readAt data offset len) w := by
  unfold Fd.Reads at h
  unfold Fd.readAt
  cases hb : fd.backing with
  | host ino =>
    rw [hb] at h
    obtain ⟨inode, hlook, hcontent⟩ := h
    apply readHost_ok
    unfold FileSystem.readIno
    simp only [hlook, hcontent]
  | object path =>
    rw [hb] at h
    have hlook : w.daemon.storage.objects.lookup path = some data := h
    apply onObjects_ok
    simp only [hlook]

theorem readAt_of_error {w : World} (fd : Fd) {ino : Ino} (hb : fd.backing = .host ino)
    {offset len : Nat} {errno : Errno} (h : w.host.readIno ino offset len = .error errno) :
    fd.readAt offset len w = .error (.ofErrno errno) w := by
  unfold Fd.readAt
  rw [hb]
  exact readHost_error h

/-! ## §3. The operations show the view. -/

section Quiet

variable {pol : Policy} {env : Env} {w : World} {p : FsPath} (hq : w.faults = [])

include hq

theorem nextFault_quiet : nextFault w = .ok none w := by
  cases w
  subst hq
  rfl

theorem connectDaemon_quiet : connectDaemon w = .ok () w := by
  unfold connectDaemon
  rw [run_bind_ok (nextFault_quiet hq)]
  rfl

/-- Without faults a request is dispatched and answered. -/
theorem sendRequest_quiet (req : Request) :
    sendRequest env req w = .ok (dispatch (env.dispatchEnv w.host) w.daemon req).1
      { w with daemon := (dispatch (env.dispatchEnv w.host) w.daemon req).2 } := by
  unfold sendRequest
  rw [run_bind_ok (nextFault_quiet hq)]
  rfl

theorem getEntry_quiet : Client.getEntry env p w = .ok (w.entry p) w := by
  unfold Client.getEntry call
  rw [run_bind_ok (sendRequest_quiet hq _)]
  rfl

theorem getObjectPath_quiet (id : UInt64) :
    Client.getObjectPath env id w = match w.stored id with
      | some path => .ok path w
      | none => .error (.syncingClient .notFound) w := by
  unfold Client.getObjectPath
  rw [run_bind_ok (sendRequest_quiet hq _)]
  have hdispatch : dispatch (env.dispatchEnv w.host) w.daemon (.getObjectPath id)
      = w.daemon.getObjectPath id := rfl
  rw [hdispatch]
  have hexists : w.daemon.objects.exists id = (w.objects.lookup (objectPath id)).isSome := rfl
  unfold Server.getObjectPath World.stored
  rw [hexists]
  by_cases h : (w.objects.lookup (objectPath id)).isSome = true
  · rw [if_pos h, if_pos h]
    rfl
  · rw [if_neg h, if_neg h]
    rfl

omit hq in
theorem decideStat_cow_some (realExists : Bool) (e : FuseEntry) :
    decideStat ⟨.copyOnWrite, realExists, some e⟩
      = if e.entryType = .whiteout then .notFound else .useFuse := rfl

omit hq in
theorem toOption_readHost {α : Type} (f : FileSystem → Except Errno α) (w : World) :
    (outcome (readHost f w)).toOption = (f w.host).toOption := by
  unfold readHost
  cases f w.host <;> rfl

/-- **readlink** replies with the target of the view. -/
theorem readlink_cowView (hmode : pol.classify p = .copyOnWrite) {ino : UInt64}
    (hino : w.inodes.getPath ino = some p) {target : Except Errno Bytes}
    (hview : cowView w p = .symlink target) :
    outcome (readlink pol env ino w)
      = (target.map Reply.data).mapError Error.ofErrno := by
  have hpath : pathOf ino w = .ok p w := pathOf_ok hino
  have hload : loadReadlinkState pol env p w = .ok ⟨.copyOnWrite, p, w.entry p⟩ w := by
    unfold loadReadlinkState
    rw [run_bind_ok (getEntry_quiet hq), hmode]
    rfl
  unfold readlink
  rw [run_bind_ok hpath, run_bind_ok (connectDaemon_quiet hq), run_bind_ok hload]
  have hreal : w.host.readLink p = target → outcome ((readHost (fun fs => fs.readLink p) >>=
      fun data => pure (Reply.data data) : FuseM Reply) w)
      = (target.map Reply.data).mapError Error.ofErrno := by
    intro h
    cases target with
    | error errno =>
      rw [run_bind_error (readHost_error h)]
      rfl
    | ok data =>
      rw [run_bind_ok (readHost_ok h)]
      rfl
  unfold cowView at hview
  cases he : w.entry p with
  | none =>
    rw [he] at hview
    apply hreal
    have hhost : hostView w.host p = .symlink target := hview
    unfold hostView at hhost
    split at hhost
    · cases hhost
    · split at hhost <;> cases hhost
      rfl
  | some e =>
    rw [he] at hview
    have hentry : entryView w p e = .symlink target := hview
    have hkind : kindFromEntry e = some .symlink := by
      unfold entryView at hentry
      split at hentry <;> first | assumption | cases hentry
    unfold entryView at hentry
    rw [hkind] at hentry
    by_cases ht : e.entryType = .symlink
    · rw [if_pos ht] at hentry
      cases hentry
      have hdec : decideReadlink ⟨.copyOnWrite, p, some e⟩ = .useFuse := by
        unfold decideReadlink
        simp [ht]
      have hfuse : executeReadlink env .useFuse p w = .ok (e.symlinkTarget.getD []) w := by
        show (Client.getEntry env p >>= fun entry =>
          pure ((entry.bind (·.symlinkTarget)).getD []) : FuseM Bytes) w = _
        rw [run_bind_ok (getEntry_quiet hq), he]
        rfl
      rw [hdec, run_bind_ok hfuse]
      rfl
    · rw [if_neg ht] at hentry
      have htype : e.entryType = .file := by
        unfold kindFromEntry at hkind
        cases hfile : e.entryType with
        | file => rfl
        | dir =>
          rw [hfile] at hkind
          cases hkind
        | symlink => exact absurd hfile ht
        | whiteout =>
          rw [hfile] at hkind
          cases hkind
      have hdec : decideReadlink ⟨.copyOnWrite, p, some e⟩ = .useReal := by
        unfold decideReadlink
        simp [htype]
      rw [hdec]
      exact hreal (View.symlink.inj hentry)

/-! ## §4. Opening for reading. -/

omit hq in
theorem decideOpen_rdonly_real {state : OpenState} (hmode : state.accessMode = .copyOnWrite)
    (hread : state.needWrite = false) (hwhite : isWhiteoutEntry state.fuseEntry = false)
    (hid : state.fuseEntry.bind (·.objectId) = none) : decideOpen state = .openReal := by
  unfold decideOpen computeOpenBehavior
  simp [hmode, hread, hwhite, hid]

omit hq in
theorem decideOpen_rdonly_object {state : OpenState} (hmode : state.accessMode = .copyOnWrite)
    (hread : state.needWrite = false) (hwhite : isWhiteoutEntry state.fuseEntry = false)
    {id : UInt64} (hid : state.fuseEntry.bind (·.objectId) = some id) {path : ObjectPath}
    (hobject : state.objectPath = some path) :
    decideOpen state = .openObject (some id) false false false := by
  unfold decideOpen computeOpenBehavior
  simp [hmode, hread, hwhite, hid, hobject]

/-- O_RDONLY and nothing else. -/
def rdonly : OpenFlags := ⟨.rdonly, false, false⟩

/-- A log message changes nothing and its failure is dropped. -/
theorem reqStart_quiet (operation : String) (path : FsPath) :
    reqStart pol env operation path w = .ok () w := by
  have hlog : ignore (Client.logAccess env path operation) w = .ok () w := by
    rw [run_ignore]
    unfold Client.logAccess call
    rw [run_bind_ok (sendRequest_quiet hq _)]
    rfl
  unfold reqStart
  cases pol.shouldLog path with
  | false => rfl
  | true =>
    show ignore _ w = _
    rw [run_ignore, run_bind_ok (connectDaemon_quiet hq), hlog]
    rfl

/-- The object of an entry, if it has one and the file is there. -/
theorem loadObjectPath_quiet (entry : Option FuseEntry) :
    loadObjectPath env entry w = .ok ((entry.bind (·.objectId)).bind w.stored) w := by
  unfold loadObjectPath
  cases entry.bind (·.objectId) with
  | none => rfl
  | some id =>
    show (attempt (Client.getObjectPath env id) >>= fun result =>
      pure result.toOption : FuseM (Option ObjectPath)) w = _
    rw [run_bind, run_attempt, getObjectPath_quiet hq]
    show _ = EStateM.Result.ok (w.stored id) w
    cases w.stored id <;> rfl

/-- The state that an open loads. -/
theorem loadOpenState_quiet (needWrite truncate : Bool) :
    loadOpenState pol env p needWrite truncate w
      = .ok { accessMode := pol.classify p, path := p, needWrite, truncateRequested := truncate
              realExists := w.host.exists p, fuseEntry := w.entry p
              objectPath := ((w.entry p).bind (·.objectId)).bind w.stored } w := by
  unfold loadOpenState
  rw [run_bind_ok (getEntry_quiet hq), run_bind_ok (loadObjectPath_quiet hq _),
    run_bind_ok (peekHost_eq _ w)]
  rfl

variable (pol env p) in
/-- What an open for reading goes by. -/
theorem loadOpenState_reading : ∃ state, loadOpenState pol env p false false w = .ok state w ∧
    state.accessMode = pol.classify p ∧ state.needWrite = false ∧ state.fuseEntry = w.entry p ∧
    state.objectPath = ((w.entry p).bind (·.objectId)).bind w.stored :=
  ⟨_, loadOpenState_quiet hq _ _, rfl, rfl, rfl, rfl⟩

omit hq in
/-- The host opens the file that `readFile` reads. -/
theorem openHost_readFile (env : Env) {data : Bytes} (h : w.host.readFile p = .ok data) :
    ∃ fd, openHost env rdonly.options p w = .ok fd w ∧ fd.Reads w data := by
  unfold FileSystem.readFile FileSystem.find at h
  cases hloc : w.host.locate true p with
  | error errno =>
    rw [hloc] at h
    cases h
  | ok q =>
    rw [hloc] at h
    cases hname : w.host.names.lookup q with
    | none => simp [hname] at h
    | some ino =>
      cases hinode : w.host.inodes.lookup ino with
      | none => simp [hname, hinode] at h
      | some inode =>
        have hcontent : inode.content = .file data := by
          simp only [hname, hinode] at h
          cases hc : inode.content <;> rw [hc] at h <;> cases h
          rfl
        have hopen : w.host.openFile env.cred rdonly.options p = .ok (ino, w.host) := by
          unfold FileSystem.openFile
          rw [hloc]
          simp [hname, rdonly, OpenFlags.options, OpenFlags.needWrite]
        refine ⟨fdOf rdonly.options (.host ino), ?_, inode, hinode, hcontent⟩
        unfold openHost
        rw [run_bind_ok (onHost_ok hopen)]
        rfl

omit hq in
theorem openObject_existing {opts : OpenOptions}
    (hopts : ¬ (opts.create = true ∧ opts.write = false ∧ opts.append = false))
    {path : ObjectPath} {data : Bytes} (h : w.objects.lookup path = some data) :
    openObject opts path w = .ok (fdOf opts (.object path)) w := by
  have hmem : path ∈ w.daemon.storage.objects := Finmap.lookup_isSome.mp (by
    show (w.objects.lookup path).isSome = true
    rw [h]
    rfl)
  unfold openObject
  refine (run_bind_ok (show _ = EStateM.Result.ok () w from onObjects_ok ?_)).trans rfl
  rw [if_neg hopts, if_pos hmem]

omit hq in
theorem executeOpen_openObject {md : FileMetadata} {flags : OpenFlags} (id : Option UInt64)
    (needsEnsure copyUp delete : Bool) :
    executeOpen env (.openObject id needsEnsure copyUp delete) p flags md
      = objectForOpen env p md id needsEnsure copyUp >>= fun x =>
        onlyIf copyUp (ignore (copyToObject p x.2)) >>= fun _ =>
        onlyIf delete (ignore (Client.deleteWhiteout env p)) >>= fun _ =>
        openObject flags.options x.2 >>= fun file => pure (.passthroughObject file x.1) := rfl

variable (env p) in
/-- An O_RDONLY open of an object file. -/
theorem executeOpen_object (md : FileMetadata) {data : Bytes} {id : UInt64}
    (h : w.objects.lookup (objectPath id) = some data) :
    executeOpen env (.openObject (some id) false false false) p rdonly md w
      = .ok (.passthroughObject (fdOf rdonly.options (.object (objectPath id))) id) w := by
  have hget : Client.getObjectPath env id w = .ok (objectPath id) w := by
    rw [getObjectPath_quiet hq]
    unfold World.stored
    rw [h]
    rfl
  have hobj : objectForOpen env p md (some id) false false w = .ok (id, objectPath id) w := by
    show (Client.getObjectPath env id >>= fun path => pure (id, path)
      : FuseM (UInt64 × ObjectPath)) w = _
    rw [run_bind_ok hget]
    rfl
  rw [executeOpen_openObject, run_bind_ok hobj,
    run_bind_ok (show onlyIf false (ignore (copyToObject p (objectPath id))) w = .ok () w from rfl),
    run_bind_ok (show onlyIf false (ignore (Client.deleteWhiteout env p)) w = .ok () w from rfl),
    run_bind_ok (openObject_existing (fun hc => by cases hc.1) h)]
  rfl

/-- What `executeOpen` hands out for reading. -/
theorem executeOpen_rdonly (md : FileMetadata) {data : Bytes}
    (hview : cowView w p = .file (.ok data)) {state : OpenState}
    (hload : loadOpenState pol env p false false w = .ok state w)
    (hmode : pol.classify p = .copyOnWrite) :
    ∃ file, executeOpen env (decideOpen state) p rdonly md w = .ok file w ∧
      file.file.Reads w data := by
  have hstate := (EStateM.Result.ok.inj ((loadOpenState_quiet hq _ _).symm.trans hload)).1
  have haccess : state.accessMode = .copyOnWrite := by
    rw [← hstate]
    exact hmode
  have hread : state.needWrite = false := by rw [← hstate]
  have hentry : state.fuseEntry = w.entry p := by rw [← hstate]
  have hobject : state.objectPath = ((w.entry p).bind (·.objectId)).bind w.stored := by
    rw [← hstate]
  have hreal : w.host.readFile p = .ok data →
      ∃ file, executeOpen env .openReal p rdonly md w = .ok file w ∧ file.file.Reads w data := by
    intro h
    obtain ⟨fd, hopen, hreads⟩ : ∃ fd, openHost env rdonly.options p w = .ok fd w ∧
        fd.Reads w data := openHost_readFile env h
    refine ⟨.passthroughReal fd, ?_, hreads⟩
    show (openHost env rdonly.options p >>= fun file => pure (.passthroughReal file)
      : FuseM OpenFile) w = _
    rw [run_bind_ok hopen]
    rfl
  unfold cowView at hview
  cases he : w.entry p with
  | none =>
    rw [he] at hview hentry
    rw [decideOpen_rdonly_real haccess hread (by rw [hentry]; rfl) (by rw [hentry]; rfl)]
    apply hreal
    have hhost : hostView w.host p = .file (.ok data) := hview
    unfold hostView at hhost
    split at hhost
    · cases hhost
    · split at hhost
      · exact View.file.inj hhost
      · cases hhost
      · cases hhost
  | some e =>
    rw [he] at hview hentry hobject
    have hfile : entryView w p e = .file (.ok data) := hview
    unfold entryView at hfile
    have hkind : kindFromEntry e = some .regularFile := by
      split at hfile <;> first | assumption | cases hfile
    rw [hkind] at hfile
    have hcontent : objectContent w p e.objectId = .ok data := View.file.inj hfile
    have hwhite : isWhiteoutEntry state.fuseEntry = false := by
      have hne : ¬ e.entryType = .whiteout := by
        rw [← kindFromEntry_whiteout, hkind]
        exact Option.some_ne_none _
      rw [hentry]
      exact decide_eq_false hne
    have hid : state.fuseEntry.bind (·.objectId) = e.objectId := by
      rw [hentry]
      rfl
    unfold objectContent at hcontent
    cases hobj : e.objectId with
    | none =>
      rw [hobj] at hcontent
      rw [decideOpen_rdonly_real haccess hread hwhite (hid.trans hobj)]
      exact hreal hcontent
    | some id =>
      rw [hobj] at hcontent
      cases hlook : w.objects.lookup (objectPath id) with
      | none =>
        simp only [hlook] at hcontent
        cases hcontent
      | some bytes =>
        simp only [hlook] at hcontent
        cases hcontent
        have hstored : state.objectPath = some (objectPath id) := by
          rw [hobject]
          show e.objectId.bind w.stored = _
          rw [hobj]
          show w.stored id = _
          unfold World.stored
          rw [hlook]
          rfl
        rw [decideOpen_rdonly_object haccess hread hwhite (hid.trans hobj) hstored]
        exact ⟨_, executeOpen_object env p hq _ hlook, hlook⟩

/-- A read through a handle. -/
theorem read_of_handle (ino fh : UInt64) (hino : (w.inodes.getPath ino).isSome) {file : OpenFile}
    (hfile : w.openFiles.lookup fh = some file) {data : Bytes} (hreads : file.file.Reads w data)
    (offset len : Nat) : read ino fh offset len w = .ok (.data (readAt data offset len)) w := by
  obtain ⟨path, hpath⟩ := Option.isSome_iff_exists.mp hino
  have hpathOf : pathOf ino w = .ok path w := pathOf_ok hpath
  have hopen : openFileOf fh w = .ok file w := openFileOf_ok hfile
  unfold read
  rw [run_bind_ok (connectDaemon_quiet hq), run_bind_ok hpathOf, run_bind_ok hopen,
    run_bind_ok (readAt_of_reads hreads offset len)]
  rfl

/-- **open and read**: a fresh O_RDONLY handle reads the content of the view. -/
theorem open_read_cowView (hmode : pol.classify p = .copyOnWrite) {ino : UInt64}
    (hino : w.inodes.getPath ino = some p) {data : Bytes}
    (hview : cowView w p = .file (.ok data)) :
    ∃ fh w', «open» pol env ino rdonly w = .ok (.opened fh) w' ∧
      ∀ offset len, outcome (read ino fh offset len w') = .ok (.data (readAt data offset len)) := by
  have hpath : pathOf ino w = .ok p w := pathOf_ok hino
  obtain ⟨file, hexec, hreads⟩ := executeOpen_rdonly hq
    (fileMetaNow env 0 (S_IFREG ||| 0o644) env.uid env.gid) hview
    (loadOpenState_quiet hq false false) hmode
  refine ⟨w.nextFh, { w with nextFh := w.nextFh + 1
                             openFiles := w.openFiles.insert w.nextFh file }, ?_, ?_⟩
  · unfold «open»
    rw [run_bind_ok hpath, run_bind_ok (reqStart_quiet hq _ _), run_bind_ok (connectDaemon_quiet hq),
      run_bind_ok (loadOpenState_quiet hq _ _)]
    apply (run_bind_ok hexec).trans
    rfl
  · intro offset len
    have key := read_of_handle (w := { w with
        nextFh := w.nextFh + 1, openFiles := w.openFiles.insert w.nextFh file }) hq ino w.nextFh
      (by rw [hino]; rfl) (Finmap.lookup_insert _) (show file.file.Reads _ data from hreads)
      offset len
    exact congrArg outcome key

end Quiet

end Cas.Fuse
