/-
  Cas.Fuse.CopyOnWrite — the operations on CopyOnWrite paths when nothing
  fails: what each one does to the entries, the object files and the open
  files.
-/
import Cas.Fuse.Isolation
import Cas.Fuse.Stat

namespace Cas.Fuse

open Cas.Lib Cas.Host Cas.Syncing

/-! ## §1. Hosts of regular files. -/

/-- Every node is a directory or a regular file, and lies in a directory. -/
structure RegularFiles (fs : FileSystem) : Prop where
  noLinks : ∀ p target, fs.kindAt p ≠ some (.symlink target)
  parents : ∀ p q, fs.kindAt p ≠ none → q ≠ [] → Below q p → fs.kindAt q = some .dir

/-- The content of the regular file at `p`. -/
def hostFile (fs : FileSystem) (p : FsPath) : Option Bytes :=
  (fs.node p).bind fun inode =>
    match inode.content with
    | .file data => some data
    | _ => none

section Regular

variable {fs : FileSystem} (h : RegularFiles fs) {p : FsPath}

theorem kindAt_of_node {inode : Inode} (hnode : fs.node p = some inode) :
    fs.kindAt p = some inode.content.kind := by
  unfold FileSystem.kindAt
  rw [hnode]
  rfl

theorem hostFile_some {data : Bytes} (hfile : hostFile fs p = some data) :
    ∃ inode, fs.node p = some inode ∧ inode.content = .file data := by
  obtain ⟨inode, hnode, hcontent⟩ := Option.bind_eq_some_iff.mp hfile
  refine ⟨inode, hnode, ?_⟩
  cases hc : inode.content with
  | file bytes =>
    rw [hc] at hcontent
    cases hcontent
    rfl
  | dir =>
    rw [hc] at hcontent
    cases hcontent
  | symlink target =>
    rw [hc] at hcontent
    cases hcontent

include h

theorem RegularFiles.find_node (follow : Bool) {inode : Inode} (hnode : fs.node p = some inode) :
    ∃ ino, fs.names.lookup p = some ino ∧ fs.find follow p = .ok ⟨p, ino, inode⟩ := by
  obtain ⟨ino, hname, hinode⟩ := Option.bind_eq_some_iff.mp hnode
  have hloc : fs.locate follow p = .ok p := by
    apply locate_direct
    · intro q hq hbelow
      apply h.parents p q _ hq hbelow
      rw [kindAt_of_node hnode]
      exact Option.some_ne_none _
    · intro target ht
      exact absurd ht (h.noLinks p target)
  refine ⟨ino, hname, ?_⟩
  unfold FileSystem.find
  rw [hloc]
  simp only [hname, hinode]

theorem RegularFiles.find_missing (follow : Bool) (hnode : fs.node p = none) :
    ∃ errno, fs.find follow p = .error errno := by
  cases hfind : fs.find follow p with
  | error errno => exact ⟨errno, rfl⟩
  | ok found =>
    obtain ⟨hat, hname, hinode⟩ := FileSystem.find_ok hfind
    have hself : found.path = p := walkFrom_noLinks h.noLinks hat
    rw [hself] at hname
    have hsome : fs.node p = some found.inode := by
      unfold FileSystem.node
      rw [hname]
      exact hinode
    rw [hnode] at hsome
    cases hsome

theorem RegularFiles.readFile {data : Bytes} (hfile : hostFile fs p = some data) :
    fs.readFile p = .ok data := by
  obtain ⟨inode, hnode, hcontent⟩ := hostFile_some hfile
  obtain ⟨ino, -, hfind⟩ := h.find_node true hnode
  unfold FileSystem.readFile
  rw [hfind]
  simp only [hcontent]

theorem RegularFiles.exists_of_file {data : Bytes} (hfile : hostFile fs p = some data) :
    fs.exists p = true := by
  obtain ⟨inode, hnode, -⟩ := hostFile_some hfile
  obtain ⟨ino, -, hfind⟩ := h.find_node true hnode
  unfold FileSystem.exists
  rw [hfind]
  rfl

/-- A host of regular files shows its files, its directories and nothing else. -/
theorem RegularFiles.hostView : hostView fs p = match hostFile fs p with
    | some data => .file (.ok data)
    | none => if fs.kindAt p = some .dir then .dir else .absent := by
  cases hnode : fs.node p with
  | none =>
    obtain ⟨errno, hfind⟩ := h.find_missing false hnode
    unfold Fuse.hostView FileSystem.symlinkMetadata hostFile FileSystem.kindAt
    rw [hfind, hnode]
    rfl
  | some inode =>
    obtain ⟨ino, -, hfind⟩ := h.find_node false hnode
    have hmeta : fs.symlinkMetadata p = .ok inode := by
      unfold FileSystem.symlinkMetadata
      rw [hfind]
      rfl
    have hkind := kindAt_of_node hnode
    unfold Fuse.hostView
    rw [hmeta]
    cases hc : inode.content with
    | file data =>
      have hfile : hostFile fs p = some data := by
        unfold hostFile
        rw [hnode]
        simp only [Option.bind_some, hc]
      simp only [hc, hfile, h.readFile hfile]
    | dir =>
      have hfile : hostFile fs p = none := by
        unfold hostFile
        rw [hnode]
        simp only [Option.bind_some, hc]
      rw [hc] at hkind
      have hdir : fs.kindAt p = some .dir := hkind
      simp only [hc, hfile]
      rw [if_pos hdir]
    | symlink target =>
      rw [hc] at hkind
      exact absurd hkind (h.noLinks p target)

end Regular

/-! ## §2. Changes of the world. -/

namespace World

variable (w : World)

/-- The entry of `p` points to a new object that holds `data`. -/
def newObject (p : FsPath) (md : FileMetadata) (data : Bytes) : World :=
  let id := w.daemon.state.nextId
  let s := w.daemon.withObjects ⟨id + 1, w.objects.insert (objectPath id) data⟩
  { w with daemon := s.withState (s.state.publish p (.ofObject md id)) }

/-- The entry of `p` points to an object, with new metadata. -/
def published (p : FsPath) (md : FileMetadata) (id : UInt64) : World :=
  { w with daemon := w.daemon.withState (w.daemon.state.publish p (.ofObject md id)) }

/-- The entry of `p` is a whiteout. -/
def removed (p : FsPath) : World :=
  let s := (w.daemon.deleteFile p).2
  { w with daemon := s.withState (s.state.publish p .whiteout) }

/-- An object file has new content. -/
def setObject (path : ObjectPath) (data : Bytes) : World :=
  { w with daemon := { w.daemon with
      storage := { w.daemon.storage with objects := w.objects.insert path data } } }

/-- One more open file. -/
def withHandle (file : OpenFile) : World :=
  { w with nextFh := w.nextFh + 1, openFiles := w.openFiles.insert w.nextFh file }

theorem entry_newObject (p q : FsPath) (md : FileMetadata) (data : Bytes) :
    (w.newObject p md data).entry q
      = if q = p then some (.ofObject md w.daemon.state.nextId) else w.entry q :=
  lookup_insert_ite _ p q _

theorem entry_published (p q : FsPath) (md : FileMetadata) (id : UInt64) :
    (w.published p md id).entry q = if q = p then some (.ofObject md id) else w.entry q :=
  lookup_insert_ite _ p q _

theorem objects_newObject (p : FsPath) (md : FileMetadata) (data : Bytes) (path : ObjectPath) :
    (w.newObject p md data).objects.lookup path
      = if path = objectPath w.daemon.state.nextId then some data else w.objects.lookup path :=
  lookup_insert_ite _ _ path data

theorem entry_removed (p q : FsPath) :
    (w.removed p).entry q = if q = p then some .whiteout else w.entry q := by
  show ((w.daemon.state.fuseMap.erase p).insert p .whiteout).lookup q = _
  rw [lookup_insert_ite, lookup_erase_ite]
  by_cases hq : q = p
  · rw [if_pos hq, if_pos hq]
  · rw [if_neg hq, if_neg hq, if_neg hq]
    rfl

theorem objects_setObject (path path' : ObjectPath) (data : Bytes) :
    (w.setObject path data).objects.lookup path'
      = if path' = path then some data else w.objects.lookup path' :=
  lookup_insert_ite _ path path' data

/-- Writing back what is there. -/
theorem setObject_self {path : ObjectPath} {data : Bytes}
    (h : w.objects.lookup path = some data) : w.setObject path data = w := by
  unfold setObject
  rw [insert_lookup h]
  rfl

end World

/-! ## §3. Messages that succeed. -/

section Quiet

variable {pol : Policy} {env : Env} {w : World} {p : FsPath} (hq : w.faults = [])

omit hq in
/-- No object of the entry can be reused. -/
theorem noReuse_of_noObject {entry : Option FuseEntry} (h : entry.bind (·.objectId) = none) :
    entry.bind FuseEntry.reusableObject = none := by
  cases entry with
  | none => rfl
  | some e =>
    have hid : e.objectId = none := h
    show e.reusableObject = none
    unfold FuseEntry.reusableObject
    rw [hid, ite_self]

include hq

/-- An ensure request hands out the object that the entry has. -/
theorem ensure_reused {md : FileMetadata} {id : UInt64}
    (hid : (w.entry p).bind FuseEntry.reusableObject = some id) {req : Request}
    (alloc : ObjectStore → Except String UInt64 × ObjectStore)
    (hreq : dispatch (env.dispatchEnv w.host) w.daemon req = w.daemon.ensureObject p md alloc) :
    call env req takeObject w = .ok (id, objectPath id) (w.published p md id) := by
  have hdispatch : dispatch (env.dispatchEnv w.host) w.daemon req
      = (.ensureFileObject id (objectPath id), (w.published p md id).daemon) := by
    rw [hreq]
    unfold Server.ensureObject
    rw [show (w.daemon.state.fuseMap.lookup p).bind FuseEntry.reusableObject = some id from hid]
    rfl
  unfold call
  rw [run_bind_ok (sendRequest_quiet hq req), hdispatch]
  rfl

/-- Without one it makes an object, or fails. -/
theorem ensure_made {md : FileMetadata}
    (hfree : (w.entry p).bind FuseEntry.reusableObject = none) {req : Request}
    (alloc : ObjectStore → Except String UInt64 × ObjectStore)
    (hreq : dispatch (env.dispatchEnv w.host) w.daemon req = w.daemon.ensureObject p md alloc) :
    call env req takeObject w = match alloc w.daemon.objects with
      | (.ok id, store) => .ok (id, objectPath id)
          (({ w with daemon := w.daemon.withObjects store } : World).published p md id)
      | (.error msg, store) => .error (.syncingClient (.server msg))
          { w with daemon := w.daemon.withObjects store } := by
  have hdispatch : dispatch (env.dispatchEnv w.host) w.daemon req
      = match alloc w.daemon.objects with
        | (.ok id, store) => (.ensureFileObject id (objectPath id),
            (({ w with daemon := w.daemon.withObjects store } : World).published p md id).daemon)
        | (.error msg, store) => (.error msg, w.daemon.withObjects store) := by
    rw [hreq]
    unfold Server.ensureObject
    rw [show (w.daemon.state.fuseMap.lookup p).bind FuseEntry.reusableObject = none from hfree]
    rfl
  unfold call
  rw [run_bind_ok (sendRequest_quiet hq req), hdispatch]
  rcases alloc w.daemon.objects with ⟨r, store⟩
  cases r <;> rfl

/-- An allocation that succeeds publishes the new object. -/
theorem ensureObject_quiet {md : FileMetadata} {data : Bytes}
    (hfree : (w.entry p).bind (·.objectId) = none) {req : Request}
    (alloc : ObjectStore → Except String UInt64 × ObjectStore)
    (hreq : dispatch (env.dispatchEnv w.host) w.daemon req = w.daemon.ensureObject p md alloc)
    (halloc : alloc w.daemon.objects = (.ok w.daemon.state.nextId,
      ⟨w.daemon.state.nextId + 1, w.objects.insert (objectPath w.daemon.state.nextId) data⟩)) :
    call env req takeObject w = .ok (w.daemon.state.nextId, objectPath w.daemon.state.nextId)
      (w.newObject p md data) := by
  rw [ensure_made hq (noReuse_of_noObject hfree) _ hreq, halloc]
  rfl

theorem ensureFileObject_quiet (hio : env.storeIo = .ok)
    (hfree : (w.entry p).bind (·.objectId) = none) (md : FileMetadata) :
    Client.ensureFileObject env p md w
      = .ok (w.daemon.state.nextId, objectPath w.daemon.state.nextId) (w.newObject p md []) := by
  apply ensureObject_quiet hq hfree (fun store => store.allocEmpty env.storeIo) rfl
  rw [hio]
  rfl

theorem ensureFileObjectFromReal_quiet (hio : env.storeIo = .ok)
    (hfree : (w.entry p).bind (·.objectId) = none) {data : Bytes}
    (hreal : w.host.readFile p = .ok data) (md : FileMetadata) :
    Client.ensureFileObjectFromReal env p md w
      = .ok (w.daemon.state.nextId, objectPath w.daemon.state.nextId) (w.newObject p md data) := by
  apply ensureObject_quiet hq hfree (fun store =>
    store.putCopyFrom env.storeIo ((env.dispatchEnv w.host).real p)) rfl
  have hsource : (env.dispatchEnv w.host).real p = .ok data := by
    show (w.host.readFile p).mapError _ = _
    rw [hreal]
    rfl
  rw [hio, hsource]
  rfl

/-- There is no whiteout to delete. -/
theorem deleteWhiteout_quiet (h : ∀ e, w.entry p = some e → e.entryType ≠ .whiteout) :
    ignore (Client.deleteWhiteout env p) w = .ok () w := by
  have hnone : dispatch (env.dispatchEnv w.host) w.daemon (.deleteWhiteout p)
      = (.deleteWhiteout, w.daemon) := by
    show w.daemon.deleteWhiteout p = _
    unfold Server.deleteWhiteout
    cases he : w.daemon.state.fuseMap.lookup p with
    | none => rfl
    | some e => simp only [if_neg (h e he)]
  rw [run_ignore]
  unfold Client.deleteWhiteout call
  rw [run_bind_ok (sendRequest_quiet hq _), hnone]
  rfl

omit hq in
/-- The copy that the client makes writes what the object already holds. -/
theorem copyToObject_same {path : ObjectPath} {data : Bytes}
    (hreal : w.host.readFile p = .ok data) (hobject : w.objects.lookup path = some data) :
    ignore (copyToObject p path) w = .ok () w := by
  rw [run_ignore]
  unfold copyToObject
  rw [run_bind_ok (readHost_ok hreal), onObjects_ok (a := ()) rfl]
  exact congrArg (EStateM.Result.ok ()) (w.setObject_self hobject)

/-! ## §4. Operations that succeed. -/

/-- The handle that an open for writing gives. -/
def objectHandle (opts : OpenOptions) (id : UInt64) : OpenFile :=
  .passthroughObject (fdOf opts (.object (objectPath id))) id

omit hq in
theorem decideOpen_write_new {state : OpenState} (hmode : state.accessMode = .copyOnWrite)
    (hwrite : state.needWrite = true) (htrunc : state.truncateRequested = false)
    (hentry : state.fuseEntry = none) (hreal : state.realExists = true) :
    decideOpen state = .openObject none true true true := by
  unfold decideOpen computeOpenBehavior
  simp [hmode, hwrite, htrunc, hentry, hreal, isWhiteoutEntry]

omit hq in
theorem decideOpen_write_object {state : OpenState} (hmode : state.accessMode = .copyOnWrite)
    (hwrite : state.needWrite = true) (hwhite : isWhiteoutEntry state.fuseEntry = false)
    {id : UInt64} (hid : state.fuseEntry.bind (·.objectId) = some id) {path : ObjectPath}
    (hobject : state.objectPath = some path) :
    decideOpen state = .openObject (some id) false false true := by
  unfold decideOpen computeOpenBehavior
  simp [hmode, hwrite, hwhite, hid, hobject]

/-- The shared part of every open. -/
theorem open_quiet {ino : UInt64} (hino : w.inodes.getPath ino = some p) {flags : OpenFlags}
    {state : OpenState} (hload : loadOpenState pol env p flags.needWrite flags.trunc w = .ok state w)
    {file : OpenFile} {w' : World} {fh : UInt64}
    (hexec : executeOpen env (decideOpen state) p flags
      (fileMetaNow env 0 (S_IFREG ||| 0o644) env.uid env.gid) w = .ok file w')
    (hfh : w'.nextFh = fh) :
    «open» pol env ino flags w = .ok (.opened fh) (w'.withHandle file) := by
  subst hfh
  have hpath : pathOf ino w = .ok p w := pathOf_ok hino
  unfold «open»
  rw [run_bind_ok hpath, run_bind_ok (reqStart_quiet hq _ _), run_bind_ok (connectDaemon_quiet hq),
    run_bind_ok hload]
  apply (run_bind_ok hexec).trans
  rfl

/-- The copy-up: the object is made from the host file, and the client copies once more. -/
theorem executeOpen_copyUp (hio : env.storeIo = .ok) (hentry : w.entry p = none) {data : Bytes}
    (hreal : w.host.readFile p = .ok data) {flags : OpenFlags} (md : FileMetadata) :
    executeOpen env (.openObject none true true true) p flags md w
      = .ok (objectHandle flags.options w.daemon.state.nextId) (w.newObject p md data) := by
  rw [executeOpen_openObject]
  have hfree : (w.entry p).bind (·.objectId) = none := by
    rw [hentry]
    rfl
  have hnew : (w.newObject p md data).entry p
      = some (.ofObject md w.daemon.state.nextId) := by
    rw [World.entry_newObject, if_pos rfl]
  have hobject : (w.newObject p md data).objects.lookup (objectPath w.daemon.state.nextId)
      = some data := by
    rw [World.objects_newObject, if_pos rfl]
  have hensure : objectForOpen env p md none true true w
      = .ok (w.daemon.state.nextId, objectPath w.daemon.state.nextId) (w.newObject p md data) :=
    ensureFileObjectFromReal_quiet hq hio hfree hreal md
  have hcopy : onlyIf true (ignore (copyToObject p (objectPath w.daemon.state.nextId)))
      (w.newObject p md data) = .ok () (w.newObject p md data) :=
    copyToObject_same hreal hobject
  have hdelete : onlyIf true (ignore (Client.deleteWhiteout env p)) (w.newObject p md data)
      = .ok () (w.newObject p md data) := by
    apply deleteWhiteout_quiet (w := w.newObject p md data) hq
    intro e he
    rw [hnew] at he
    cases he
    exact EntryType.noConfusion
  rw [run_bind_ok hensure, run_bind_ok hcopy, run_bind_ok hdelete,
    run_bind_ok (openObject_existing (fun hc => by cases hc.1) hobject)]
  rfl

variable (env) in
/-- **open** for writing of a host file that has no entry: the copy-up. -/
theorem open_copyUp (hio : env.storeIo = .ok) (hmode : pol.classify p = .copyOnWrite)
    {ino : UInt64} (hino : w.inodes.getPath ino = some p) {flags : OpenFlags}
    (hwrite : flags.needWrite = true) (htrunc : flags.trunc = false) (hentry : w.entry p = none)
    {data : Bytes} (hreal : w.host.readFile p = .ok data) (hexists : w.host.exists p = true) :
    «open» pol env ino flags w = .ok (.opened w.nextFh)
      ((w.newObject p (fileMetaNow env 0 (S_IFREG ||| 0o644) env.uid env.gid) data).withHandle
        (objectHandle flags.options w.daemon.state.nextId)) := by
  have hload : loadOpenState pol env p flags.needWrite flags.trunc w = _ :=
    loadOpenState_quiet hq _ _
  apply open_quiet hq hino hload
  · rw [decideOpen_write_new hmode hwrite htrunc hentry hexists]
    exact executeOpen_copyUp hq hio hentry hreal _
  · rfl

/-- An open of the object that the entry has already. -/
theorem executeOpen_kept {e : FuseEntry} (hentry : w.entry p = some e)
    (hwhite : e.entryType ≠ .whiteout) {id : UInt64} {data : Bytes}
    (hobject : w.objects.lookup (objectPath id) = some data) {flags : OpenFlags}
    (md : FileMetadata) :
    executeOpen env (.openObject (some id) false false true) p flags md w
      = .ok (objectHandle flags.options id) w := by
  have hget : Client.getObjectPath env id w = .ok (objectPath id) w := by
    rw [getObjectPath_quiet hq]
    unfold World.stored
    rw [hobject]
    rfl
  have hobj : objectForOpen env p md (some id) false false w = .ok (id, objectPath id) w := by
    show (Client.getObjectPath env id >>= fun path => pure (id, path)
      : FuseM (UInt64 × ObjectPath)) w = _
    rw [run_bind_ok hget]
    rfl
  have hcopy : onlyIf false (ignore (copyToObject p (objectPath id))) w = .ok () w := rfl
  have hdelete : onlyIf true (ignore (Client.deleteWhiteout env p)) w = .ok () w := by
    apply deleteWhiteout_quiet hq
    intro e' he'
    rw [hentry] at he'
    cases he'
    exact hwhite
  rw [executeOpen_openObject, run_bind_ok hobj, run_bind_ok hcopy, run_bind_ok hdelete,
    run_bind_ok (openObject_existing (fun hc => by cases hc.1) hobject)]
  rfl

variable (env) in
/-- **open** for writing of a path that has an object. -/
theorem open_object (hmode : pol.classify p = .copyOnWrite) {ino : UInt64}
    (hino : w.inodes.getPath ino = some p) {flags : OpenFlags} (hwrite : flags.needWrite = true)
    {e : FuseEntry} (hentry : w.entry p = some e) (hwhite : e.entryType ≠ .whiteout) {id : UInt64}
    (hid : e.objectId = some id) {data : Bytes} (hobject : w.objects.lookup (objectPath id) = some data) :
    «open» pol env ino flags w
      = .ok (.opened w.nextFh) (w.withHandle (objectHandle flags.options id)) := by
  have hstored : w.stored id = some (objectPath id) := by
    unfold World.stored
    rw [hobject]
    rfl
  have hload : loadOpenState pol env p flags.needWrite flags.trunc w = _ :=
    loadOpenState_quiet hq _ _
  have hbind : (w.entry p).bind (·.objectId) = some id := by
    rw [hentry]
    exact hid
  have hnot : isWhiteoutEntry (w.entry p) = false := by
    rw [hentry]
    exact decide_eq_false hwhite
  have hpath : ((w.entry p).bind (·.objectId)).bind w.stored = some (objectPath id) := by
    rw [hbind]
    exact hstored
  apply open_quiet hq hino hload
  · rw [decideOpen_write_object hmode hwrite hnot hbind hpath]
    exact executeOpen_kept hq hentry hwhite hobject _
  · rfl

omit hq in
/-- A decision to open for reading. -/
theorem decideOpen_reading {state : OpenState} (hmode : state.accessMode = .copyOnWrite)
    (hread : state.needWrite = false) :
    decideOpen state = .notFound ∨ decideOpen state = .error ∨ decideOpen state = .openReal ∨
      ∃ id, decideOpen state = .openObject (some id) false false false := by
  unfold decideOpen computeOpenBehavior
  cases hwhite : isWhiteoutEntry state.fuseEntry with
  | true => exact Or.inl rfl
  | false =>
    cases hid : state.fuseEntry.bind (·.objectId) with
    | none => exact Or.inr (Or.inr (Or.inl (by simp [hmode, hread])))
    | some id =>
      cases hobject : state.objectPath with
      | none => exact Or.inr (Or.inl (by simp [hmode, hread]))
      | some path => exact Or.inr (Or.inr (Or.inr ⟨id, by simp [hmode, hread]⟩))

/-- Carrying it out changes nothing. -/
theorem executeOpen_reading (env : Env) (p : FsPath) {state : OpenState} (hmode : state.accessMode = .copyOnWrite)
    (hread : state.needWrite = false) (flags : OpenFlags) (md : FileMetadata) :
    (∃ file, executeOpen env (decideOpen state) p flags md w = .ok file w) ∨
      ∃ err, executeOpen env (decideOpen state) p flags md w = .error err w := by
  rcases decideOpen_reading hmode hread with h | h | h | ⟨id, h⟩ <;> rw [h]
  · exact Or.inr ⟨_, rfl⟩
  · exact Or.inr ⟨_, rfl⟩
  · show (∃ file, (openHost env flags.options p >>= fun file => pure (.passthroughReal file)
      : FuseM OpenFile) w = .ok file w) ∨ _
    show _ ∨ ∃ err, (openHost env flags.options p >>= fun file => pure (.passthroughReal file)
      : FuseM OpenFile) w = .error err w
    unfold openHost
    cases hopen : w.host.openFile env.cred flags.options p with
    | error errno =>
      apply Or.inr
      rw [run_bind_error (run_bind_error (onHost_error hopen))]
      exact ⟨_, rfl⟩
    | ok r =>
      obtain ⟨ino, host⟩ := r
      obtain ⟨rfl, -⟩ := FileSystem.openFile_existing rfl hopen
      apply Or.inl
      refine ⟨.passthroughReal (fdOf flags.options (.host ino)), ?_⟩
      have hfd : (onHost (fun fs => fs.openFile env.cred flags.options p) >>= fun ino =>
          pure (fdOf flags.options (.host ino)) : FuseM Fd) w
          = .ok (fdOf flags.options (.host ino)) w := (run_bind_ok (onHost_ok hopen)).trans rfl
      exact (run_bind_ok hfd).trans rfl
  · rw [executeOpen_openObject]
    have hget : Client.getObjectPath env id w = _ := getObjectPath_quiet hq id
    have hobj : objectForOpen env p md (some id) false false
        = (Client.getObjectPath env id >>= fun path => pure (id, path)) := rfl
    rw [hobj]
    unfold World.stored at hget
    cases hlook : w.objects.lookup (objectPath id) with
    | none =>
      rw [hlook] at hget
      apply Or.inr
      rw [run_bind_error (run_bind_error hget)]
      exact ⟨_, rfl⟩
    | some data =>
      rw [hlook] at hget
      have hpair : (Client.getObjectPath env id >>= fun path => pure (id, path)
          : FuseM (UInt64 × ObjectPath)) w = .ok (id, objectPath id) w := by
        rw [run_bind_ok hget]
        rfl
      have hcopy : onlyIf false (ignore (copyToObject p (objectPath id))) w = .ok () w := rfl
      have hdelete : onlyIf false (ignore (Client.deleteWhiteout env p)) w = .ok () w := rfl
      apply Or.inl
      rw [run_bind_ok hpair, run_bind_ok hcopy, run_bind_ok hdelete,
        run_bind_ok (openObject_existing (fun hc => by cases hc.1) hlook)]
      exact ⟨_, rfl⟩

variable (env) in
/-- **open** for reading changes the open files only. -/
theorem open_reading (hmode : pol.classify p = .copyOnWrite) {ino : UInt64}
    (hino : w.inodes.getPath ino = some p) {flags : OpenFlags} (hread : flags.needWrite = false) :
    (∃ file, «open» pol env ino flags w = .ok (.opened w.nextFh) (w.withHandle file)) ∨
      ∃ err, «open» pol env ino flags w = .error err w := by
  obtain ⟨state, hload, haccess, hneed⟩ : ∃ state,
      loadOpenState pol env p flags.needWrite flags.trunc w = .ok state w ∧
        state.accessMode = pol.classify p ∧ state.needWrite = flags.needWrite :=
    ⟨_, loadOpenState_quiet hq _ _, rfl, rfl⟩
  have hexec := executeOpen_reading hq env p (haccess.trans hmode) (hneed.trans hread) flags
    (fileMetaNow env 0 (S_IFREG ||| 0o644) env.uid env.gid)
  rcases hexec with ⟨file, h⟩ | ⟨err, h⟩
  · exact Or.inl ⟨file, open_quiet hq hino hload h rfl⟩
  · refine Or.inr ⟨err, ?_⟩
    have hpath : pathOf ino w = .ok p w := pathOf_ok hino
    unfold «open»
    rw [run_bind_ok hpath, run_bind_ok (reqStart_quiet hq _ _),
      run_bind_ok (connectDaemon_quiet hq), run_bind_ok hload]
    exact run_bind_error h

/-- **stat** changes the inode table only. -/
theorem statPath_inodes : endState (statPath pol env p w) = w ∨
    endState (statPath pol env p w) = { w with inodes := (w.inodes.getOrInsert p).2 } := by
  unfold statPath
  rw [run_bind_ok (connectDaemon_quiet hq), run_bind_ok (loadStatState_quiet hq)]
  cases decideStat ⟨pol.classify p, (w.host.symlinkMetadata p).isOk, w.entry p⟩ with
  | useReal =>
    show endState (statRealPath p w) = _ ∨ endState (statRealPath p w) = _
    unfold statRealPath
    cases hmeta : w.host.symlinkMetadata p with
    | error errno =>
      rw [run_bind_error (readHost_error hmeta)]
      exact Or.inl rfl
    | ok inode =>
      rw [run_bind_ok (readHost_ok hmeta)]
      exact Or.inr rfl
  | useFuse =>
    show endState (statFusePath env p w) = _ ∨ endState (statFusePath env p w) = _
    unfold statFusePath
    rw [run_bind_ok (getEntry_quiet hq)]
    cases w.entry p with
    | none => exact Or.inl rfl
    | some e =>
      dsimp only
      cases kindFromEntry e with
      | none => exact Or.inl rfl
      | some kind => exact Or.inr rfl
  | notFound => exact Or.inl rfl

variable (env) in
/-- **unlink** puts a whiteout where the entry was. -/
theorem unlink_quiet (hmode : pol.classify p = .copyOnWrite) {parent : UInt64} {name : Component}
    (hname : w.namedPath parent name = some p) :
    unlink pol env parent name w = .ok .ok (w.removed p) := by
  have hpath := getPath_ok hname
  have hdelete : ignore (Client.deleteFile env p) w
      = .ok () { w with daemon := (w.daemon.deleteFile p).2 } := by
    rw [run_ignore]
    unfold Client.deleteFile call
    rw [run_bind_ok (sendRequest_quiet hq _)]
    rfl
  have hput : Client.putWhiteout env p { w with daemon := (w.daemon.deleteFile p).2 }
      = .ok () (w.removed p) := by
    unfold Client.putWhiteout call
    rw [run_bind_ok (sendRequest_quiet (w := { w with daemon := (w.daemon.deleteFile p).2 }) hq _)]
    rfl
  have hdecide : decideUnlink (loadUnlinkState pol p) = .whiteout := by
    unfold decideUnlink loadUnlinkState
    rw [hmode]
  have hexec : executeUnlink env .whiteout p w = .ok () (w.removed p) := by
    unfold executeUnlink
    exact (run_bind_ok hdelete).trans hput
  unfold unlink
  rw [run_bind_ok hpath, run_bind_ok (connectDaemon_quiet hq), hdecide, run_bind_ok hexec]
  rfl

/-- Stat of a regular file is answered. -/
theorem statPath_file (hmode : pol.classify p = .copyOnWrite) {content : Except Errno Bytes}
    (hview : cowView w p = .file content) :
    ∃ attr, outcome (statPath pol env p w) = .ok (.regularFile, attr) := by
  have hshows : ShowsKind (cowView w p) (outcome (statPath pol env p w)) :=
    statPath_cowView hq hmode
  rw [hview] at hshows
  exact hshows

/-- The metadata of a file that `create` makes. -/
def createdMeta (env : Env) (mode : UInt32) : FileMetadata :=
  fileMetaNow env 0 (S_IFREG ||| (mode &&& 0o7777)) env.uid env.gid

omit hq in
theorem executeCreate_createObject (mode : UInt32) (flags : OpenFlags) (md : FileMetadata) :
    executeCreate env .createObject p mode flags md
      = Client.ensureFileObject env p md >>= fun x =>
        ignore (Client.deleteWhiteout env p) >>= fun _ =>
        openObject { flags.options with create := true, mode } x.2 >>= fun file =>
        pure (.passthroughObject file x.1) := rfl

/-- The messages of a `create`: whatever becomes of the open, the new entry is there. -/
theorem executeCreate_new (hio : env.storeIo = .ok) (hfree : (w.entry p).bind (·.objectId) = none)
    (mode : UInt32) (flags : OpenFlags) (md : FileMetadata) :
    executeCreate env .createObject p mode flags md w
      = if flags.needWrite = false ∧ flags.append = false then
          .error (.ofErrno .einval) (w.newObject p md [])
        else .ok (objectHandle flags.options w.daemon.state.nextId) (w.newObject p md []) := by
  have hnew : (w.newObject p md []).entry p = some (.ofObject md w.daemon.state.nextId) := by
    rw [World.entry_newObject, if_pos rfl]
  have hobject : (w.newObject p md []).objects.lookup (objectPath w.daemon.state.nextId)
      = some [] := by
    rw [World.objects_newObject, if_pos rfl]
  have hdelete : ignore (Client.deleteWhiteout env p) (w.newObject p md [])
      = .ok () (w.newObject p md []) := by
    apply deleteWhiteout_quiet (w := w.newObject p md []) hq
    intro e he
    rw [hnew] at he
    cases he
    exact EntryType.noConfusion
  rw [executeCreate_createObject, run_bind_ok (ensureFileObject_quiet hq hio hfree md),
    run_bind_ok hdelete]
  by_cases hflags : flags.needWrite = false ∧ flags.append = false
  · rw [if_pos hflags]
    have hbad : openObject { flags.options with create := true, mode }
        (objectPath w.daemon.state.nextId) (w.newObject p md [])
        = .error (.ofErrno .einval) (w.newObject p md []) := by
      unfold openObject
      apply run_bind_error
      apply onObjects_error
      exact if_pos ⟨rfl, hflags.1, hflags.2⟩
    rw [run_bind_error hbad]
  · rw [if_neg hflags]
    rw [run_bind_ok (openObject_existing (fun hc => hflags hc.2) hobject)]
    rfl

/-- The attributes in the reply come from a stat. -/
theorem createReply_quiet (env : Env) (hmode : pol.classify p = .copyOnWrite) {content : Except Errno Bytes}
    (hview : cowView w p = .file content) (fh : UInt64) (mode : UInt32) :
    ∃ attr w', (attempt (statPath pol env p) >>= fun stat =>
        match stat with
        | .ok (_, attr) => pure (.created attr fh)
        | .error _ => do
          let ino ← getOrInsert p
          pure (.created (newAttr env ino .regularFile mode) fh) : FuseM Reply) w
        = .ok (.created attr fh) w' ∧
      (w' = w ∨ w' = { w with inodes := (w.inodes.getOrInsert p).2 }) := by
  obtain ⟨attr, hstat⟩ : ∃ attr, outcome (statPath pol env p w) = .ok (.regularFile, attr) :=
    statPath_file hq hmode hview
  refine ⟨attr, endState (statPath pol env p w), ?_, statPath_inodes hq⟩
  rw [run_bind, run_attempt, hstat]
  rfl

/-- **create**: a new, empty object.  Without write access the open fails, after the entry has
been published. -/
theorem create_quiet (hio : env.storeIo = .ok) (hmode : pol.classify p = .copyOnWrite)
    {parent : UInt64} {name : Component} (hname : w.namedPath parent name = some p)
    (hfree : (w.entry p).bind (·.objectId) = none) (mode : UInt32) (flags : OpenFlags) :
    create pol env parent name mode flags w
        = .error (.ofErrno .einval) (w.newObject p (createdMeta env mode) []) ∨
      ∃ attr w', create pol env parent name mode flags w = .ok (.created attr w.nextFh) w' ∧
        (flags.needWrite || flags.append) = true ∧
        (w' = (w.newObject p (createdMeta env mode) []).withHandle
            (objectHandle flags.options w.daemon.state.nextId) ∨
          w' = { (w.newObject p (createdMeta env mode) []).withHandle
            (objectHandle flags.options w.daemon.state.nextId) with
              inodes := (w.inodes.getOrInsert p).2 }) := by
  have hdecide : decideCreate (loadCreateState pol p) = .createObject := by
    unfold decideCreate loadCreateState
    rw [hmode]
  have hexec := executeCreate_new hq hio hfree mode flags (createdMeta env mode)
  unfold create
  rw [run_bind_ok (getPath_ok hname), run_bind_ok (connectDaemon_quiet hq), hdecide]
  by_cases hflags : flags.needWrite = false ∧ flags.append = false
  · rw [if_pos hflags] at hexec
    exact Or.inl (run_bind_error hexec)
  · rw [if_neg hflags] at hexec
    have hview : cowView ((w.newObject p (createdMeta env mode) []).withHandle
        (objectHandle flags.options w.daemon.state.nextId)) p = .file (.ok []) := by
      apply cowView_object _ (typeBits_regular 0 mode env.uid env.gid env)
      · show (w.newObject p _ []).objects.lookup _ = _
        rw [World.objects_newObject, if_pos rfl]
      · show (w.newObject p _ []).entry p = _
        rw [World.entry_newObject, if_pos rfl]
        rfl
    obtain ⟨attr, w', hreply, hw'⟩ := createReply_quiet
      (w := (w.newObject p (createdMeta env mode) []).withHandle
        (objectHandle flags.options w.daemon.state.nextId)) hq env hmode hview w.nextFh mode
    refine Or.inr ⟨attr, w', ?_, ?_, hw'⟩
    · apply (run_bind_ok hexec).trans
      exact hreply
    · cases hneed : flags.needWrite with
      | true => rfl
      | false =>
        cases happend : flags.append with
        | true => rfl
        | false => exact absurd ⟨hneed, happend⟩ hflags

omit hq in
/-- A write through a handle of an object. -/
theorem writeAt_objectHandle {opts : OpenOptions} (hopts : (opts.write || opts.append) = true)
    {id : UInt64} {old : Bytes} (hobject : w.objects.lookup (objectPath id) = some old)
    (offset : Nat) (data : Bytes) :
    (objectHandle opts id).file.writeAt offset data w = .ok data.length (w.setObject (objectPath id)
      (writeAt old (if opts.append then old.length else offset) data)) := by
  unfold Fd.writeAt
  by_cases hdata : data = []
  · rw [if_pos hdata, hdata, writeAt_nil, w.setObject_self hobject]
    rfl
  · rw [if_neg hdata]
    have hmodify : Fd.write (fdOf opts (.object (objectPath id))) offset data w
        = .ok () (w.setObject (objectPath id)
          (writeAt old (if opts.append then old.length else offset) data)) := by
      unfold Fd.write
      have hwritable : (fdOf opts (.object (objectPath id))).writable = true := hopts
      rw [if_neg (by rw [hwritable]; exact Bool.noConfusion)]
      exact Fd.modifyObject_found _ hobject
    exact (run_bind_ok hmodify).trans rfl

/-- **write** to an object. -/
theorem write_quiet {ino fh : UInt64} (hino : (w.inodes.getPath ino).isSome) {opts : OpenOptions}
    {id : UInt64} (hfile : w.openFiles.lookup fh = some (objectHandle opts id))
    (hopts : (opts.write || opts.append) = true) {old : Bytes}
    (hobject : w.objects.lookup (objectPath id) = some old) (offset : Nat) (data : Bytes) :
    write ino fh offset data w = .ok (.written data.length) (w.setObject (objectPath id)
      (writeAt old (if opts.append then old.length else offset) data)) := by
  obtain ⟨path, hpath⟩ := Option.isSome_iff_exists.mp hino
  have hpathOf : pathOf ino w = .ok path w := pathOf_ok hpath
  have hopen : openFileOf fh w = .ok (objectHandle opts id) w := openFileOf_ok hfile
  unfold write
  rw [run_bind_ok (connectDaemon_quiet hq), run_bind_ok hpathOf, run_bind_ok hopen,
    run_bind_ok (writeAt_objectHandle hopts hobject offset data)]
  rfl

theorem keeps_connectDaemon_quiet : Keeps (· = w) connectDaemon := by
  intro s hs
  subst hs
  rw [connectDaemon_quiet hq]

variable (pol env) in
/-- **lookup** changes the inode table only. -/
theorem lookup_inodes (parent : UInt64) (name : Component) :
    ∃ inodes, endState (lookup pol env parent name w) = { w with inodes } := by
  have hstat : ∀ path, Ensures (· = w) (statPath pol env path)
      (fun _ s => ∃ inodes, s = { w with inodes }) fun s => ∃ inodes, s = { w with inodes } := by
    intro path s hs
    subst hs
    have hend : ∃ inodes, endState (statPath pol env path s) = { s with inodes } := by
      have hcases : endState (statPath pol env path s) = s ∨ endState (statPath pol env path s)
          = { s with inodes := (s.inodes.getOrInsert path).2 } := statPath_inodes hq
      rcases hcases with h | h
      · exact ⟨s.inodes, h⟩
      · exact ⟨_, h⟩
    cases hres : statPath pol env path s with
    | ok a t =>
      rw [hres] at hend
      exact hend
    | error e t =>
      rw [hres] at hend
      exact hend
  have hlookup : Ensures (· = w) (lookup pol env parent name)
      (fun _ s => ∃ inodes, s = { w with inodes }) fun s => ∃ inodes, s = { w with inodes } := by
    apply Ensures.after (keeps_getPath parent name)
    · exact fun s hs => ⟨w.inodes, hs⟩
    · exact fun path => Ensures.bind (hstat path) fun _ => Ensures.ret fun _ h => h
  exact hlookup.endState rfl

/-- **read** changes nothing. -/
theorem read_still (ino fh : UInt64) (offset len : Nat) :
    endState (read ino fh offset len w) = w := by
  have hall : Keeps (· = w) (read ino fh offset len) :=
    Keeps.bind (keeps_connectDaemon_quiet hq) fun _ => Keeps.bind (keeps_pathOf ino) fun _ =>
      Keeps.bind (keeps_openFileOf fh) fun file => Keeps.bind (keeps_readAt file.file offset len) fun _ => Keeps.ret
  exact hall.endState rfl

/-- **release** closes the handle. -/
theorem release_quiet (fh : UInt64) (flush : Bool) :
    release fh flush w = .ok .ok { w with openFiles := w.openFiles.erase fh } := by
  unfold release
  have hflush : onlyIf flush connectDaemon w = .ok () w := by
    cases flush with
    | false => rfl
    | true => exact connectDaemon_quiet hq
  rw [run_bind_ok hflush]
  rfl

end Quiet

end Cas.Fuse
