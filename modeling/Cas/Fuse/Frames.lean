/-
  Cas.Fuse.Frames — what each action of a handler leaves alone.

  An assertion about the world is kept by a handler when it is kept by the
  primitive actions the handler is made of:

    • `Steady P`   — questions to the daemon,
    • `Edits P`    — also messages that put, move or delete entries
                     without an object,
    • `Messages P` — all messages, and work on object files,
    • `Tables P`   — the inode table and the open files,
    • `Hosts P`    — host calls.

  The lemmas follow the handlers down to these; `keeps_handle` is the
  whole request.
-/
import Cas.Fuse.Fs

namespace Cas.Fuse

open Cas.Lib Cas.Host Cas.Syncing

/-! ## §1. Assertions that survive. -/

/-- The file-type bits of a mode. -/
def typeBits (md : FileMetadata) : UInt32 := md.mode &&& S_IFMT

/-- The requests that FUSE operations send.  New files come with the type bits of a regular
file; `PutFileMeta` is sent by `setattrMeta` only and has a field of its own below. -/
def sentByFuse : Request → Prop
  | .ensureFileObject _ md => typeBits md = S_IFREG
  | .ensureFileObjectFromReal _ md => typeBits md = S_IFREG
  | .putFileMeta _ _ => False
  | .upsertFileEntry _ _ _ => False
  | .listWhiteoutUnder _ => False
  | .flush => False
  | _ => True

/-- The requests that only ask. -/
def asks : Request → Prop
  | .getObjectPath _ | .getFileMeta _ | .getEntry _ | .readDirAll _ | .logAccess _ _ _ => True
  | _ => False

/-- The requests that put, move or delete entries and have nothing to do with objects. -/
def edits : Request → Prop
  | .deleteFile _ | .renameFile _ _ | .putDir _ _ | .putSymlink _ _ _ | .putWhiteout _
  | .deleteWhiteout _ | .renameTree _ _ => True
  | _ => False

/-- `P` says nothing about the messages still to come. -/
def Steady (P : World → Prop) : Prop := ∀ w faults, P w → P { w with faults }

structure Edits (P : World → Prop) : Prop where
  faults : Steady P
  dispatch : ∀ w env req, edits req → P w → P { w with daemon := (dispatch env w.daemon req).2 }

structure Messages (P : World → Prop) : Prop where
  faults : ∀ w faults, P w → P { w with faults }
  dispatch : ∀ w env req, sentByFuse req → P w →
    P { w with daemon := (dispatch env w.daemon req).2 }
  /-- `setattrMeta` writes an entry's metadata back with the type bits it had. -/
  putMeta : ∀ (w : World) env path e md, w.daemon.state.fuseMap.lookup path = some e →
    typeBits md = typeBits e.metadata → P w →
    P { w with daemon := (Syncing.dispatch env w.daemon (.putFileMeta path md)).2 }
  objects : ∀ (w : World) objects, P w →
    P { w with daemon := { w.daemon with storage := { w.daemon.storage with objects } } }

/-- `P` says nothing about the object files. -/
def Objects (P : World → Prop) : Prop := ∀ (w : World) objects, P w →
  P { w with daemon := { w.daemon with storage := { w.daemon.storage with objects } } }

structure Tables (P : World → Prop) : Prop where
  inodes : ∀ w path, P w → P { w with inodes := (w.inodes.getOrInsert path).2 }
  openFiles : ∀ w openFiles nextFh, P w → P { w with openFiles, nextFh }

/-- `P` does not mind that `path` gets a number. -/
def Numbers (P : World → Prop) (path : FsPath) : Prop :=
  ∀ w, P w → P { w with inodes := (w.inodes.getOrInsert path).2 }

def Hosts (P : World → Prop) : Prop := ∀ w host, P w → P { w with host }

/-- `P` says nothing about the daemon or the messages still to come. -/
def Local (P : World → Prop) : Prop :=
  ∀ w daemon faults, P w → P { w with daemon, faults }

/-- `P` is about the host. -/
def HostOnly (P : World → Prop) : Prop := ∀ w w' : World, w'.host = w.host → P w → P w'

/-- `P` is about the daemon. -/
def DaemonOnly (P : World → Prop) : Prop := ∀ w w' : World, w'.daemon = w.daemon → P w → P w'

theorem Messages.steady {P : World → Prop} (h : Messages P) : Steady P := h.faults

theorem Messages.edits {P : World → Prop} (h : Messages P) : Edits P where
  faults := h.faults
  dispatch w env req hreq hw := by
    apply h.dispatch w env req _ hw
    cases req <;> first | exact hreq.elim | trivial

theorem Local.messages {P : World → Prop} (h : Local P) : Messages P where
  faults w faults := h w w.daemon faults
  dispatch w _ _ _ := h w _ w.faults
  putMeta w _ _ _ _ _ _ := h w _ w.faults
  objects w _ := h w _ w.faults

theorem HostOnly.messages {P : World → Prop} (h : HostOnly P) : Messages P where
  faults w faults := h w { w with faults } rfl
  dispatch w env req _ := h w { w with daemon := (dispatch env w.daemon req).2 } rfl
  putMeta w env path _ md _ _ := h w
    { w with daemon := (dispatch env w.daemon (.putFileMeta path md)).2 } rfl
  objects w _ := h w _ rfl

theorem HostOnly.tables {P : World → Prop} (h : HostOnly P) : Tables P where
  inodes w path := h w { w with inodes := (w.inodes.getOrInsert path).2 } rfl
  openFiles w openFiles nextFh := h w { w with openFiles, nextFh } rfl

theorem DaemonOnly.tables {P : World → Prop} (h : DaemonOnly P) : Tables P where
  inodes w path := h w { w with inodes := (w.inodes.getOrInsert path).2 } rfl
  openFiles w openFiles nextFh := h w { w with openFiles, nextFh } rfl

theorem DaemonOnly.hosts {P : World → Prop} (h : DaemonOnly P) : Hosts P :=
  fun w host => h w { w with host } rfl

/-- Bits set outside a mask do not show under it. -/
theorem or_and_of_disjoint {a v b c : UInt32} (h : b &&& c = 0) :
    (a ||| (v &&& b)) &&& c = a &&& c := by
  apply UInt32.toBitVec_inj.mp
  have hb : b.toBitVec &&& c.toBitVec = 0#32 := congrArg UInt32.toBitVec h
  show (a.toBitVec ||| (v.toBitVec &&& b.toBitVec)) &&& c.toBitVec = a.toBitVec &&& c.toBitVec
  rw [BitVec.and_or_distrib_right, BitVec.and_assoc, hb, BitVec.and_zero, BitVec.or_zero]

theorem typeBits_regular (size : UInt64) (perm uid gid : UInt32) (env : Env) :
    typeBits (fileMetaNow env size (S_IFREG ||| (perm &&& 0o7777)) uid gid) = S_IFREG :=
  or_and_of_disjoint (by decide)

theorem typeBits_updateMeta (env : Env) (md : FileMetadata) (mode uid gid : Option UInt32)
    (size : Option UInt64) : typeBits (updateMeta env md mode uid gid size) = typeBits md := by
  cases mode with
  | none => rfl
  | some v =>
    show ((md.mode &&& ~~~0o7777) ||| (v &&& 0o7777)) &&& S_IFMT = md.mode &&& S_IFMT
    rw [or_and_of_disjoint (by decide), UInt32.and_assoc]
    rfl

variable {P : World → Prop} (pol : Policy) (env : Env)

/-! ## §2. Questions. -/

section Steady

variable (hs : Steady P)

include hs

theorem keeps_nextFault : Keeps P nextFault :=
  fun w hw => hs w w.faults.tail hw

theorem keeps_connectDaemon : Keeps P connectDaemon := by
  apply Keeps.bind (keeps_nextFault hs)
  intro fault
  cases fault with
  | none => exact Keeps.ret
  | some f => cases f <;> exact Keeps.fail

omit hs in
/-- A request that may be sent from `T` and leads from there to `P`. -/
theorem ensures_sendRequest {T : World → Prop} {req : Request} (hfaults : Steady T)
    (hsend : ∀ w, T w →
      P { w with daemon := (dispatch (env.dispatchEnv w.host) w.daemon req).2 })
    (hT : ∀ w, T w → P w) : Ensures T (sendRequest env req) (fun _ => P) P := by
  have hnow : Ensures T (dispatchNow env req) (fun _ => P) P := fun w hw => hsend w hw
  apply Ensures.bind (keeps_nextFault hfaults |>.weaken (fun _ h => h) (fun _ _ h => h) hT)
  intro fault
  cases fault with
  | none => exact hnow
  | some f =>
    cases f with
    | unsent err => exact Ensures.fail hT
    | lost err => exact Ensures.bind hnow fun _ => Ensures.fail fun _ h => h

omit hs in
/-- What `call` makes of a response depends on nothing. -/
theorem keeps_take {α : Type} {take : Response → Option α} {response : Response} :
    Keeps P (match take response with
      | some a => pure a
      | none =>
        match response with
        | .error msg => throw (.syncingClient (.server msg))
        | _ => throw unexpected : FuseM α) := by
  cases take response with
  | some a => exact Keeps.ret
  | none => cases response <;> exact Keeps.fail

omit hs in
/-- A call that returns has taken its value from what the daemon replied. -/
theorem ensures_call {α : Type} {T E : World → Prop} {Q : α → World → Prop} {req : Request}
    {take : Response → Option α} (hfaults : Steady T)
    (hreply : ∀ w a, T w → take (dispatch (env.dispatchEnv w.host) w.daemon req).1 = some a →
      Q a { w with daemon := (dispatch (env.dispatchEnv w.host) w.daemon req).2 })
    (hsent : ∀ w, T w →
      E { w with daemon := (dispatch (env.dispatchEnv w.host) w.daemon req).2 })
    (hT : ∀ w, T w → E w) : Ensures T (call env req take) Q E := by
  apply Ensures.bind (Q := fun response w => E w ∧ ∀ a, take response = some a → Q a w)
  · have hnow : Ensures T (dispatchNow env req)
        (fun response w => E w ∧ ∀ a, take response = some a → Q a w) E :=
      fun w hw => ⟨hsent w hw, fun a ha => hreply w a hw ha⟩
    apply Ensures.bind (Q := fun _ => T) fun w hw => hfaults w w.faults.tail hw
    intro fault
    cases fault with
    | none => exact hnow
    | some f =>
      cases f with
      | unsent err => exact Ensures.fail hT
      | lost err => exact Ensures.bind hnow fun _ => Ensures.fail fun _ h => h.1
  · intro response
    cases take response with
    | some a => exact Ensures.ret fun w hw => hw.2 a rfl
    | none => cases response <;> exact Ensures.fail fun _ h => h.1

omit hs in
/-- A question leaves the daemon as it is. -/
theorem dispatch_asks {req : Request} (hreq : asks req) (denv : DispatchEnv) (s : Server) :
    (dispatch denv s req).2 = s := by
  cases req with
  | getObjectPath id =>
    show (s.getObjectPath id).2 = s
    unfold Server.getObjectPath
    split <;> rfl
  | getFileMeta path | getEntry path | readDirAll path | logAccess path operation pid => rfl
  | _ => exact hreq.elim

theorem keeps_askRequest {req : Request} (hreq : asks req) : Keeps P (sendRequest env req) := by
  apply ensures_sendRequest env hs _ fun _ h => h
  intro w hw
  rw [dispatch_asks hreq]
  exact hw

theorem keeps_ask {α : Type} (req : Request) (take : Response → Option α)
    (hreq : asks req) : Keeps P (call env req take) :=
  Keeps.bind (keeps_askRequest env hs hreq) fun _ => keeps_take

theorem keeps_getObjectPath (id : UInt64) : Keeps P (Client.getObjectPath env id) := by
  apply Keeps.bind (keeps_askRequest env hs (show asks (.getObjectPath id) from trivial))
  intro response
  cases response <;> first | exact Keeps.ret | exact Keeps.fail

omit hs in
theorem keeps_peekHost {α : Type} (f : FileSystem → α) : Keeps P (peekHost f) := fun _ hw => hw

omit hs in
theorem keeps_readHost {α : Type} (f : FileSystem → Except Errno α) : Keeps P (readHost f) := by
  intro w hw
  unfold readHost
  cases f w.host <;> exact hw

omit hs in
theorem keeps_pathOf (ino : UInt64) : Keeps P (pathOf ino) := by
  intro w hw
  unfold pathOf
  cases w.inodes.getPath ino <;> exact hw

omit hs in
theorem keeps_openFileOf (fh : UInt64) : Keeps P (openFileOf fh) := by
  intro w hw
  unfold openFileOf
  cases w.openFiles.lookup fh <;> exact hw

omit hs in
theorem keeps_getPath (parent : UInt64) (name : Component) : Keeps P (getPath parent name) :=
  Keeps.bind (keeps_pathOf parent) fun _ => Keeps.ret

theorem keeps_loadStatState (path : FsPath) : Keeps P (loadStatState pol env path) :=
  Keeps.bind (keeps_peekHost _) fun _ => Keeps.bind (keeps_ask env hs _ _ (by trivial)) fun _ => Keeps.ret

theorem keeps_loadReaddirState (path : FsPath) : Keeps P (loadReaddirState pol env path) :=
  Keeps.bind (keeps_peekHost _) fun _ => Keeps.bind (keeps_ask env hs _ _ (by trivial)) fun _ => Keeps.ret

theorem keeps_loadObjectPath (entry : Option FuseEntry) :
    Keeps P (loadObjectPath env entry) := by
  unfold loadObjectPath
  cases entry.bind (·.objectId) with
  | none => exact Keeps.ret
  | some id => exact Keeps.bind (keeps_getObjectPath env hs id).attempt fun _ => Keeps.ret

theorem keeps_loadOpenState (path : FsPath) (needWrite truncate : Bool) :
    Keeps P (loadOpenState pol env path needWrite truncate) :=
  Keeps.bind (keeps_ask env hs _ _ (by trivial)) fun _ => Keeps.bind (keeps_loadObjectPath env hs _)
    fun _ => Keeps.bind (keeps_peekHost _) fun _ => Keeps.ret

theorem keeps_loadReadlinkState (path : FsPath) : Keeps P (loadReadlinkState pol env path) :=
  Keeps.bind (keeps_ask env hs _ _ (by trivial)) fun _ => Keeps.ret

theorem keeps_loadRenameState (src dst : FsPath) : Keeps P (loadRenameState pol env src dst) :=
  Keeps.bind (keeps_ask env hs _ _ (by trivial)) fun _ => Keeps.bind (keeps_ask env hs _ _ (by trivial)) fun _ => Keeps.ret

theorem keeps_reqStart (operation : String) (path : FsPath) :
    Keeps P (reqStart pol env operation path) :=
  Keeps.onlyIf (Keeps.ignore (Keeps.bind (keeps_connectDaemon hs)
    fun _ => (keeps_ask env hs _ _ (by trivial)).ignore))

/-- What the client has read is the metadata of the entry, until it writes. -/
theorem ensures_getFileMeta (path : FsPath) :
    Ensures P (attempt (Client.getFileMeta env path)) (fun result w => P w ∧
      ∀ md, result = .ok (some md) →
        ∃ e, w.daemon.state.fuseMap.lookup path = some e ∧ e.metadata = md) P := by
  apply Ensures.attempt
  apply Ensures.bind (Q := fun response w => P w ∧
    response = .getFileMeta ((w.daemon.state.fuseMap.lookup path).map (·.metadata)))
  · apply Ensures.bind ((keeps_nextFault hs).weaken (fun _ h => h) (fun _ _ h => h)
      fun s hs e => ⟨hs, fun md h => by cases h⟩)
    intro fault
    cases fault with
    | none => exact fun w hw => ⟨hw, rfl⟩
    | some f =>
      cases f with
      | unsent err => exact Ensures.fail fun w hw e => ⟨hw, fun md h => by cases h⟩
      | lost err =>
        exact Ensures.after (m := dispatchNow env (.getFileMeta path)) (fun _ hw => hw)
          (fun w hw e => ⟨hw, fun md h => by cases h⟩)
          fun _ => Ensures.fail fun w hw e => ⟨hw, fun md h => by cases h⟩
  · intro response w hw
    obtain ⟨hP', rfl⟩ := hw
    refine ⟨hP', fun md h => ?_⟩
    exact Option.map_eq_some_iff.mp (Except.ok.inj h)

end Steady

/-! ## §3. Messages and object files. -/

theorem keeps_onObjects (ho : Objects P) {α : Type}
    (f : FMap ObjectPath Bytes → Except Errno (α × FMap ObjectPath Bytes)) :
    Keeps P (onObjects f) := by
  intro w hw
  unfold onObjects
  cases f w.daemon.storage.objects with
  | error errno => exact hw
  | ok r => exact ho w r.2 hw

theorem keeps_openObject (ho : Objects P) (opts : OpenOptions) (path : ObjectPath) :
    Keeps P (openObject opts path) :=
  Keeps.bind (keeps_onObjects ho _) fun _ => Keeps.ret

theorem keeps_copyToObject (ho : Objects P) (path : FsPath) (objectPath : ObjectPath) :
    Keeps P (copyToObject path objectPath) :=
  Keeps.bind (keeps_readHost _) fun _ => keeps_onObjects ho _

/-- `P` survives the messages that an open or a create of `path` sends. -/
structure FileMessages (P : World → Prop) (env : Env) (path : FsPath) (md : FileMetadata) :
    Prop where
  ensure : Keeps P (Client.ensureFileObject env path md)
  ensureReal : Keeps P (Client.ensureFileObjectFromReal env path md)
  clear : Keeps P (Client.deleteWhiteout env path)

theorem keeps_objectForOpen (hs : Steady P) {path : FsPath} {md : FileMetadata}
    (hf : FileMessages P env path md) (id : Option UInt64) (needsEnsure copyUp : Bool) :
    Keeps P (objectForOpen env path md id needsEnsure copyUp) := by
  unfold objectForOpen
  cases needsEnsure with
  | true =>
    cases copyUp with
    | true => exact hf.ensureReal
    | false => exact hf.ensure
  | false =>
    cases id with
    | none => exact Keeps.fail
    | some oid => exact Keeps.bind (keeps_getObjectPath env hs oid) fun _ => Keeps.ret

section Messages

variable (hP : Messages P)

include hP

theorem keeps_call {α : Type} (req : Request) (take : Response → Option α)
    (hreq : sentByFuse req) : Keeps P (call env req take) :=
  Keeps.bind (ensures_sendRequest env hP.faults
    (fun w hw => hP.dispatch w _ req hreq hw) fun _ h => h) fun _ => keeps_take

omit hP in
/-- Work on the object files that leaves them as they are. -/
theorem keeps_onObjects_same {α : Type}
    {f : FMap ObjectPath Bytes → Except Errno (α × FMap ObjectPath Bytes)}
    (hf : ∀ objects a objects', f objects = .ok (a, objects') → objects' = objects) :
    Keeps P (onObjects f) := by
  intro s hs
  unfold onObjects
  cases hres : f s.daemon.storage.objects with
  | error errno => exact hs
  | ok r =>
    have hsame : r.2 = s.daemon.storage.objects := hf _ r.1 r.2 hres
    show P { s with daemon := { s.daemon with storage := { s.daemon.storage with objects := r.2 } } }
    rw [hsame]
    exact hs

theorem Messages.file (path : FsPath) {md : FileMetadata} (hmd : typeBits md = S_IFREG) :
    FileMessages P env path md where
  ensure := keeps_call env hP _ _ hmd
  ensureReal := keeps_call env hP _ _ hmd
  clear := keeps_call env hP _ _ (by trivial)

theorem ensures_putFileMeta {path : FsPath} {md : FileMetadata} :
    Ensures (fun w => P w ∧ ∃ e, w.daemon.state.fuseMap.lookup path = some e ∧
      typeBits md = typeBits e.metadata)
      (Client.putFileMeta env path md) (fun _ => P) P := by
  apply Ensures.bind (Q := fun _ => P) _ fun _ => keeps_take
  apply ensures_sendRequest
  · exact fun w faults hw => ⟨hP.faults w faults hw.1, hw.2⟩
  · intro w hw
    obtain ⟨hP', e, he, hmd⟩ := hw
    exact hP.putMeta w _ path e md he hmd hP'
  · exact fun w hw => hw.1

theorem keeps_setattrMeta (path : FsPath) (mode uid gid : Option UInt32) (size : Option UInt64) :
    Keeps P (setattrMeta env path mode uid gid size) := by
  apply Ensures.bind (ensures_getFileMeta env hP.steady path)
  intro result
  cases result with
  | error err => exact Ensures.ret fun _ h => h.1
  | ok found =>
    cases found with
    | none => exact Ensures.ret fun _ h => h.1
    | some md =>
      apply Ensures.ignore
      apply (ensures_putFileMeta env hP).weaken _ (fun _ _ h => h) fun _ h => h
      intro w hw
      obtain ⟨e, he, hmd⟩ := hw.2 md rfl
      refine ⟨hw.1, e, he, ?_⟩
      rw [typeBits_updateMeta, hmd]

end Messages

/-! ## §4. The tables. -/

section Numbers

variable (hs : Steady P) {path : FsPath} (hn : Numbers P path)

include hn

theorem keeps_number : Keeps P (getOrInsert path) := fun w hw => hn w hw

theorem keeps_statRealPath : Keeps P (statRealPath path) :=
  Keeps.bind (keeps_readHost _) fun _ => Keeps.bind (keeps_number hn) fun _ => Keeps.ret

include hs

theorem keeps_statFusePath : Keeps P (statFusePath env path) := by
  apply Keeps.bind (keeps_ask env hs _ _ (by trivial))
  intro entry
  cases entry with
  | none => exact Keeps.fail
  | some entry =>
    dsimp only
    cases kindFromEntry entry with
    | none => exact Keeps.fail
    | some kind => exact Keeps.bind (keeps_number hn) fun _ => Keeps.ret

/-- A stat gives a number to no other path. -/
theorem keeps_stat : Keeps P (statPath pol env path) := by
  apply Keeps.bind (keeps_connectDaemon hs)
  intro _
  apply Keeps.bind (keeps_loadStatState pol env hs path)
  intro state
  cases decideStat state with
  | useReal => exact keeps_statRealPath hn
  | useFuse => exact keeps_statFusePath env hs hn
  | notFound => exact Keeps.fail

end Numbers

section Tables

variable (hs : Steady P) (ht : Tables P)

include ht

theorem Tables.numbers (path : FsPath) : Numbers P path := fun w => ht.inodes w path

theorem keeps_getOrInsert (path : FsPath) : Keeps P (getOrInsert path) :=
  keeps_number (ht.numbers path)

theorem keeps_addOpenFile (file : OpenFile) : Keeps P (addOpenFile file) :=
  fun w hw => ht.openFiles w (w.openFiles.insert w.nextFh file) (w.nextFh + 1) hw

theorem keeps_removeOpenFile (fh : UInt64) : Keeps P (removeOpenFile fh) :=
  fun w hw => ht.openFiles w (w.openFiles.erase fh) w.nextFh hw

theorem keeps_childEntries (children : List (Name × FileType × FsPath)) :
    Keeps P (childEntries children) := by
  induction children with
  | nil => exact Keeps.ret
  | cons child children ih =>
    exact Keeps.bind (keeps_getOrInsert ht _) fun _ => Keeps.bind ih fun _ => Keeps.ret

include hs

theorem keeps_statPath (path : FsPath) : Keeps P (statPath pol env path) :=
  keeps_stat pol env hs (ht.numbers path)

theorem keeps_entryReply (path : FsPath) : Keeps P (entryReply pol env path) :=
  Keeps.bind (keeps_statPath pol env hs ht path) fun _ => Keeps.ret

theorem keeps_attrReply (path : FsPath) : Keeps P (attrReply pol env path) :=
  Keeps.bind (keeps_statPath pol env hs ht path) fun _ => Keeps.ret

/-- What `mkdir` does after the directory is made. -/
theorem keeps_afterMkdir (path : FsPath) (mode : UInt32) : Keeps P (do
    let ino ← getOrInsert path
    match ← attempt (statPath pol env path) with
    | .ok (_, attr) => pure (Reply.entry attr)
    | .error _ => pure (Reply.entry (newAttr env ino .directory mode))) := by
  apply Keeps.bind (keeps_getOrInsert ht path)
  intro ino
  apply Keeps.bind (keeps_statPath pol env hs ht path).attempt
  intro result
  cases result <;> exact Keeps.ret

/-- What `create` does after the file is open. -/
theorem keeps_afterCreate (file : OpenFile) (path : FsPath) (mode : UInt32) : Keeps P (do
    let fh ← addOpenFile file
    match ← attempt (statPath pol env path) with
    | .ok (_, attr) => pure (Reply.created attr fh)
    | .error _ => do
      let ino ← getOrInsert path
      pure (Reply.created (newAttr env ino .regularFile mode) fh)) := by
  apply Keeps.bind (keeps_addOpenFile ht file)
  intro fh
  apply Keeps.bind (keeps_statPath pol env hs ht path).attempt
  intro result
  cases result with
  | ok r => exact Keeps.ret
  | error err => exact Keeps.bind (keeps_getOrInsert ht path) fun _ => Keeps.ret

end Tables

/-! ## §5. Carrying out the decisions. -/

section Executor

/-- An open without `create` changes nothing. -/
theorem keeps_openHost {opts : OpenOptions} {path : FsPath} (hopts : opts.create = false) :
    Keeps P (openHost env opts path) := by
  apply Keeps.bind _ fun _ => Keeps.ret
  intro w hw
  cases hres : w.host.openFile env.cred opts path with
  | error errno =>
    rw [onHost_error hres]
    exact hw
  | ok r =>
    obtain ⟨ino, fs'⟩ := r
    obtain ⟨rfl, -⟩ := FileSystem.openFile_existing hopts hres
    rw [onHost_ok hres]
    exact hw

section Objects

variable (ho : Objects P) {path : FsPath} {md : FileMetadata} (hf : FileMessages P env path md)

include ho hf

theorem keeps_executeOpen (hs : Steady P) (decision : OpenDecision) (flags : OpenFlags) :
    Keeps P (executeOpen env decision path flags md) := by
  cases decision with
  | notFound => exact Keeps.fail
  | error => exact Keeps.fail
  | openReal => exact Keeps.bind (keeps_openHost env rfl) fun _ => Keeps.ret
  | openObject id needsEnsure copyUp deleteWhiteout =>
    apply Keeps.bind (keeps_objectForOpen env hs hf id needsEnsure copyUp)
    intro object
    apply Keeps.bind (Keeps.onlyIf (keeps_copyToObject ho path _).ignore)
    intro _
    apply Keeps.bind (Keeps.onlyIf hf.clear.ignore)
    intro _
    exact Keeps.bind (keeps_openObject ho _ _) fun _ => Keeps.ret

theorem keeps_createObject (mode : UInt32) (flags : OpenFlags) :
    Keeps P (executeCreate env .createObject path mode flags md) := by
  apply Keeps.bind hf.ensure
  intro object
  apply Keeps.bind hf.clear.ignore
  exact fun _ => Keeps.bind (keeps_openObject ho _ _) fun _ => Keeps.ret

end Objects

section Entries

variable (he : Edits P)

include he

theorem keeps_edit {α : Type} (req : Request) (take : Response → Option α)
    (hreq : edits req) : Keeps P (call env req take) :=
  Keeps.bind (ensures_sendRequest env he.faults
    (fun w hw => he.dispatch w _ req hreq hw) fun _ h => h) fun _ => keeps_take

theorem keeps_whiteout (path : FsPath) : Keeps P (executeUnlink env .whiteout path) :=
  Keeps.bind (keeps_edit env he _ _ (by trivial)).ignore fun _ => keeps_edit env he _ _ (by trivial)

theorem keeps_whiteoutRecursive (path : FsPath) (descendants : List FsPath) :
    Keeps P (executeRmdir env .whiteoutRecursive path descendants) :=
  Keeps.bind (keeps_edit env he _ _ (by trivial)).ignore fun _ => Keeps.bind (keeps_edit env he _ _ (by trivial))
    fun _ => Keeps.forEach fun _ => (keeps_edit env he _ _ (by trivial)).ignore

theorem keeps_renameFuse {decision : RenameDecision} (hd : decision ≠ .renameReal)
    (src dst : FsPath) : Keeps P (executeRename env decision src dst) := by
  cases decision with
  | renameReal => exact absurd rfl hd
  | renameFuseFileOrSymlink | renameFuseTree =>
    exact Keeps.bind (keeps_edit env he _ _ (by trivial)) fun _ => (keeps_edit env he _ _ (by trivial)).ignore

theorem keeps_symlinkFuse {accessMode : AccessMode} (ha : accessMode ≠ .passthrough)
    (path : FsPath) (target : Bytes) (md : FileMetadata) :
    Keeps P (executeSymlink env accessMode path target md) := by
  cases accessMode with
  | passthrough => exact absurd rfl ha
  | fuseOnly | copyOnWrite =>
    exact Keeps.bind (keeps_edit env he _ _ (by trivial)) fun _ => (keeps_edit env he _ _ (by trivial)).ignore

theorem keeps_createDaemon (path : FsPath) (mode : UInt32) :
    Keeps P (executeMkdir env .createDaemon path mode) :=
  Keeps.bind (keeps_edit env he _ _ (by trivial)) fun _ => (keeps_edit env he _ _ (by trivial)).ignore

end Entries

theorem keeps_executeReadlink (hs : Steady P) (decision : ReadlinkDecision) (path : FsPath) :
    Keeps P (executeReadlink env decision path) := by
  cases decision with
  | useFuse => exact Keeps.bind (keeps_ask env hs _ _ (by trivial)) fun _ => Keeps.ret
  | useReal =>
    unfold executeReadlink
    exact keeps_readHost _
  | notFound => exact Keeps.fail

theorem keeps_readAt (fd : Fd) (offset len : Nat) : Keeps P (fd.readAt offset len) := by
  unfold Fd.readAt
  cases fd.backing with
  | host ino => exact keeps_readHost _
  | object path =>
    apply keeps_onObjects_same
    intro objects a objects' h
    cases hlook : objects.lookup path with
    | none =>
      simp only [hlook] at h
      cases h
    | some data =>
      simp only [hlook] at h
      cases h
      rfl

end Executor

/-! ## §6. Requests that make no host call. -/

section ReadOnly

variable (hs : Steady P) (ht : Tables P)

include hs

theorem keeps_readlink (ino : UInt64) : Keeps P (readlink pol env ino) := by
  apply Keeps.bind (keeps_pathOf ino)
  intro path
  apply Keeps.bind (keeps_connectDaemon hs)
  intro _
  apply Keeps.bind (keeps_loadReadlinkState pol env hs path)
  exact fun state => Keeps.bind (keeps_executeReadlink env hs _ path) fun _ => Keeps.ret

theorem keeps_read (ino fh : UInt64) (offset size : Nat) : Keeps P (read ino fh offset size) := by
  apply Keeps.bind (keeps_connectDaemon hs)
  intro _
  apply Keeps.bind (keeps_pathOf ino)
  intro _
  apply Keeps.bind (keeps_openFileOf fh)
  exact fun file => Keeps.bind (keeps_readAt _ _ _) fun _ => Keeps.ret

theorem keeps_flushToDaemon (fh : UInt64) : Keeps P (flushToDaemon fh) :=
  Keeps.bind (keeps_connectDaemon hs) fun _ => Keeps.bind (keeps_openFileOf fh) fun _ => Keeps.ret

include ht

theorem keeps_readdir (ino : UInt64) (offset capacity : Nat) :
    Keeps P (readdir pol env ino offset capacity) := by
  apply Keeps.bind (keeps_pathOf ino)
  intro path
  apply Keeps.bind (keeps_connectDaemon hs)
  intro _
  apply Keeps.bind (keeps_loadReaddirState pol env hs path)
  intro state
  cases validateReaddirDecision state (decideReaddir state) with
  | error err => exact Keeps.fail
  | ok _ =>
    apply Keeps.bind (keeps_getOrInsert ht _)
    exact fun _ => Keeps.bind (keeps_childEntries ht _) fun _ => Keeps.ret

theorem keeps_release (fh : UInt64) (flush : Bool) : Keeps P (release fh flush) :=
  Keeps.bind (Keeps.onlyIf (keeps_connectDaemon hs))
    fun _ => Keeps.bind (keeps_removeOpenFile ht fh) fun _ => Keeps.ret

/-- What `open` does once it has the path. -/
theorem keeps_openPath (ho : Objects P) (path : FsPath) (flags : OpenFlags) {md : FileMetadata}
    (hf : FileMessages P env path md) : Keeps P (do
      reqStart pol env "open" path
      connectDaemon
      let state ← loadOpenState pol env path flags.needWrite flags.trunc
      let file ← executeOpen env (decideOpen state) path flags md
      let fh ← addOpenFile file
      pure (Reply.opened fh)) := by
  apply Keeps.bind (keeps_reqStart pol env hs _ path)
  intro _
  apply Keeps.bind (keeps_connectDaemon hs)
  intro _
  apply Keeps.bind (keeps_loadOpenState pol env hs path _ _)
  intro state
  apply Keeps.bind (keeps_executeOpen env ho hf hs _ flags)
  exact fun file => Keeps.bind (keeps_addOpenFile ht file) fun _ => Keeps.ret

omit hs in
theorem keeps_open (hm : Messages P) (ino : UInt64) (flags : OpenFlags) :
    Keeps P («open» pol env ino flags) :=
  Keeps.bind (keeps_pathOf ino) fun path =>
    keeps_openPath pol env hm.steady ht hm.objects path flags
      (hm.file env path (typeBits_regular 0 0o644 _ _ _))

end ReadOnly

/-! ## §7. Before the first change. -/

/-- Nothing has happened yet, except that messages may have gone wrong. -/
def Unserved (w₀ w : World) : Prop := ∃ faults, w = { w₀ with faults }

theorem steady_unserved (w₀ : World) : Steady (Unserved w₀) := by
  rintro w faults ⟨_, rfl⟩
  exact ⟨faults, rfl⟩

section Unserved

variable {w₀ : World} {α β : Type} {Q : β → World → Prop} {E : World → Prop}
  (hE : ∀ w, Unserved w₀ w → E w)

include hE

/-- Go on from `w₀` after steps that have changed nothing. -/
theorem Ensures.unserved {m : FuseM α} {k : α → FuseM β} (hm : Keeps (Unserved w₀) m)
    (hk : ∀ a, Ensures (Unserved w₀) (k a) Q E) : Ensures (Unserved w₀) (m >>= k) Q E :=
  Ensures.after hm hE hk

theorem unserved_pathOf {ino : UInt64} {k : FsPath → FuseM β}
    (hk : ∀ path, w₀.inodes.getPath ino = some path → Ensures (Unserved w₀) (k path) Q E) :
    Ensures (Unserved w₀) (pathOf ino >>= k) Q E := by
  apply Ensures.bind (Q := fun path w => Unserved w₀ w ∧ w₀.inodes.getPath ino = some path)
  · intro w hw
    have hinodes : w.inodes = w₀.inodes := by
      obtain ⟨faults, rfl⟩ := hw
      rfl
    unfold pathOf
    rw [hinodes]
    cases w₀.inodes.getPath ino with
    | none => exact hE w hw
    | some path => exact ⟨hw, rfl⟩
  · exact fun path => Ensures.of_fact (hk path)

theorem unserved_openFileOf {fh : UInt64} {k : OpenFile → FuseM β}
    (hk : ∀ file, w₀.openFiles.lookup fh = some file → Ensures (Unserved w₀) (k file) Q E) :
    Ensures (Unserved w₀) (openFileOf fh >>= k) Q E := by
  apply Ensures.bind (Q := fun file w => Unserved w₀ w ∧ w₀.openFiles.lookup fh = some file)
  · intro w hw
    have hfiles : w.openFiles = w₀.openFiles := by
      obtain ⟨faults, rfl⟩ := hw
      rfl
    unfold openFileOf
    rw [hfiles]
    cases w₀.openFiles.lookup fh with
    | none => exact hE w hw
    | some file => exact ⟨hw, rfl⟩
  · exact fun file => Ensures.of_fact (hk file)

omit hE in
theorem unserved_peekHost {f : FileSystem → α} {k : α → FuseM β}
    (hk : Ensures (Unserved w₀) (k (f w₀.host)) Q E) :
    Ensures (Unserved w₀) (peekHost f >>= k) Q E := by
  intro w hw
  have hhost : w.host = w₀.host := by
    obtain ⟨faults, rfl⟩ := hw
    rfl
  rw [run_bind_ok (peekHost_eq f w), hhost]
  exact hk w hw

/-- The daemon answers with the entry, or not at all. -/
theorem unserved_getEntry {path : FsPath} {k : Option FuseEntry → FuseM β}
    (hk : Ensures (Unserved w₀) (k (w₀.daemon.state.fuseMap.lookup path)) Q E) :
    Ensures (Unserved w₀) (Client.getEntry env path >>= k) Q E := by
  apply Ensures.bind (Q := fun entry w => Unserved w₀ w ∧
    entry = w₀.daemon.state.fuseMap.lookup path)
  · apply ensures_call env (steady_unserved w₀)
    · rintro w a ⟨faults, rfl⟩ ha
      exact ⟨⟨faults, rfl⟩, (Option.some.inj ha).symm⟩
    · exact hE
    · exact hE
  · intro entry
    apply Ensures.of_fact
    intro hentry
    rw [hentry]
    exact hk

end Unserved

/-! ## §8. Messages that go wrong. -/

/-- The fault of the `i`-th message of a request; connecting comes first. -/
def Env.fault (env : Env) (i : Nat) : Option RpcFault := env.faults[i]?.join

theorem Env.fault_zero (env : Env) : env.fault 0 = env.faults.head?.join := by
  unfold fault
  rw [List.head?_eq_getElem?]

/-- The daemon gets to see a message with this fault. -/
def reaches : Option RpcFault → Bool
  | some (.unsent _) => false
  | _ => true

section Faults

variable {env : Env} {w : World}

theorem run_nextFault (w : World) :
    nextFault w = .ok w.faults.head?.join { w with faults := w.faults.tail } := rfl

theorem run_dispatchNow (req : Request) (w : World) : dispatchNow env req w
    = .ok (dispatch (env.dispatchEnv w.host) w.daemon req).1
      { w with daemon := (dispatch (env.dispatchEnv w.host) w.daemon req).2 } := rfl

/-- A message without a fault is served and answered. -/
theorem sendRequest_arrives (req : Request) (h : w.faults.head?.join = none) :
    sendRequest env req w = .ok (dispatch (env.dispatchEnv w.host) w.daemon req).1 { w with
      faults := w.faults.tail
      daemon := (dispatch (env.dispatchEnv w.host) w.daemon req).2 } := by
  unfold sendRequest
  rw [run_bind_ok (run_nextFault w), h]
  rfl

variable (env) in
/-- A message with a fault fails, served or not. -/
theorem sendRequest_fails (req : Request) {fault : RpcFault}
    (h : w.faults.head?.join = some fault) : ∃ err, sendRequest env req w
      = .error (.syncingClient err) { w with
        faults := w.faults.tail
        daemon := if reaches (some fault) then (dispatch (env.dispatchEnv w.host) w.daemon req).2
          else w.daemon } := by
  unfold sendRequest
  rw [run_bind_ok (run_nextFault w), h]
  cases fault with
  | unsent err => exact ⟨err, rfl⟩
  | lost err => exact ⟨err, run_bind_ok (run_dispatchNow req { w with faults := w.faults.tail })⟩

/-- Where a call ends: the daemon has served the message if it arrived. -/
theorem endState_faulty {α : Type} (req : Request) (take : Response → Option α) :
    endState (call env req take w) = { w with
      faults := w.faults.tail
      daemon := if reaches w.faults.head?.join
        then (dispatch (env.dispatchEnv w.host) w.daemon req).2 else w.daemon } := by
  unfold call
  cases hf : w.faults.head?.join with
  | none =>
    rw [run_bind_ok (sendRequest_arrives req hf)]
    exact (keeps_take (P := fun v => v = _)).endState rfl
  | some fault =>
    obtain ⟨err, hsend⟩ := sendRequest_fails env req hf
    rw [run_bind_error hsend]
    rfl

/-- A call returns when it meets no fault and finds its value in the reply. -/
theorem call_eq_ok {α : Type} {req : Request} {take : Response → Option α} {a : α} {w' : World} :
    call env req take w = .ok a w' ↔ w.faults.head?.join = none ∧
      take (dispatch (env.dispatchEnv w.host) w.daemon req).1 = some a ∧
      w' = { w with daemon := (dispatch (env.dispatchEnv w.host) w.daemon req).2
                    faults := w.faults.tail } := by
  unfold call
  cases hf : w.faults.head?.join with
  | none =>
    rw [run_bind_ok (sendRequest_arrives req hf)]
    cases htake : take (dispatch (env.dispatchEnv w.host) w.daemon req).1 with
    | some b =>
      constructor
      · intro h
        cases h
        exact ⟨rfl, rfl, rfl⟩
      · rintro ⟨-, hb, rfl⟩
        cases hb
        rfl
    | none =>
      generalize (dispatch (env.dispatchEnv w.host) w.daemon req).1 = response
      constructor
      · intro h
        cases response <;> cases h
      · rintro ⟨-, h, -⟩
        cases h
  | some fault =>
    obtain ⟨err, hsend⟩ := sendRequest_fails env req hf
    rw [run_bind_error hsend]
    constructor
    · intro h
      cases h
    · rintro ⟨h, -⟩
      cases h

theorem connectDaemon_arrives (h : w.faults.head?.join = none) :
    connectDaemon w = .ok () { w with faults := w.faults.tail } := by
  unfold connectDaemon
  rw [run_bind_ok (run_nextFault w), h]
  rfl

theorem connectDaemon_fails {fault : RpcFault} (h : w.faults.head?.join = some fault) :
    ∃ err, connectDaemon w = .error err { w with faults := w.faults.tail } := by
  unfold connectDaemon
  rw [run_bind_ok (run_nextFault w), h]
  cases fault with
  | unsent err => exact ⟨_, rfl⟩
  | lost err => exact ⟨_, rfl⟩

theorem connectDaemon_eq_ok {u : Unit} {w' : World} : connectDaemon w = .ok u w' ↔
    w.faults.head?.join = none ∧ w' = { w with faults := w.faults.tail } := by
  cases hf : w.faults.head?.join with
  | none =>
    rw [connectDaemon_arrives hf]
    constructor
    · intro h
      cases h
      exact ⟨rfl, rfl⟩
    · rintro ⟨-, rfl⟩
      rfl
  | some fault =>
    obtain ⟨err, hrun⟩ := connectDaemon_fails hf
    rw [hrun]
    constructor
    · intro h
      cases h
    · rintro ⟨h, -⟩
      cases h

/-- A reply that is no error comes from a handler that returned. -/
theorem handle_of_serveFuse {pol : Policy} {req : FuseRequest} {reply : Reply}
    (h : (serveFuse pol env w req).1 = reply) (hne : ∀ errno, reply ≠ .error errno) :
    handle pol env req { w with faults := env.faults }
      = .ok reply (serveFuse pol env w req).2 := by
  unfold serveFuse at h ⊢
  cases hres : handle pol env req { w with faults := env.faults } with
  | ok reply' w' =>
    rw [hres] at h
    rw [show reply' = reply from h]
  | error err w' =>
    rw [hres] at h
    exact absurd h.symm (hne _)

end Faults

end Cas.Fuse
