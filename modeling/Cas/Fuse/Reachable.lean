/-
  Cas.Fuse.Reachable — the worlds that FUSE requests lead to, and what
  holds of the daemon in all of them.

  A sandbox is mounted over some host with an empty daemon, serves
  requests, and may be mounted again over the store that earlier sessions
  left.  An assertion about the daemon that every message keeps holds in
  every reachable world (`Reachable.daemon_invariant`).
-/
import Cas.Fuse.Frames
import Cas.Syncing.Coherence
import Cas.Syncing.Integrity

namespace Cas.Fuse

open Cas.Lib Cas.Host Cas.Syncing

/-! ## §1. A whole request. -/

section Handle

variable {P : World → Prop} (pol : Policy) (env : Env)
  (hm : Messages P) (ht : Tables P) (hh : Hosts P)

section Host

include hh

theorem keeps_onHost {α : Type} (f : FileSystem → Except Errno (α × FileSystem)) :
    Keeps P (onHost f) := by
  intro w hw
  cases hres : f w.host with
  | error errno =>
    rw [onHost_error hres]
    exact hw
  | ok r =>
    rw [onHost_ok hres]
    exact hh w r.2 hw

theorem keeps_changeHost (f : FileSystem → Except Errno FileSystem) : Keeps P (changeHost f) :=
  keeps_onHost hh _

theorem keeps_setattrReal (path : FsPath) (mode uid gid : Option UInt32) (size : Option UInt64) :
    Keeps P (setattrReal env path mode uid gid size) :=
  Keeps.bind (Keeps.forSome fun _ => Keeps.bind (keeps_onHost hh _) fun _ => keeps_changeHost hh _)
    fun _ => Keeps.bind (Keeps.forSome fun _ => (keeps_changeHost hh _).ignore)
      fun _ => Keeps.onlyIf (keeps_changeHost hh _).ignore

/-- What a `setattr` on a handle does after `set_len`. -/
theorem keeps_setattrPerm (fd : Fd) (mode uid gid : Option UInt32) : Keeps P (do
    forSome mode fun m => ignore (fd.setPermissions (m &&& 0o7777))
    onlyIf (mode.isSome || uid.isSome || gid.isSome) (ignore (fd.chown uid gid))) := by
  apply Keeps.bind
  · apply Keeps.forSome
    intro m
    apply Keeps.ignore
    unfold Fd.setPermissions
    cases fd.backing with
    | host ino => exact keeps_changeHost hh _
    | object path => exact Keeps.ret
  · intro _
    apply Keeps.onlyIf
    apply Keeps.ignore
    unfold Fd.chown
    cases fd.backing with
    | host ino => exact keeps_changeHost hh _
    | object path => exact Keeps.ret

section Entries

variable (he : Edits P)

include he

theorem keeps_executeUnlink (decision : UnlinkDecision) (path : FsPath) :
    Keeps P (executeUnlink env decision path) := by
  cases decision with
  | removeReal => exact keeps_changeHost hh _
  | whiteout => exact keeps_whiteout env he path

theorem keeps_executeRmdir (decision : RmdirDecision) (path : FsPath) (descendants : List FsPath) :
    Keeps P (executeRmdir env decision path descendants) := by
  cases decision with
  | removeReal => exact keeps_changeHost hh _
  | whiteoutRecursive => exact keeps_whiteoutRecursive env he path descendants

theorem keeps_executeRename (decision : RenameDecision) (src dst : FsPath) :
    Keeps P (executeRename env decision src dst) := by
  by_cases hd : decision = .renameReal
  · subst hd
    exact keeps_changeHost hh _
  · exact keeps_renameFuse env he hd src dst

theorem keeps_executeSymlink (accessMode : AccessMode) (path : FsPath) (target : Bytes)
    (md : FileMetadata) : Keeps P (executeSymlink env accessMode path target md) := by
  by_cases ha : accessMode = .passthrough
  · subst ha
    exact keeps_changeHost hh _
  · exact keeps_symlinkFuse env he ha path target md

theorem keeps_executeMkdir (decision : MkdirDecision) (path : FsPath) (mode : UInt32) :
    Keeps P (executeMkdir env decision path mode) := by
  cases decision with
  | createReal => exact Keeps.bind (keeps_changeHost hh _) fun _ => keeps_changeHost hh _
  | createDaemon => exact keeps_createDaemon env he path mode

end Entries

section Objects

variable (ho : Objects P)

include ho

theorem keeps_writeAt (fd : Fd) (offset : Nat) (data : Bytes) : Keeps P (fd.writeAt offset data) := by
  unfold Fd.writeAt
  split
  · exact Keeps.ret
  · apply Keeps.bind _ fun _ => Keeps.ret
    unfold Fd.write
    split
    · exact Keeps.fail
    · cases fd.backing with
      | host ino => exact keeps_changeHost hh _
      | object path => exact keeps_onObjects ho _

theorem keeps_setattrOpenHandle (fd : Fd) (mode uid gid : Option UInt32) (size : Option UInt64) :
    Keeps P (setattrOpenHandle fd mode uid gid size) := by
  apply Keeps.bind
  · apply Keeps.forSome
    intro sz
    unfold Fd.setLen
    split
    · exact Keeps.fail
    · cases fd.backing with
      | host ino => exact keeps_changeHost hh _
      | object path => exact keeps_onObjects ho _
  · exact fun _ => keeps_setattrPerm hh fd mode uid gid

theorem keeps_applySetattr (decision : SetattrDecision) {path : FsPath} (file : Option OpenFile)
    {mode uid gid : Option UInt32} {size : Option UInt64}
    (hmeta : Keeps P (setattrMeta env path mode uid gid size)) :
    Keeps P (applySetattr env decision path file mode uid gid size) := by
  cases decision with
  | updateOpenHandle =>
    exact Keeps.forSome fun file => keeps_setattrOpenHandle hh ho file.file mode uid gid size
  | updateRealFs => exact keeps_setattrReal env hh path mode uid gid size
  | updateDaemonMeta => exact hmeta

theorem keeps_executeCreate (decision : CreateDecision) {path : FsPath} (mode : UInt32)
    (flags : OpenFlags) {md : FileMetadata} (hf : FileMessages P env path md) :
    Keeps P (executeCreate env decision path mode flags md) := by
  cases decision with
  | createReal =>
    exact Keeps.bind (Keeps.bind (keeps_onHost hh _) fun _ => Keeps.ret) fun _ => Keeps.ret
  | createObject => exact keeps_createObject env ho hf mode flags

variable (hs : Steady P)

include hs

theorem keeps_write (ino fh : UInt64) (offset : Nat) (data : Bytes) :
    Keeps P (write ino fh offset data) := by
  apply Keeps.bind (keeps_connectDaemon hs)
  intro _
  apply Keeps.bind (keeps_pathOf ino)
  intro _
  apply Keeps.bind (keeps_openFileOf fh)
  exact fun file => Keeps.bind (keeps_writeAt hh ho file.file offset data) fun _ => Keeps.ret

theorem keeps_copyFileRange (inoIn fhIn : UInt64) (offsetIn : Nat) (inoOut fhOut : UInt64)
    (offsetOut len : Nat) :
    Keeps P (copyFileRange inoIn fhIn offsetIn inoOut fhOut offsetOut len) := by
  apply Keeps.bind (keeps_pathOf inoIn)
  intro _
  apply Keeps.bind (keeps_pathOf inoOut)
  intro _
  apply Keeps.bind (keeps_connectDaemon hs)
  intro _
  apply Keeps.bind (keeps_openFileOf fhIn)
  intro input
  apply Keeps.bind (keeps_readAt input.file offsetIn len)
  intro data
  apply Keeps.bind (keeps_openFileOf fhOut)
  exact fun output => Keeps.bind (keeps_writeAt hh ho output.file offsetOut data)
    fun _ => Keeps.ret

include ht

theorem keeps_setattr {mode uid gid : Option UInt32} {size : Option UInt64}
    (hmeta : ∀ path, Keeps P (setattrMeta env path mode uid gid size)) (ino : UInt64)
    (fh : Option UInt64) : Keeps P (setattr pol env ino mode uid gid size fh) := by
  apply Keeps.bind (keeps_pathOf ino)
  intro path
  apply Keeps.bind (keeps_connectDaemon hs)
  intro _
  apply Keeps.bind (fun _ hw => hw)
  intro file
  exact Keeps.bind (keeps_applySetattr env hh ho _ file (hmeta path))
    fun _ => keeps_attrReply pol env hs ht path

end Objects

end Host

/-- The requests that may make an object or change one. -/
def touchesObjects : FuseRequest → Prop
  | .setattr _ _ _ _ _ _ | .open _ _ | .create _ _ _ _ | .write _ _ _ _
  | .copyFileRange _ _ _ _ _ _ _ => True
  | _ => False

/-- The requests that only read. -/
def readsOnly : FuseRequest → Prop
  | .lookup _ _ | .getattr _ | .readlink _ | .link _ _ _ | .read _ _ _ _ | .flush _ | .fsync _
  | .release _ _ | .opendir _ | .readdir _ _ _ | .access _ => True
  | _ => False

include ht

theorem keeps_handle_reads (hs : Steady P) {req : FuseRequest} (hreq : readsOnly req) :
    Keeps P (handle pol env req) := by
  cases req with
  | lookup parent name =>
    exact Keeps.bind (keeps_getPath parent name) fun path => keeps_entryReply pol env hs ht path
  | getattr ino =>
    exact Keeps.bind (keeps_pathOf ino) fun path => keeps_attrReply pol env hs ht path
  | readlink ino => exact keeps_readlink pol env hs ino
  | link ino newparent newname => exact Keeps.fail
  | read ino fh offset size => exact keeps_read hs ino fh offset size
  | flush fh | fsync fh => exact keeps_flushToDaemon hs fh
  | release fh flush => exact keeps_release hs ht fh flush
  | opendir ino | access ino => exact Keeps.bind (keeps_pathOf ino) fun _ => Keeps.ret
  | readdir ino offset capacity => exact keeps_readdir pol env hs ht ino offset capacity
  | _ => exact hreq.elim

include hh

/-- A request that has nothing to do with objects. -/
theorem keeps_handle_entries (he : Edits P) {req : FuseRequest} (hreq : ¬ touchesObjects req) :
    Keeps P (handle pol env req) := by
  have hs : Steady P := he.faults
  have hgetPath : ∀ {parent name} {k : FsPath → FuseM Reply}, (∀ path, Keeps P (k path)) →
      Keeps P (getPath parent name >>= fun path => do connectDaemon; k path) :=
    fun hk => Keeps.bind (keeps_getPath _ _) fun path =>
      Keeps.bind (keeps_connectDaemon hs) fun _ => hk path
  cases req with
  | mkdir parent name mode =>
    exact hgetPath fun path => Keeps.bind (keeps_executeMkdir env hh he _ path mode)
      fun _ => keeps_afterMkdir pol env hs ht path mode
  | unlink parent name =>
    exact hgetPath fun path => Keeps.bind (keeps_executeUnlink env hh he _ path) fun _ => Keeps.ret
  | rmdir parent name =>
    exact hgetPath fun path => Keeps.bind (keeps_peekHost _)
      fun descendants => Keeps.bind (keeps_executeRmdir env hh he _ path descendants)
        fun _ => Keeps.ret
  | rename parent name newparent newname =>
    apply Keeps.bind (keeps_getPath parent name)
    intro src
    exact hgetPath fun dst => Keeps.bind (keeps_loadRenameState pol env hs src dst)
      fun state => Keeps.bind (keeps_executeRename env hh he _ src dst) fun _ => Keeps.ret
  | symlink parent name target =>
    exact hgetPath fun path => Keeps.bind (keeps_executeSymlink env hh he _ path target _)
      fun _ => keeps_entryReply pol env hs ht path
  | setattr | «open» | create | write | copyFileRange => exact absurd trivial hreq
  | _ => exact keeps_handle_reads pol env ht hs trivial

include hm

/-- **A request** keeps what messages, tables and host calls keep. -/
theorem keeps_handle (req : FuseRequest) : Keeps P (handle pol env req) := by
  cases req with
  | setattr ino mode uid gid size fh =>
    exact keeps_setattr pol env ht hh hm.objects hm.steady
      (fun path => keeps_setattrMeta env hm path mode uid gid size) ino fh
  | «open» ino flags => exact keeps_open pol env ht hm ino flags
  | create parent name mode flags =>
    apply Keeps.bind (keeps_getPath parent name)
    intro path
    apply Keeps.bind (keeps_connectDaemon hm.steady)
    intro _
    exact Keeps.bind (keeps_executeCreate env hh hm.objects _ mode flags
      (hm.file env path (typeBits_regular 0 mode _ _ _)))
      fun file => keeps_afterCreate pol env hm.steady ht file path mode
  | write ino fh offset data => exact keeps_write hh hm.objects hm.steady ino fh offset data
  | copyFileRange inoIn fhIn offsetIn inoOut fhOut offsetOut len =>
    exact keeps_copyFileRange hh hm.objects hm.steady inoIn fhIn offsetIn inoOut fhOut offsetOut len
  | _ => exact keeps_handle_entries pol env ht hh hm.edits id

/-- The reply for the outcome of a handler. -/
def replyOf : Except Error Reply → Reply
  | .ok reply => reply
  | .error err => .error (errToErrno err)

omit hm ht hh in
/-- The world after a request, whether it was carried out or failed. -/
theorem serveFuse_world (w : World) (req : FuseRequest) : (serveFuse pol env w req).2
    = endState (handle pol env req { w with faults := env.faults }) := by
  unfold serveFuse
  cases handle pol env req { w with faults := env.faults } <;> rfl

omit hm ht hh in
theorem serveFuse_ok {pol : Policy} {env : Env} {w w' : World} (req : FuseRequest) {reply : Reply}
    (h : handle pol env req { w with faults := env.faults } = .ok reply w') :
    serveFuse pol env w req = (reply, w') := by
  unfold serveFuse
  rw [h]

omit hm ht hh in
theorem serveFuse_error {pol : Policy} {env : Env} {w w' : World} (req : FuseRequest) {err : Error}
    (h : handle pol env req { w with faults := env.faults } = .error err w') :
    serveFuse pol env w req = (.error (errToErrno err), w') := by
  unfold serveFuse
  rw [h]

omit hm ht hh in
theorem serveFuse_reply (pol : Policy) (env : Env) (w : World) (req : FuseRequest) :
    (serveFuse pol env w req).1
      = replyOf (outcome (handle pol env req { w with faults := env.faults })) := by
  unfold serveFuse
  cases handle pol env req { w with faults := env.faults } <;> rfl

theorem keeps_serveFuse (w : World) (req : FuseRequest) (hw : P w) :
    P (serveFuse pol env w req).2 := by
  rw [serveFuse_world]
  exact (keeps_handle pol env hm ht hh req).endState (hm.faults w env.faults hw)

end Handle

/-! ## §2. Reachable worlds. -/

/-- The worlds that sessions of a sandbox pass through. -/
inductive Reachable (pol : Policy) : World → Prop
  | mount (host : FileSystem) (shmName : String) :
    Reachable pol (World.mount host (Server.init shmName))
  | serve {w : World} (h : Reachable pol w) (env : Env) (req : FuseRequest) :
    Reachable pol (serveFuse pol env w req).2
  | remount {w : World} (h : Reachable pol w) : Reachable pol (World.mount w.host w.daemon)

/-- What every message keeps holds of the daemon in every reachable world. -/
theorem Reachable.daemon_invariant {pol : Policy} {P : World → Prop} (hd : DaemonOnly P)
    (hm : Messages P) (hinit : ∀ host shmName, P (World.mount host (Server.init shmName)))
    {w : World} (hw : Reachable pol w) : P w := by
  induction hw with
  | mount host shmName => exact hinit host shmName
  | serve h env req ih => exact keeps_serveFuse pol env hm hd.tables hd.hosts _ req ih
  | @remount w h ih => exact hd w (World.mount w.host w.daemon) rfl ih

/-! ## §3. The store in every reachable world. -/

/-- A well-shaped entry whose mode agrees with its type. -/
structure GoodEntry (e : FuseEntry) : Prop where
  shape : e.WellShaped
  regular : e.entryType = .file → typeBits e.metadata = S_IFREG

theorem GoodEntry.ofObject {md : FileMetadata} (hmd : typeBits md = S_IFREG) (id : UInt64) :
    GoodEntry (.ofObject md id) := ⟨wellShaped_ofObject md id, fun _ => hmd⟩

theorem GoodEntry.ofDir (md : FileMetadata) : GoodEntry (.ofDir md) :=
  ⟨wellShaped_ofDir md, fun h => by cases h⟩

theorem GoodEntry.ofSymlink (target : Bytes) (md : FileMetadata) :
    GoodEntry (.ofSymlink target md) := ⟨wellShaped_ofSymlink target md, fun h => by cases h⟩

theorem GoodEntry.whiteout : GoodEntry .whiteout := ⟨wellShaped_whiteout, fun h => by cases h⟩

def GoodMap (m : FuseMap) : Prop := ∀ p e, m.lookup p = some e → GoodEntry e

/-- Every entry of the map satisfies `Q`. -/
def EveryEntry (Q : FuseEntry → Prop) (m : FuseMap) : Prop := ∀ p e, m.lookup p = some e → Q e

section EveryEntry

variable {Q : FuseEntry → Prop} {m : FuseMap} (h : EveryEntry Q m)

include h

theorem EveryEntry.insert (path : FsPath) {e : FuseEntry} (he : Q e) :
    EveryEntry Q (m.insert path e) := by
  intro p f hf
  rw [lookup_insert_ite] at hf
  split at hf
  · cases hf
    exact he
  · exact h p f hf

theorem EveryEntry.erase (path : FsPath) : EveryEntry Q (m.erase path) := by
  intro p f hf
  rw [lookup_erase_ite] at hf
  split at hf
  · cases hf
  · exact h p f hf

theorem EveryEntry.moveEntry (src dst old : FsPath) :
    EveryEntry Q (ServerState.moveEntry src dst m old) := by
  unfold ServerState.moveEntry
  cases hold : m.lookup old with
  | none => exact h
  | some e => exact (h.erase old).insert _ (h old e hold)

theorem EveryEntry.foldl_moveEntry (src dst : FsPath) (olds : List FsPath) :
    EveryEntry Q (olds.foldl (ServerState.moveEntry src dst) m) := by
  induction olds generalizing m with
  | nil => exact h
  | cons old olds ih => exact ih (h.moveEntry src dst old)

theorem EveryEntry.renameFile {s : Server} (hm : s.state.fuseMap = m) (src dst : FsPath) :
    EveryEntry Q (s.renameFile src dst).2.state.fuseMap := by
  subst hm
  unfold Server.renameFile
  cases he : s.state.fuseMap.lookup src with
  | none => exact h
  | some e => exact (h.erase src).insert dst (h src e he)

theorem EveryEntry.deleteWhiteout {s : Server} (hm : s.state.fuseMap = m) (path : FsPath) :
    EveryEntry Q (s.deleteWhiteout path).2.state.fuseMap := by
  subst hm
  unfold Server.deleteWhiteout
  cases s.state.fuseMap.lookup path with
  | none => exact h
  | some e =>
    by_cases hw : e.entryType = .whiteout
    · simp only [if_pos hw]
      exact h.erase path
    · simp only [if_neg hw]
      exact h

end EveryEntry

/-- Moving and deleting keeps what every entry satisfies, and so does putting entries that satisfy
it. -/
theorem everyEntry_edits {Q : FuseEntry → Prop} {s : Server} (h : EveryEntry Q s.state.fuseMap)
    (hQ : ∀ e : FuseEntry, e.objectId = none → Q e) (denv : DispatchEnv) {req : Request}
    (hreq : edits req) : EveryEntry Q (dispatch denv s req).2.state.fuseMap := by
  cases req with
  | deleteFile path => exact h.erase path
  | renameFile src dst => exact h.renameFile rfl src dst
  | putDir path md => exact h.insert path (hQ _ rfl)
  | putSymlink path target md => exact h.insert path (hQ _ rfl)
  | putWhiteout path => exact h.insert path (hQ _ rfl)
  | deleteWhiteout path => exact h.deleteWhiteout rfl path
  | renameTree src dst => exact h.foldl_moveEntry src dst _
  | _ => exact hreq.elim

theorem goodMap_ensureObject {s : Server} (h : GoodMap s.state.fuseMap) (path : FsPath)
    {md : FileMetadata} (hmd : typeBits md = S_IFREG)
    (alloc : ObjectStore → Except String UInt64 × ObjectStore) :
    GoodMap (s.ensureObject path md alloc).2.state.fuseMap := by
  unfold Server.ensureObject
  cases (s.state.fuseMap.lookup path).bind FuseEntry.reusableObject with
  | some id => exact EveryEntry.insert h path (.ofObject hmd id)
  | none =>
    rcases alloc s.objects with ⟨r, store⟩
    cases r with
    | error err => exact h
    | ok id => exact EveryEntry.insert h path (.ofObject hmd id)

/-- **One message** of a FUSE operation. -/
theorem goodMap_dispatch {s : Server} (h : GoodMap s.state.fuseMap) (denv : DispatchEnv)
    {req : Request} (hreq : sentByFuse req) :
    GoodMap (dispatch denv s req).2.state.fuseMap := by
  cases req with
  | ensureFileObject path md => exact goodMap_ensureObject h path hreq _
  | ensureFileObjectFromReal path md => exact goodMap_ensureObject h path hreq _
  | getObjectPath id =>
    show GoodMap (s.getObjectPath id).2.state.fuseMap
    unfold Server.getObjectPath
    split <;> exact h
  | upsertFileEntry path id md => exact hreq.elim
  | putFileMeta path md => exact hreq.elim
  | getFileMeta path => exact h
  | getEntry path => exact h
  | deleteFile path => exact EveryEntry.erase h path
  | renameFile src dst => exact EveryEntry.renameFile h rfl src dst
  | putDir path md => exact EveryEntry.insert h path (.ofDir md)
  | putSymlink path target md => exact EveryEntry.insert h path (.ofSymlink target md)
  | putWhiteout path => exact EveryEntry.insert h path .whiteout
  | deleteWhiteout path => exact EveryEntry.deleteWhiteout h rfl path
  | readDirAll path => exact h
  | listWhiteoutUnder path => exact hreq.elim
  | renameTree src dst => exact EveryEntry.foldl_moveEntry h src dst _
  | logAccess path operation pid => exact h
  | flush => exact hreq.elim

theorem goodMap_putFileMeta {s : Server} (h : GoodMap s.state.fuseMap) {path : FsPath}
    {e : FuseEntry} {md : FileMetadata} (he : s.state.fuseMap.lookup path = some e)
    (hmd : typeBits md = typeBits e.metadata) :
    GoodMap (s.putFileMeta path md).2.state.fuseMap := by
  unfold Server.putFileMeta
  rw [he]
  have hgood := h path e he
  exact EveryEntry.insert h path ⟨hgood.shape, fun ht => hmd.trans (hgood.regular ht)⟩

/-- What the daemon's state satisfies: the table represents a set and every entry is good. -/
structure GoodStore (s : Server) : Prop where
  table : ∃ S, s.state.TreeRep S
  entries : GoodMap s.state.fuseMap

theorem messages_goodStore : Messages fun w => GoodStore w.daemon where
  faults _ _ h := h
  dispatch w denv req hreq h := by
    obtain ⟨S, hS⟩ := h.table
    obtain ⟨S', hS', -⟩ := keepsKeys_dispatch hS denv req
    exact ⟨⟨S', hS'⟩, goodMap_dispatch h.entries denv hreq⟩
  putMeta w denv path e md he hmd h := by
    obtain ⟨S, hS⟩ := h.table
    obtain ⟨S', hS', -⟩ := keepsKeys_dispatch hS denv (.putFileMeta path md)
    exact ⟨⟨S', hS'⟩, goodMap_putFileMeta h.entries he hmd⟩
  objects _ _ h := ⟨h.table, h.entries⟩

theorem goodStore_init (shmName : String) : GoodStore (Server.init shmName) where
  table := ⟨_, PathTree.rep_new⟩
  entries p e h := by
    have hnone : (Server.init shmName).state.fuseMap.lookup p = none := Finmap.lookup_empty p
    rw [hnone] at h
    cases h

theorem Reachable.goodStore {pol : Policy} {w : World} (hw : Reachable pol w) :
    GoodStore w.daemon := by
  apply hw.daemon_invariant (P := fun w => GoodStore w.daemon) _ messages_goodStore
  · exact fun _ shmName => goodStore_init shmName
  · intro w w' hdaemon h
    show GoodStore w'.daemon
    rw [hdaemon]
    exact h

end Cas.Fuse
