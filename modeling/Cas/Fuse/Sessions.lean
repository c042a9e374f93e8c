/-
  Cas.Fuse.Sessions — sandboxes that run at once, and after one another.

  Every `cas run` of a project has a FUSE daemon of its own, with its own
  inode numbers and file handles; the host and the syncing daemon are
  shared.  A number stands for a path and a handle for a file, and they
  have no other meaning: requests that mean the same, and find the same
  messages failing, get replies that mean the same, whichever sessions
  send them and whenever the syncing daemon stops and another loads what
  it wrote (`sessions_alike`).  A session that lives on after a restart
  has dead connections in its pool; that its next messages fail is what
  it can see of the restart.
-/
import Cas.Fuse.Inodes
import Cas.Fuse.Listing
import Cas.Syncing.Reload

namespace Cas.Fuse

open Cas.Lib Cas.Host Cas.Syncing

/-! ## §1. Two mounts of one project. -/

abbrev OpenFiles := FMap UInt64 OpenFile

/-- The children of a listing do not depend on the order of the rows. -/
theorem children_eq {s s' : Server} (h : Interchangeable s s') (fs : FileSystem) (dir : FsPath) :
    (s.readDirAll dir).foldl addFuseChild (realChildren fs dir)
      = (s'.readDirAll dir).foldl addFuseChild (realChildren fs dir) := by
  obtain ⟨habi, tree, md, data, S, rfl, hrep, hrep'⟩ := h
  apply Finmap.ext_lookup
  intro name
  have hrep' : (⟨{ s.state with pathTree := tree },
    { s.storage with metadataBin := md, dataBin := data }⟩ : Server).state.TreeRep S := hrep'
  rw [lookup_children hrep, lookup_children hrep']
  unfold fuseChild daemonListed
  congr 2
  by_cases hS : dir ++ [name] ∈ S
  · rw [if_pos ((PathTree.contains_iff hrep _).mpr hS),
      if_pos ((PathTree.contains_iff hrep' _).mpr hS)]
  · rw [if_neg fun hc => hS ((PathTree.contains_iff hrep _).mp hc),
      if_neg fun hc => hS ((PathTree.contains_iff hrep' _).mp hc)]

/-- Worlds that share all but the tables of the FUSE daemon, with interchangeable daemons. -/
def Together (N : InodeTable → InodeTable → Prop) (D : OpenFiles → OpenFiles → Prop)
    (w w' : World) : Prop :=
  ∃ daemon inodes openFiles nextFh, w' = { w with daemon, inodes, openFiles, nextFh } ∧
    Interchangeable w.daemon daemon ∧ N w.inodes inodes ∧ D w.openFiles openFiles

/-- No relation is asked for. -/
def Any {α : Type} (_ _ : α) : Prop := True

/-- Tables with numbers for the same paths, as long as their counters have room. -/
def Numbered (given : List ((UInt64 × UInt64) × FsPath)) (t t' : InodeTable) : Prop :=
  (t.Room → t.Counted ∧ ∀ g ∈ given, t.getPath g.1.1 = some g.2) ∧
    (t'.Room → t'.Counted ∧ ∀ g ∈ given, t'.getPath g.1.2 = some g.2)

theorem Numbered.mono {given given' : List ((UInt64 × UInt64) × FsPath)} {t t' : InodeTable}
    (h : Numbered given t t') (hsub : ∀ g ∈ given', g ∈ given) : Numbered given' t t' :=
  ⟨fun hroom => ⟨(h.1 hroom).1, fun g hg => (h.1 hroom).2 g (hsub g hg)⟩,
    fun hroom => ⟨(h.2 hroom).1, fun g hg => (h.2 hroom).2 g (hsub g hg)⟩⟩

theorem Numbered.getOrInsert {given : List ((UInt64 × UInt64) × FsPath)} {t t' : InodeTable}
    (h : Numbered given t t') (path : FsPath) :
    Numbered ((((t.getOrInsert path).1, (t'.getOrInsert path).1), path) :: given)
      (t.getOrInsert path).2 (t'.getOrInsert path).2 := by
  constructor
  · intro hroom
    obtain ⟨hcounted, hgiven⟩ := h.1 (InodeTable.Room.of_getOrInsert hroom)
    obtain ⟨hnew, hold, hpath⟩ := hcounted.getOrInsert path hroom
    exact ⟨hnew, List.forall_mem_cons.mpr ⟨hpath, fun g hg => hold _ _ (hgiven g hg)⟩⟩
  · intro hroom
    obtain ⟨hcounted, hgiven⟩ := h.2 (InodeTable.Room.of_getOrInsert hroom)
    obtain ⟨hnew, hold, hpath⟩ := hcounted.getOrInsert path hroom
    exact ⟨hnew, List.forall_mem_cons.mpr ⟨hpath, fun g hg => hold _ _ (hgiven g hg)⟩⟩

section Primitives

variable {N : InodeTable → InodeTable → Prop} {D : OpenFiles → OpenFiles → Prop} {α : Type}
  (env : Env) {w w' : World}

theorem Together.mono {N' : InodeTable → InodeTable → Prop} {D' : OpenFiles → OpenFiles → Prop}
    (h : Together N D w w') (hN : ∀ t t', N t t' → N' t t') (hD : ∀ f f', D f f' → D' f f') :
    Together N' D' w w' := by
  obtain ⟨daemon, inodes, files, next, rfl, hI, hn, hd⟩ := h
  exact ⟨daemon, inodes, files, next, rfl, hI, hN _ _ hn, hD _ _ hd⟩

theorem together_nextFault : Same (Together N D) nextFault nextFault := by
  intro w w' h
  obtain ⟨daemon, inodes, files, next, rfl, hI, hN, hD⟩ := h
  exact ⟨rfl, daemon, inodes, files, next, rfl, hI, hN, hD⟩

theorem together_connectDaemon : Same (Together N D) connectDaemon connectDaemon := by
  apply Same.bind together_nextFault
  intro fault
  cases fault with
  | none => exact Same.ret
  | some f => cases f <;> exact Same.fail

/-- The requests that interchangeable daemons answer with the same reply: a list comes in the
order of the rows. -/
def Steadfast : Request → Prop
  | .readDirAll _ | .listWhiteoutUnder _ => False
  | .renameTree src dst => Apart src dst ∨ src = dst
  | _ => True

theorem Steadfast.orderly {req : Request} (h : Steadfast req) : Orderly req := by
  cases req with
  | renameTree src dst => exact h
  | _ => trivial

/-- Replies that are lists. -/
def Response.lists : Response → Bool
  | .dirEntries _ | .whiteoutPaths _ => true
  | _ => false

theorem dispatch_lists {req : Request} (hreq : Steadfast req) (denv : DispatchEnv) (s : Server) :
    Response.lists (dispatch denv s req).1 = false := by
  cases req with
  | readDirAll path => exact hreq.elim
  | listWhiteoutUnder path => exact hreq.elim
  | ensureFileObject path md | ensureFileObjectFromReal path md =>
    simp only [dispatch, Server.ensureObject]
    split
    · rfl
    · split <;> rfl
  | getObjectPath id =>
    simp only [dispatch, Server.getObjectPath]
    split <;> rfl
  | putFileMeta path md =>
    simp only [dispatch, Server.putFileMeta]
    split <;> rfl
  | renameFile src dst =>
    simp only [dispatch, Server.renameFile]
    split <;> rfl
  | deleteWhiteout path =>
    simp only [dispatch, Server.deleteWhiteout]
    split
    · split <;> rfl
    · rfl
  | flush =>
    simp only [dispatch, Server.flushRequest]
    split <;> rfl
  | _ => rfl

theorem eq_of_sameResponse {denv : DispatchEnv} {s : Server} {req : Request} (hreq : Steadfast req)
    {r' : Response} (h : SameResponse (dispatch denv s req).1 r') :
    (dispatch denv s req).1 = r' := by
  have hlists := dispatch_lists hreq denv s
  rcases h with h | ⟨es, -, h, -⟩ | ⟨ps, -, h, -⟩
  · exact h
  · rw [h] at hlists
    cases hlists
  · rw [h] at hlists
    cases hlists

/-- Replies of interchangeable daemons. -/
theorem together_sendRequest {req : Request} (hreq : Orderly req) :
    Agree (Together N D) (sendRequest env req) (sendRequest env req)
      (fun r r' w w' => (∃ denv s s', Interchangeable s s' ∧ r = (dispatch denv s req).1 ∧
        r' = (dispatch denv s' req).1) ∧ Together N D w w') (Together N D) := by
  have hnow : Agree (Together N D) (dispatchNow env req) (dispatchNow env req)
      (fun r r' w w' => (∃ denv s s', Interchangeable s s' ∧ r = (dispatch denv s req).1 ∧
        r' = (dispatch denv s' req).1) ∧ Together N D w w') (Together N D) := by
    intro w w' h
    obtain ⟨daemon, inodes, files, next, rfl, hI, hN, hD⟩ := h
    have hdispatch := interchangeable_dispatch hI (env.dispatchEnv w.host) hreq
    exact ⟨⟨_, _, _, hI, rfl, rfl⟩, _, inodes, files, next, rfl, hdispatch.2, hN, hD⟩
  apply Agree.bind_same together_nextFault
  intro fault
  cases fault with
  | none => exact hnow
  | some f =>
    cases f with
    | unsent err => exact Agree.fail fun _ _ h => h
    -- both daemons have served the request before the reply is lost
    | lost err => exact Agree.bind hnow fun _ _ => Agree.fail fun _ _ h => h.2

theorem together_answer {req : Request} (hreq : Steadfast req) :
    Same (Together N D) (sendRequest env req) (sendRequest env req) := by
  refine (together_sendRequest env hreq.orderly).weaken (fun _ _ h => h)
    (fun r r' w w' h => ⟨?_, h.2⟩) fun _ _ h => h
  obtain ⟨denv, s, s', hI, rfl, rfl⟩ := h.1
  exact eq_of_sameResponse hreq (interchangeable_dispatch hI denv hreq.orderly).1

theorem together_call (req : Request) (take : Response → Option α) (hreq : Steadfast req) :
    Same (Together N D) (call env req take) (call env req take) := by
  apply Same.bind (together_answer env hreq)
  intro response
  cases take response with
  | some a => exact Same.ret
  | none => cases response <;> exact Same.fail

/-- `let _ = client.delete_whiteout(path)`. -/
theorem together_clear (path : FsPath) : Same (Together N D)
    (ignore (Client.deleteWhiteout env path)) (ignore (Client.deleteWhiteout env path)) :=
  (together_call env (.deleteWhiteout path) _ trivial).ignore

theorem together_getObjectPath (id : UInt64) :
    Same (Together N D) (Client.getObjectPath env id) (Client.getObjectPath env id) := by
  have hreq : Steadfast (.getObjectPath id) := trivial
  apply Same.bind (together_answer env hreq)
  intro response
  cases response <;> first | exact Same.ret | exact Same.fail

theorem together_peekHost (f : FileSystem → α) :
    Same (Together N D) (peekHost f) (peekHost f) := by
  intro w w' h
  obtain ⟨daemon, inodes, files, next, rfl, hI, hN, hD⟩ := h
  exact ⟨rfl, daemon, inodes, files, next, rfl, hI, hN, hD⟩

theorem together_readHost (f : FileSystem → Except Errno α) :
    Same (Together N D) (readHost f) (readHost f) := by
  intro w w' h
  obtain ⟨daemon, inodes, files, next, rfl, hI, hN, hD⟩ := h
  unfold readHost
  simp only
  cases f w.host <;> exact ⟨rfl, daemon, inodes, files, next, rfl, hI, hN, hD⟩

theorem together_onHost (f : FileSystem → Except Errno (α × FileSystem)) :
    Same (Together N D) (onHost f) (onHost f) := by
  intro w w' h
  obtain ⟨daemon, inodes, files, next, rfl, hI, hN, hD⟩ := h
  unfold onHost
  simp only
  cases f w.host <;> exact ⟨rfl, daemon, inodes, files, next, rfl, hI, hN, hD⟩

theorem together_changeHost (f : FileSystem → Except Errno FileSystem) :
    Same (Together N D) (changeHost f) (changeHost f) := together_onHost _

theorem together_onObjects
    (f : FMap ObjectPath Bytes → Except Errno (α × FMap ObjectPath Bytes)) :
    Same (Together N D) (onObjects f) (onObjects f) := by
  intro w w' h
  obtain ⟨daemon, inodes, files, next, rfl, hI, hN, hD⟩ := h
  obtain ⟨habi, tree, md, data, S, rfl, hrep, hrep'⟩ := hI
  unfold onObjects
  simp only
  cases f w.daemon.storage.objects with
  | error errno =>
    exact ⟨rfl, _, inodes, files, next, rfl, ⟨habi, _, _, _, S, rfl, hrep, hrep'⟩, hN, hD⟩
  | ok r =>
    exact ⟨rfl, _, inodes, files, next, rfl, ⟨habi, _, _, _, S, rfl, hrep, hrep'⟩, hN, hD⟩

/-- Numbers that stand for the same path. -/
theorem together_pathOf {ino ino' : UInt64}
    (hino : ∀ t t', N t t' → t.getPath ino = t'.getPath ino') :
    Same (Together N D) (pathOf ino) (pathOf ino') := by
  intro w w' h
  obtain ⟨daemon, inodes, files, next, rfl, hI, hN, hD⟩ := h
  unfold pathOf
  simp only [← hino _ _ hN]
  cases w.inodes.getPath ino <;> exact ⟨rfl, daemon, inodes, files, next, rfl, hI, hN, hD⟩

/-- The path that both numbers stand for is known from then on. -/
theorem together_pathKnown {ino ino' : UInt64}
    (hino : ∀ t t', N t t' → t.getPath ino = t'.getPath ino') :
    Agree (Together N D) (pathOf ino) (pathOf ino') (fun path path' w w' => path = path' ∧
      Together (fun t t' => N t t' ∧ t.getPath ino = some path ∧ t'.getPath ino' = some path) D
        w w') (Together N D) := by
  intro w w' h
  obtain ⟨daemon, inodes, files, next, rfl, hI, hN, hD⟩ := h
  have hsame := hino _ _ hN
  unfold pathOf
  simp only [← hsame]
  cases hget : w.inodes.getPath ino with
  | none => exact ⟨rfl, daemon, inodes, files, next, rfl, hI, hN, hD⟩
  | some path =>
    exact ⟨rfl, daemon, inodes, files, next, rfl, hI, ⟨hN, hget, hsame.symm.trans hget⟩, hD⟩

theorem together_getPath {ino ino' : UInt64} (name : Component)
    (hino : ∀ t t', N t t' → t.getPath ino = t'.getPath ino') :
    Same (Together N D) (getPath ino name) (getPath ino' name) :=
  Same.bind (together_pathOf hino) fun _ => Same.ret

/-- Each mount assigns a number of its own. -/
theorem together_getOrInsert (given : List ((UInt64 × UInt64) × FsPath)) (path : FsPath)
    {E : World → World → Prop} :
    Agree (Together (Numbered given) D) (getOrInsert path) (getOrInsert path)
      (fun ino ino' => Together (Numbered (((ino, ino'), path) :: given)) D) E := by
  intro w w' h
  obtain ⟨daemon, inodes, files, next, rfl, hI, hN, hD⟩ := h
  exact ⟨daemon, _, files, next, rfl, hI, hN.getOrInsert path, hD⟩

/-- Handles that stand for the same file. -/
theorem together_openFileOf {fh fh' : UInt64}
    (hfh : ∀ f f', D f f' → f.lookup fh = f'.lookup fh') :
    Same (Together N D) (openFileOf fh) (openFileOf fh') := by
  intro w w' h
  obtain ⟨daemon, inodes, files, next, rfl, hI, hN, hD⟩ := h
  unfold openFileOf
  simp only [← hfh _ _ hD]
  cases w.openFiles.lookup fh <;> exact ⟨rfl, daemon, inodes, files, next, rfl, hI, hN, hD⟩

theorem together_addOpenFile (file : OpenFile) {E : World → World → Prop} :
    Agree (Together N D) (addOpenFile file) (addOpenFile file)
      (fun fh fh' => Together N fun f f' => f.lookup fh = f'.lookup fh') E := by
  intro w w' h
  obtain ⟨daemon, inodes, files, next, rfl, hI, hN, -⟩ := h
  refine ⟨daemon, inodes, files.insert next file, next + 1, rfl, hI, hN, ?_⟩
  show (w.openFiles.insert w.nextFh file).lookup w.nextFh = (files.insert next file).lookup next
  rw [Finmap.lookup_insert, Finmap.lookup_insert]

theorem together_removeOpenFile (fh fh' : UInt64) {E : World → World → Prop} :
    Agree (Together N D) (removeOpenFile fh) (removeOpenFile fh')
      (fun a a' w w' => a = a' ∧ Together N Any w w') E := by
  intro w w' h
  obtain ⟨daemon, inodes, files, next, rfl, hI, hN, -⟩ := h
  exact ⟨rfl, daemon, inodes, files.erase fh', next, rfl, hI, hN, trivial⟩

/-! ## §2. Descriptors. -/

theorem together_openHost (opts : OpenOptions) (path : FsPath) :
    Same (Together N D) (openHost env opts path) (openHost env opts path) :=
  Same.bind (together_onHost _) fun _ => Same.ret

theorem together_openObject (opts : OpenOptions) (path : ObjectPath) :
    Same (Together N D) (openObject opts path) (openObject opts path) :=
  Same.bind (together_onObjects _) fun _ => Same.ret

theorem together_copyToObject (path : FsPath) (objectPath : ObjectPath) :
    Same (Together N D) (copyToObject path objectPath) (copyToObject path objectPath) :=
  Same.bind (together_readHost _) fun _ => together_onObjects _

variable (fd : Fd)

theorem together_readAt (offset len : Nat) :
    Same (Together N D) (fd.readAt offset len) (fd.readAt offset len) := by
  unfold Fd.readAt
  cases fd.backing with
  | host ino => exact together_readHost _
  | object path => exact together_onObjects _

theorem together_write (offset : Nat) (data : Bytes) :
    Same (Together N D) (fd.write offset data) (fd.write offset data) := by
  unfold Fd.write
  by_cases hw : fd.writable = false
  · rw [if_pos hw]
    exact Same.fail
  · rw [if_neg hw]
    cases fd.backing with
    | host ino => exact together_changeHost _
    | object path => exact together_onObjects _

theorem together_writeAt (offset : Nat) (data : Bytes) :
    Same (Together N D) (fd.writeAt offset data) (fd.writeAt offset data) := by
  unfold Fd.writeAt
  by_cases hd : data = []
  · rw [if_pos hd]
    exact Same.ret
  · rw [if_neg hd]
    exact Same.bind (together_write fd offset data) fun _ => Same.ret

theorem together_setattrOpenHandle (mode uid gid : Option UInt32) (size : Option UInt64) :
    Same (Together N D) (setattrOpenHandle fd mode uid gid size)
      (setattrOpenHandle fd mode uid gid size) := by
  have hlen : ∀ sz, Same (Together N D) (fd.setLen sz) (fd.setLen sz) := by
    intro sz
    unfold Fd.setLen
    by_cases hw : fd.writable = false
    · rw [if_pos hw]
      exact Same.fail
    · rw [if_neg hw]
      cases fd.backing with
      | host ino => exact together_changeHost _
      | object path => exact together_onObjects _
  have hperm : ∀ m, Same (Together N D) (fd.setPermissions m) (fd.setPermissions m) := by
    intro m
    unfold Fd.setPermissions
    cases fd.backing with
    | host ino => exact together_changeHost _
    | object path => exact Same.ret
  have hown : Same (Together N D) (fd.chown uid gid) (fd.chown uid gid) := by
    unfold Fd.chown
    cases fd.backing with
    | host ino => exact together_changeHost _
    | object path => exact Same.ret
  exact Same.bind (Same.forSome fun sz => hlen sz.toNat) fun _ =>
    Same.bind (Same.forSome fun m => (hperm _).ignore) fun _ => Same.onlyIf hown.ignore

end Primitives

/-! ## §3. Replies that mean the same. -/

/-- Attributes without their number. -/
def FileAttr.unnumbered (attr : FileAttr) : FileAttr := { attr with ino := 0 }

section Replies

variable (node file : UInt64 → UInt64 → Prop)

def SameAttr (attr attr' : FileAttr) : Prop :=
  attr.unnumbered = attr'.unnumbered ∧ node attr.ino attr'.ino

def SameEntry (entry entry' : DirEntry) : Prop :=
  entry.offset = entry'.offset ∧ entry.kind = entry'.kind ∧ entry.name = entry'.name ∧
    node entry.ino entry'.ino

/-- The same reply, with numbers that `node` relates and handles that `file` relates. -/
inductive SameReply : Reply → Reply → Prop
  | entry {attr attr' : FileAttr} (h : SameAttr node attr attr') :
    SameReply (.entry attr) (.entry attr')
  /-- The number is the one that the request names. -/
  | attr {attr attr' : FileAttr} (h : attr.unnumbered = attr'.unnumbered) :
    SameReply (.attr attr) (.attr attr')
  | data (bytes : Bytes) : SameReply (.data bytes) (.data bytes)
  | ok : SameReply .ok .ok
  | opened {fh fh' : UInt64} (h : file fh fh') : SameReply (.opened fh) (.opened fh')
  /-- The handle of a directory is its number. -/
  | openedDir {ino ino' : UInt64} (h : node ino ino') : SameReply (.opened ino) (.opened ino')
  | created {attr attr' : FileAttr} {fh fh' : UInt64} (hattr : SameAttr node attr attr')
      (hfile : file fh fh') : SameReply (.created attr fh) (.created attr' fh')
  | written (count : Nat) : SameReply (.written count) (.written count)
  | directory {entries entries' : List DirEntry}
      (h : List.Forall₂ (SameEntry node) entries entries') :
    SameReply (.directory entries) (.directory entries')
  | error (errno : Errno) : SameReply (.error errno) (.error errno)

end Replies

/-! ## §4. stat. -/

/-- A stat in both mounts. -/
def StatsMeet (given : List ((UInt64 × UInt64) × FsPath)) (D : OpenFiles → OpenFiles → Prop)
    (path : FsPath) (r r' : FileType × FileAttr) (w w' : World) : Prop :=
  r.2.unnumbered = r'.2.unnumbered ∧
    Together (Numbered (((r.2.ino, r'.2.ino), path) :: given)) D w w'

/-- Numbers of one path, as long as the counters have room. -/
def SameNode (t t' : InodeTable) (ino ino' : UInt64) : Prop :=
  t.Room → t'.Room → t.getPath ino = t'.getPath ino'

/-- Handles of one file. -/
def SameFile (f f' : OpenFiles) (fh fh' : UInt64) : Prop := f.lookup fh = f'.lookup fh'

instance (f f' : OpenFiles) (fh fh' : UInt64) : Decidable (SameFile f f' fh fh') :=
  inferInstanceAs (Decidable (f.lookup fh = f'.lookup fh'))

/-- Replies that mean the same, and worlds that are together again. -/
def RepliesMeet (r r' : Reply) (w w' : World) : Prop :=
  SameReply (SameNode w.inodes w'.inodes) (SameFile w.openFiles w'.openFiles) r r' ∧
    Together (Numbered []) Any w w'

section Stat

variable {given : List ((UInt64 × UInt64) × FsPath)} {D : OpenFiles → OpenFiles → Prop}
  (pol : Policy) (env : Env) (path : FsPath) {w w' : World}

theorem Together.plain (h : Together (Numbered given) D w w') : Together (Numbered []) Any w w' :=
  h.mono (fun _ _ hN => hN.mono (List.forall_mem_nil _)) fun _ _ _ => trivial

/-- What the tables have in common. -/
theorem Together.sameNode (h : Together (Numbered given) D w w') {ino ino' : UInt64}
    {path : FsPath} (hmem : ((ino, ino'), path) ∈ given) :
    SameNode w.inodes w'.inodes ino ino' := by
  obtain ⟨daemon, inodes, files, next, rfl, hI, hN, -⟩ := h
  intro hroom hroom'
  exact ((hN.1 hroom).2 _ hmem).trans ((hN.2 hroom').2 _ hmem).symm

theorem together_statRealPath : Agree (Together (Numbered given) D) (statRealPath path)
    (statRealPath path) (StatsMeet given D path) (Together (Numbered given) D) := by
  apply (together_readHost _).after fun _ _ h => h
  intro inode
  apply Agree.bind (together_getOrInsert given path)
  exact fun ino ino' => Agree.ret fun w w' h => ⟨rfl, h⟩

theorem together_statFusePath : Agree (Together (Numbered given) D) (statFusePath env path)
    (statFusePath env path) (StatsMeet given D path) (Together (Numbered given) D) := by
  apply (together_call env (.getEntry _) _ trivial).after fun _ _ h => h
  intro entry
  cases entry with
  | none => exact Agree.fail fun _ _ h => h
  | some entry =>
    dsimp only
    cases kindFromEntry entry with
    | none => exact Agree.fail fun _ _ h => h
    | some kind =>
      apply Agree.bind (together_getOrInsert given path)
      exact fun ino ino' => Agree.ret fun w w' h => ⟨rfl, h⟩

/-- A stat that fails has assigned no number. -/
theorem together_statPath : Agree (Together (Numbered given) D) (statPath pol env path)
    (statPath pol env path) (StatsMeet given D path) (Together (Numbered given) D) := by
  apply together_connectDaemon.after fun _ _ h => h
  intro _
  have hload : Same (Together (Numbered given) D) (loadStatState pol env path)
      (loadStatState pol env path) :=
    Same.bind (together_peekHost _) fun _ =>
      Same.bind (together_call env (.getEntry path) _ trivial) fun _ => Same.ret
  apply hload.after fun _ _ h => h
  intro state
  cases decideStat state with
  | useReal => exact together_statRealPath path
  | useFuse => exact together_statFusePath env path
  | notFound => exact Agree.fail fun _ _ h => h

end Stat

/-! ## §5. Requests. -/

/-- Numbers of one path, and handles of one file. -/
def NodesMeet (N : InodeTable → InodeTable → Prop) (ino ino' : UInt64) : Prop :=
  ∀ t t', N t t' → t.getPath ino = t'.getPath ino'

def FilesMeet (D : OpenFiles → OpenFiles → Prop) (fh fh' : UInt64) : Prop :=
  ∀ f f', D f f' → f.lookup fh = f'.lookup fh'

/-- A rename moves a path elsewhere, or onto itself. -/
def Tidy (t : InodeTable) : FuseRequest → Prop
  | .rename parent name newparent newname => ∀ path newpath, t.getPath parent = some path →
    t.getPath newparent = some newpath → Apart (name.under path) (newname.under newpath) ∨
      name.under path = newname.under newpath
  | _ => True

/-- A handler that goes alike in both mounts. -/
def Meets (N : InodeTable → InodeTable → Prop) (D : OpenFiles → OpenFiles → Prop)
    (m m' : FuseM Reply) : Prop :=
  Agree (Together N D) m m' RepliesMeet (Together (Numbered []) Any)

section Requests

variable {N : InodeTable → InodeTable → Prop} {D : OpenFiles → OpenFiles → Prop}
  (hN : ∀ t t', N t t' → Numbered [] t t') (pol : Policy) (env : Env) {ino ino' fh fh' : UInt64}

include hN

theorem Together.begun {w w' : World} (h : Together N D w w') :
    Together (Numbered []) Any w w' := h.mono hN fun _ _ _ => trivial

theorem Meets.ok {reply : Reply} (h : ∀ node file, SameReply node file reply reply) :
    Meets N D (pure reply) (pure reply) :=
  Agree.ret fun _ _ hw => ⟨h _ _, hw.begun hN⟩

theorem Meets.fail (err : Error) : Meets N D (throw err) (throw err) :=
  Agree.fail fun _ _ hw => hw.begun hN

theorem Meets.after {α : Type} {m m' : FuseM α} {k k' : α → FuseM Reply}
    (hm : Same (Together N D) m m') (hk : ∀ a, Meets N D (k a) (k' a)) :
    Meets N D (m >>= k) (m' >>= k') := Same.after hm (fun _ _ hw => hw.begun hN) hk

/-- The tables may lose their meaning for the old numbers. -/
theorem Meets.numbered {m m' : FuseM Reply} (h : Meets (Numbered []) Any m m') : Meets N D m m' :=
  h.weaken (fun _ _ hw => hw.begun hN) (fun _ _ _ _ hw => hw) fun _ _ hw => hw

omit hN in
theorem meets_statReply (path : FsPath) {reply : FileAttr → Reply}
    (hreply : ∀ {attr attr' : FileAttr} {node file : UInt64 → UInt64 → Prop},
      attr.unnumbered = attr'.unnumbered → node attr.ino attr'.ino →
      SameReply node file (reply attr) (reply attr')) :
    Meets (Numbered []) Any (statPath pol env path >>= fun found => pure (reply found.2))
      (statPath pol env path >>= fun found => pure (reply found.2)) := by
  apply Agree.bind (together_statPath pol env path)
  exact fun r r' => Agree.ret fun w w' h =>
    ⟨hreply h.1 (h.2.sameNode List.mem_cons_self), h.2.plain⟩

theorem meets_entryReply (path : FsPath) :
    Meets N D (entryReply pol env path) (entryReply pol env path) :=
  Meets.numbered hN <| meets_statReply pol env path fun hattr hnode => .entry ⟨hattr, hnode⟩

theorem meets_attrReply (path : FsPath) :
    Meets N D (attrReply pol env path) (attrReply pol env path) :=
  Meets.numbered hN <| meets_statReply pol env path fun hattr _ => .attr hattr

theorem meets_setattr (hino : NodesMeet N ino ino') {fh fh' : Option UInt64}
    (hfh : ∀ f f', D f f' → fh.bind (f.lookup ·) = fh'.bind (f'.lookup ·))
    (hsome : fh.isSome = fh'.isSome) (mode uid gid : Option UInt32) (size : Option UInt64) :
    Meets N D (setattr pol env ino mode uid gid size fh)
      (setattr pol env ino' mode uid gid size fh') := by
  have hfile : Same (Together N D) (openFile? fh) (openFile? fh') := by
    intro w w' h
    obtain ⟨daemon, inodes, files, next, rfl, hI, hN, hD⟩ := h
    exact ⟨hfh _ _ hD, daemon, inodes, files, next, rfl, hI, hN, hD⟩
  apply Meets.after hN (together_pathOf hino)
  intro path
  apply Meets.after hN together_connectDaemon
  intro _
  apply Meets.after hN hfile
  intro file
  rw [hsome]
  apply Meets.after hN _ fun _ => meets_attrReply hN pol env path
  cases decideSetattr (loadSetattrState pol path fh'.isSome file.isSome mode uid gid size) with
  | updateOpenHandle =>
    exact Same.forSome fun file => together_setattrOpenHandle file.file mode uid gid size
  | updateRealFs =>
    exact Same.bind (Same.forSome fun sz => Same.bind (together_onHost _) fun _ =>
      together_changeHost _) fun _ => Same.bind (Same.forSome fun m => (together_changeHost _).ignore)
        fun _ => Same.onlyIf (together_changeHost _).ignore
  | updateDaemonMeta =>
    apply Same.bind (together_call env (.getFileMeta _) _ trivial).attempt
    intro result
    cases result with
    | error err => exact Same.ret
    | ok md =>
      cases md with
      | none => exact Same.ret
      | some md => exact (together_call env (.putFileMeta _ _) _ trivial).ignore

theorem meets_readlink (hino : NodesMeet N ino ino') :
    Meets N D (readlink pol env ino) (readlink pol env ino') := by
  apply Meets.after hN (together_pathOf hino)
  intro path
  apply Meets.after hN together_connectDaemon
  intro _
  apply Meets.after hN (Same.bind (together_call env (.getEntry _) _ trivial) fun _ => Same.ret)
  intro state
  apply Meets.after hN _ fun data => Meets.ok hN fun _ _ => .data data
  cases decideReadlink state with
  | useFuse => exact Same.bind (together_call env (.getEntry _) _ trivial) fun _ => Same.ret
  | useReal => exact together_readHost fun fs => fs.readLink path
  | notFound => exact Same.fail

theorem meets_mkdir (hino : NodesMeet N ino ino') (name : Component) (mode : UInt32) :
    Meets N D (mkdir pol env ino name mode) (mkdir pol env ino' name mode) := by
  apply Meets.after hN (together_getPath name hino)
  intro path
  apply Meets.after hN together_connectDaemon
  intro _
  apply Meets.after hN (m := executeMkdir env _ path mode)
  · cases decideMkdir (loadMkdirState pol path) with
    | createReal => exact Same.bind (together_changeHost _) fun _ => together_changeHost _
    | createDaemon =>
      exact Same.bind (together_call env (.putDir _ _) _ trivial) fun _ => together_clear env path
  intro _
  apply Meets.numbered hN
  apply Agree.bind (together_getOrInsert [] path)
  intro number number'
  apply (together_statPath pol env path).bind_attempts
  · exact fun r r' => Agree.ret fun w w' h =>
      ⟨.entry ⟨h.1, h.2.sameNode List.mem_cons_self⟩, h.2.plain⟩
  · -- the made-up attributes carry the number assigned before the stat
    exact fun err => Agree.ret fun w w' h =>
      ⟨.entry ⟨rfl, h.sameNode List.mem_cons_self⟩, h.plain⟩

theorem meets_unlink (hino : NodesMeet N ino ino') (name : Component) :
    Meets N D (unlink pol env ino name) (unlink pol env ino' name) := by
  apply Meets.after hN (together_getPath name hino)
  intro path
  apply Meets.after hN together_connectDaemon
  intro _
  apply Meets.after hN _ fun _ => Meets.ok hN fun _ _ => .ok
  cases decideUnlink (loadUnlinkState pol path) with
  | removeReal => exact together_changeHost _
  | whiteout =>
    exact Same.bind (together_call env (.deleteFile path) _ trivial).ignore fun _ =>
      together_call env (.putWhiteout path) _ trivial

theorem meets_rmdir (hino : NodesMeet N ino ino') (name : Component) :
    Meets N D (rmdir pol env ino name) (rmdir pol env ino' name) := by
  apply Meets.after hN (together_getPath name hino)
  intro path
  apply Meets.after hN together_connectDaemon
  intro _
  apply Meets.after hN (together_peekHost _)
  intro descendants
  apply Meets.after hN _ fun _ => Meets.ok hN fun _ _ => .ok
  cases decideRmdir (loadRmdirState pol path) with
  | removeReal => exact together_changeHost _
  | whiteoutRecursive =>
    exact Same.bind (together_call env (.deleteFile path) _ trivial).ignore fun _ =>
      Same.bind (together_call env (.putWhiteout path) _ trivial) fun _ =>
        Same.forEach fun p => (together_call env (.putWhiteout p) _ trivial).ignore

theorem meets_rename (hino : NodesMeet N ino ino') (name : Component)
    {newparent newparent' : UInt64} (hnew : NodesMeet N newparent newparent')
    (newname : Component) (htidy : ∀ t t', N t t' → Tidy t (.rename ino name newparent newname)) :
    Meets N D (rename pol env ino name newparent newname)
      (rename pol env ino' name newparent' newname) := by
  -- the two paths are known before the message is sent
  have hsrc : Agree (Together N D) (getPath ino name) (getPath ino' name)
      (fun src src' w w' => src = src' ∧ Together (fun t t' => N t t' ∧
        ∃ path, t.getPath ino = some path ∧ src = name.under path) D w w')
      (Together (Numbered []) Any) := by
    apply Agree.bind_eq ((together_pathKnown hino).weaken (fun _ _ h => h) (fun _ _ _ _ h => h)
      fun _ _ h => h.begun hN)
    exact fun path => Agree.ret fun w w' h =>
      ⟨rfl, h.mono (fun t t' ht => ⟨ht.1, path, ht.2.1, rfl⟩) fun _ _ hD => hD⟩
  apply Agree.bind_eq hsrc
  intro src
  -- with both known, `Tidy` says that the message is a steadfast one
  have hdst : Agree (Together (fun t t' => N t t' ∧
        ∃ path, t.getPath ino = some path ∧ src = name.under path) D)
      (getPath newparent newname) (getPath newparent' newname)
      (fun dst dst' w w' => dst = dst' ∧ (Apart src dst ∨ src = dst) ∧ Together N D w w')
      (Together (Numbered []) Any) := by
    apply Agree.bind_eq ((together_pathKnown fun t t' ht => hnew t t' ht.1).weaken
      (fun _ _ h => h) (fun _ _ _ _ h => h) fun _ _ h => h.begun fun t t' ht => hN t t' ht.1)
    intro path
    apply Agree.ret
    intro w w' h
    refine ⟨rfl, ?_, h.mono (fun _ _ ht => ht.1.1) fun _ _ hD => hD⟩
    obtain ⟨daemon, inodes, files, next, rfl, hI, ht, hD⟩ := h
    obtain ⟨⟨hn, old, hold, rfl⟩, hpath, -⟩ := ht
    exact htidy _ _ hn old path hold hpath
  apply Agree.bind_eq hdst
  intro dst
  apply Agree.of_fact
  intro hapart
  apply Meets.after hN together_connectDaemon
  intro _
  apply Meets.after hN (Same.bind (together_call env (.getEntry _) _ trivial) fun _ =>
    Same.bind (together_call env (.getEntry _) _ trivial) fun _ => Same.ret)
  intro state
  apply Meets.after hN _ fun _ => Meets.ok hN fun _ _ => .ok
  cases decideRename state with
  | renameReal => exact together_changeHost _
  | renameFuseFileOrSymlink =>
    exact Same.bind (together_call env (.renameFile src dst) _ trivial) fun _ =>
      together_clear env dst
  | renameFuseTree =>
    exact Same.bind (together_call env (.renameTree src dst) _ hapart) fun _ =>
      together_clear env dst

theorem meets_symlink (hino : NodesMeet N ino ino') (name : Component) (target : Bytes) :
    Meets N D (symlink pol env ino name target) (symlink pol env ino' name target) := by
  apply Meets.after hN (together_getPath name hino)
  intro path
  apply Meets.after hN together_connectDaemon
  intro _
  apply Meets.after hN _ fun _ => meets_entryReply hN pol env path
  have hput : ∀ md, Same (Together N D) (do
      Client.putSymlink env path target md
      ignore (Client.deleteWhiteout env path)) (do
      Client.putSymlink env path target md
      ignore (Client.deleteWhiteout env path)) := fun md =>
    Same.bind (together_call env (.putSymlink path target md) _ trivial) fun _ =>
      together_clear env path
  cases hmode : pol.classify path with
  | passthrough => exact together_changeHost _
  | fuseOnly => exact hput _
  | copyOnWrite => exact hput _

omit hN in
theorem together_loadOpenState (path : FsPath) (needWrite truncate : Bool) :
    Same (Together N D) (loadOpenState pol env path needWrite truncate)
      (loadOpenState pol env path needWrite truncate) := by
  apply Same.bind (together_call env (.getEntry _) _ trivial)
  intro entry
  have hobject : Same (Together N D) (loadObjectPath env entry) (loadObjectPath env entry) := by
    unfold loadObjectPath
    cases entry.bind (·.objectId) with
    | none => exact Same.ret
    | some id => exact Same.bind (together_getObjectPath env id).attempt fun _ => Same.ret
  exact Same.bind hobject fun _ => Same.bind (together_peekHost _) fun _ => Same.ret

omit hN in
theorem together_executeOpen (decision : OpenDecision) (path : FsPath) (flags : OpenFlags)
    (md : FileMetadata) : Same (Together N D) (executeOpen env decision path flags md)
      (executeOpen env decision path flags md) := by
  cases decision with
  | notFound => exact Same.fail
  | error => exact Same.fail
  | openReal => exact Same.bind (together_openHost env _ path) fun _ => Same.ret
  | openObject existing ensure copy clear =>
    have hobject : Same (Together N D) (objectForOpen env path md existing ensure copy)
        (objectForOpen env path md existing ensure copy) := by
      unfold objectForOpen
      by_cases hensure : ensure = true
      · rw [if_pos hensure]
        by_cases hcopy : copy = true
        · rw [if_pos hcopy]
          exact together_call env (.ensureFileObjectFromReal _ _) _ trivial
        · rw [if_neg hcopy]
          exact together_call env (.ensureFileObject _ _) _ trivial
      · rw [if_neg hensure]
        cases existing with
        | none => exact Same.fail
        | some oid => exact Same.bind (together_getObjectPath env oid) fun _ => Same.ret
    exact Same.bind hobject fun object =>
      Same.bind (Same.onlyIf (together_copyToObject path object.2).ignore) fun _ =>
        Same.bind (Same.onlyIf (together_clear env path)) fun _ =>
          Same.bind (together_openObject _ _) fun _ => Same.ret

theorem meets_open (hino : NodesMeet N ino ino') (flags : OpenFlags) :
    Meets N D («open» pol env ino flags) («open» pol env ino' flags) := by
  apply Meets.after hN (together_pathOf hino)
  intro path
  apply Meets.after hN (Same.onlyIf (Same.bind together_connectDaemon fun _ =>
    (together_call env (.logAccess _ _ _) _ trivial).ignore).ignore)
  intro _
  apply Meets.after hN together_connectDaemon
  intro _
  apply Meets.after hN (together_loadOpenState pol env path _ _)
  intro state
  apply Meets.after hN (together_executeOpen env _ path flags _)
  intro file
  apply Agree.bind (together_addOpenFile file)
  intro fh fh'
  apply Agree.ret
  intro w w' h
  obtain ⟨daemon, inodes, files, next, rfl, hI, hn, hD⟩ := h
  exact ⟨.opened hD, daemon, inodes, files, next, rfl, hI, hN _ _ hn, trivial⟩

theorem meets_create (hino : NodesMeet N ino ino') (name : Component) (mode : UInt32)
    (flags : OpenFlags) : Meets N D (create pol env ino name mode flags)
      (create pol env ino' name mode flags) := by
  apply Meets.after hN (together_getPath name hino)
  intro path
  apply Meets.after hN together_connectDaemon
  intro _
  apply Meets.after hN (m := executeCreate env _ path mode flags _)
  · cases decideCreate (loadCreateState pol path) with
    | createReal => exact Same.bind (together_openHost env _ path) fun _ => Same.ret
    | createObject =>
      exact Same.bind (together_call env (.ensureFileObject _ _) _ trivial) fun _ =>
        Same.bind (together_clear env path) fun _ =>
          Same.bind (together_openObject _ _) fun _ => Same.ret
  intro file
  apply Meets.numbered hN
  apply Agree.bind (together_addOpenFile file)
  intro fh fh'
  have hreply : ∀ {attr attr' : FileAttr} {w w' : World}, attr.unnumbered = attr'.unnumbered →
      Together (Numbered [((attr.ino, attr'.ino), path)])
        (fun f f' => f.lookup fh = f'.lookup fh') w w' →
      RepliesMeet (.created attr fh) (.created attr' fh') w w' := by
    intro attr attr' w w' hattr h
    refine ⟨.created ⟨hattr, h.sameNode List.mem_cons_self⟩ ?_, h.plain⟩
    obtain ⟨daemon, inodes, files, next, rfl, hI, -, hD⟩ := h
    exact hD
  apply (together_statPath pol env path).bind_attempts
  · exact fun r r' => Agree.ret fun w w' h => hreply h.1 h.2
  · -- here the number is assigned after the stat that failed
    intro err
    apply Agree.bind (together_getOrInsert [] path)
    intro number number'
    exact Agree.ret fun w w' h => hreply rfl h

theorem meets_read (hino : NodesMeet N ino ino') (hfh : FilesMeet D fh fh') (offset size : Nat) :
    Meets N D (read ino fh offset size) (read ino' fh' offset size) := by
  apply Meets.after hN together_connectDaemon
  intro _
  apply Meets.after hN (together_pathOf hino)
  intro _
  apply Meets.after hN (together_openFileOf hfh)
  intro file
  exact Meets.after hN (together_readAt file.file offset size) fun _ =>
    Meets.ok hN fun _ _ => .data _

theorem meets_write (hino : NodesMeet N ino ino') (hfh : FilesMeet D fh fh') (offset : Nat)
    (data : Bytes) : Meets N D (write ino fh offset data) (write ino' fh' offset data) := by
  apply Meets.after hN together_connectDaemon
  intro _
  apply Meets.after hN (together_pathOf hino)
  intro _
  apply Meets.after hN (together_openFileOf hfh)
  intro file
  exact Meets.after hN (together_writeAt file.file offset data) fun _ =>
    Meets.ok hN fun _ _ => .written _

theorem meets_copyFileRange (hino : NodesMeet N ino ino') (hfh : FilesMeet D fh fh')
    {inoOut inoOut' fhOut fhOut' : UInt64} (hout : NodesMeet N inoOut inoOut')
    (hfhOut : FilesMeet D fhOut fhOut') (offsetIn offsetOut len : Nat) :
    Meets N D (copyFileRange ino fh offsetIn inoOut fhOut offsetOut len)
      (copyFileRange ino' fh' offsetIn inoOut' fhOut' offsetOut len) := by
  apply Meets.after hN (together_pathOf hino)
  intro _
  apply Meets.after hN (together_pathOf hout)
  intro _
  apply Meets.after hN together_connectDaemon
  intro _
  apply Meets.after hN (together_openFileOf hfh)
  intro input
  apply Meets.after hN (together_readAt input.file offsetIn len)
  intro data
  apply Meets.after hN (together_openFileOf hfhOut)
  intro output
  exact Meets.after hN (together_writeAt output.file offsetOut data) fun _ =>
    Meets.ok hN fun _ _ => .written _

theorem meets_flush (hfh : FilesMeet D fh fh') : Meets N D (flushToDaemon fh) (flushToDaemon fh') :=
  Meets.after hN together_connectDaemon fun _ => Meets.after hN (together_openFileOf hfh)
    fun _ => Meets.ok hN fun _ _ => .ok

theorem meets_release (fh fh' : UInt64) (flush : Bool) :
    Meets N D (release fh flush) (release fh' flush) :=
  Meets.after hN (Same.onlyIf together_connectDaemon) fun _ =>
    Agree.bind_same (together_removeOpenFile fh fh') fun _ =>
      Agree.ret fun _ _ h => ⟨.ok, h.begun hN⟩

theorem meets_opendir (hino : NodesMeet N ino ino') :
    Meets N D (pathOf ino >>= fun _ => pure (.opened ino))
      (pathOf ino' >>= fun _ => pure (.opened ino')) := by
  apply Meets.after hN (together_pathOf hino)
  intro _
  apply Agree.ret
  intro w w' h
  refine ⟨.openedDir fun _ _ => ?_, h.begun hN⟩
  obtain ⟨daemon, inodes, files, next, rfl, hI, hn, -⟩ := h
  exact hino _ _ hn

/-! ## §6. Listings. -/

omit hN in
/-- A listing does not show the order of the rows. -/
theorem together_loadReaddirState (path : FsPath) :
    Same (Together N D) (loadReaddirState pol env path) (loadReaddirState pol env path) := by
  have hreal : Agree (Together N D) (peekHost fun fs => realChildren fs path)
      (peekHost fun fs => realChildren fs path) (fun c c' w w' => c = c' ∧
        ((∃ fs, c = realChildren fs path) ∧ Together N D w w')) (Together N D) := by
    intro w w' h
    have hsame := together_peekHost (fun fs => realChildren fs path) w w' h
    exact ⟨hsame.1, ⟨w.host, rfl⟩, hsame.2⟩
  have hfuse : Agree (Together N D) (Client.readDirAll env path) (Client.readDirAll env path)
      (fun es es' w w' => (∃ s s', Interchangeable s s' ∧ es = s.readDirAll path ∧
        es' = s'.readDirAll path) ∧ Together N D w w') (Together N D) := by
    have hreq : Orderly (.readDirAll path) := trivial
    apply Agree.bind (together_sendRequest env hreq)
    intro r r' w w' h
    obtain ⟨⟨denv, s, s', hI, rfl, rfl⟩, hw⟩ := h
    exact ⟨⟨s, s', hI, rfl, rfl⟩, hw⟩
  -- the daemons list their entries in different orders, over the same children of the host
  apply Agree.bind_eq hreal
  intro children
  apply Agree.of_fact
  intro hfact
  obtain ⟨fs, rfl⟩ := hfact
  apply Agree.bind hfuse
  intro es es'
  apply Agree.of_fact
  intro hfact
  obtain ⟨s, s', hI, rfl, rfl⟩ := hfact
  rw [children_eq hI]
  exact Same.ret

omit hN in
/-- Children with the same names, each with a number of its own. -/
theorem together_childEntries (children : List (Name × FileType × FsPath))
    (given : List ((UInt64 × UInt64) × FsPath)) :
    Agree (Together (Numbered given) D) (childEntries children) (childEntries children)
      (fun es es' w w' => List.Forall₂ (fun e e' : UInt64 × FileType × Bytes => e.2 = e'.2 ∧
          SameNode w.inodes w'.inodes e.1 e'.1) es es' ∧ Together (Numbered given) D w w')
      (Together (Numbered []) Any) := by
  induction children generalizing given with
  | nil => exact Agree.ret fun w w' h => ⟨.nil, h⟩
  | cons child rest ih =>
    obtain ⟨name, kind, full⟩ := child
    apply Agree.bind (together_getOrInsert given full)
    intro number number'
    apply Agree.bind (ih _)
    intro es es'
    apply Agree.ret
    intro w w' h
    exact ⟨.cons ⟨rfl, h.2.sameNode List.mem_cons_self⟩ h.1,
      h.2.mono (fun _ _ hn => hn.mono fun _ hg => List.mem_cons_of_mem _ hg) fun _ _ hD => hD⟩

omit hN in
/-- What fits depends on the names. -/
theorem fillReply_meets (room : Nat) {node : UInt64 → UInt64 → Prop}
    {es es' : List (UInt64 × FileType × Bytes)}
    (h : List.Forall₂ (fun e e' : UInt64 × FileType × Bytes => e.2 = e'.2 ∧ node e.1 e'.1) es es')
    (i : Nat) : List.Forall₂ (SameEntry node) (fillReply room i es) (fillReply room i es') := by
  induction h generalizing i with
  | nil => exact .nil
  | @cons e e' es es' hhead _ ih =>
    obtain ⟨number, kind, name⟩ := e
    obtain ⟨number', kind', name'⟩ := e'
    obtain ⟨heq, hnode⟩ := hhead
    cases heq
    unfold fillReply
    by_cases hroom : room < direntSize name
    · rw [if_pos hroom, if_pos hroom]
      exact ih (i + 1)
    · rw [if_neg hroom, if_neg hroom]
      exact .cons ⟨rfl, rfl, rfl, hnode⟩ .nil

theorem meets_readdir (hino : NodesMeet N ino ino') (offset capacity : Nat) :
    Meets N D (readdir pol env ino offset capacity) (readdir pol env ino' offset capacity) := by
  have hpath : Agree (Together N D) (pathOf ino) (pathOf ino')
      (fun path path' w w' => path = path' ∧
        Together (Numbered [((ino, ino'), path)]) D w w') (Together (Numbered []) Any) := by
    refine (together_pathKnown hino).weaken (fun _ _ h => h) (fun path path' w w' h => ?_)
      fun _ _ hw => hw.begun hN
    refine ⟨h.1, h.2.mono (fun t t' ht => ?_) fun _ _ hD => hD⟩
    obtain ⟨hn, hget, hget'⟩ := ht
    exact ⟨fun hroom => ⟨((hN _ _ hn).1 hroom).1, List.forall_mem_singleton.mpr hget⟩,
      fun hroom => ⟨((hN _ _ hn).2 hroom).1, List.forall_mem_singleton.mpr hget'⟩⟩
  apply Agree.bind_eq hpath
  intro path
  apply together_connectDaemon.after fun _ _ h => h.plain
  intro _
  apply (together_loadReaddirState pol env path).after fun _ _ h => h.plain
  intro state
  rw [validateReaddirDecision_decideReaddir]
  -- `..` is numbered before the children are
  apply Agree.bind (together_getOrInsert _ _)
  intro parent parent'
  apply Agree.bind (together_childEntries _ _)
  intro children children'
  apply Agree.ret
  intro w w' h
  obtain ⟨hchildren, htogether⟩ := h
  have hself : SameNode w.inodes w'.inodes ino ino' :=
    htogether.sameNode (List.mem_cons_of_mem _ List.mem_cons_self)
  have hparent : SameNode w.inodes w'.inodes parent parent' :=
    htogether.sameNode List.mem_cons_self
  have hentries := List.Forall₂.cons (a := (ino, FileType.directory, ([46] : Bytes)))
    (b := (ino', FileType.directory, ([46] : Bytes))) ⟨rfl, hself⟩ <|
    List.Forall₂.cons (a := (parent, FileType.directory, ([46, 46] : Bytes)))
      (b := (parent', FileType.directory, ([46, 46] : Bytes))) ⟨rfl, hparent⟩ hchildren
  exact ⟨.directory (fillReply_meets capacity (List.forall₂_drop offset hentries) offset),
    htogether.plain⟩

end Requests

/-! ## §7. Requests that mean the same. -/

/-- The same request, with numbers that `node` relates and handles that `file` relates. -/
inductive SameRequest (node file : UInt64 → UInt64 → Prop) : FuseRequest → FuseRequest → Prop
  | lookup {p p' : UInt64} (h : node p p') (name : Component) :
    SameRequest node file (.lookup p name) (.lookup p' name)
  | getattr {i i' : UInt64} (h : node i i') : SameRequest node file (.getattr i) (.getattr i')
  | setattr {i i' : UInt64} {fh fh' : Option UInt64} (h : node i i') (hfh : Option.Rel file fh fh')
      (mode uid gid : Option UInt32) (size : Option UInt64) :
    SameRequest node file (.setattr i mode uid gid size fh) (.setattr i' mode uid gid size fh')
  | readlink {i i' : UInt64} (h : node i i') : SameRequest node file (.readlink i) (.readlink i')
  | mkdir {p p' : UInt64} (h : node p p') (name : Component) (mode : UInt32) :
    SameRequest node file (.mkdir p name mode) (.mkdir p' name mode)
  | unlink {p p' : UInt64} (h : node p p') (name : Component) :
    SameRequest node file (.unlink p name) (.unlink p' name)
  | rmdir {p p' : UInt64} (h : node p p') (name : Component) :
    SameRequest node file (.rmdir p name) (.rmdir p' name)
  | rename {p p' q q' : UInt64} (h : node p p') (hnew : node q q') (name newname : Component) :
    SameRequest node file (.rename p name q newname) (.rename p' name q' newname)
  | symlink {p p' : UInt64} (h : node p p') (name : Component) (target : Bytes) :
    SameRequest node file (.symlink p name target) (.symlink p' name target)
  | link {i i' q q' : UInt64} (h : node i i') (hnew : node q q') (newname : Component) :
    SameRequest node file (.link i q newname) (.link i' q' newname)
  | «open» {i i' : UInt64} (h : node i i') (flags : OpenFlags) :
    SameRequest node file (.open i flags) (.open i' flags)
  | create {p p' : UInt64} (h : node p p') (name : Component) (mode : UInt32) (flags : OpenFlags) :
    SameRequest node file (.create p name mode flags) (.create p' name mode flags)
  | read {i i' fh fh' : UInt64} (h : node i i') (hfh : file fh fh') (offset size : Nat) :
    SameRequest node file (.read i fh offset size) (.read i' fh' offset size)
  | write {i i' fh fh' : UInt64} (h : node i i') (hfh : file fh fh') (offset : Nat)
      (data : Bytes) :
    SameRequest node file (.write i fh offset data) (.write i' fh' offset data)
  | copyFileRange {i i' o o' fh fh' fo fo' : UInt64} (h : node i i') (hout : node o o')
      (hfh : file fh fh') (hfo : file fo fo') (offsetIn offsetOut len : Nat) :
    SameRequest node file (.copyFileRange i fh offsetIn o fo offsetOut len)
      (.copyFileRange i' fh' offsetIn o' fo' offsetOut len)
  | flush {fh fh' : UInt64} (h : file fh fh') : SameRequest node file (.flush fh) (.flush fh')
  | release {fh fh' : UInt64} (h : file fh fh') (flush : Bool) :
    SameRequest node file (.release fh flush) (.release fh' flush)
  | fsync {fh fh' : UInt64} (h : file fh fh') : SameRequest node file (.fsync fh) (.fsync fh')
  | opendir {i i' : UInt64} (h : node i i') : SameRequest node file (.opendir i) (.opendir i')
  | readdir {i i' : UInt64} (h : node i i') (offset capacity : Nat) :
    SameRequest node file (.readdir i offset capacity) (.readdir i' offset capacity)
  | access {i i' : UInt64} (h : node i i') : SameRequest node file (.access i) (.access i')

section Handle

variable {N : InodeTable → InodeTable → Prop} {D : OpenFiles → OpenFiles → Prop}
  (pol : Policy) (env : Env) {node file : UInt64 → UInt64 → Prop}

/-- **One request** in two mounts. -/
theorem meets_handle (hN : ∀ t t', N t t' → Numbered [] t t')
    (hnode : ∀ i i', node i i' → NodesMeet N i i')
    (hfile : ∀ fh fh', file fh fh' → FilesMeet D fh fh') {req req' : FuseRequest}
    (h : SameRequest node file req req') (htidy : ∀ t t', N t t' → Tidy t req) :
    Meets N D (handle pol env req) (handle pol env req') := by
  cases h with
  | lookup h name =>
    exact Meets.after hN (together_getPath name (hnode _ _ h)) fun path =>
      meets_entryReply hN pol env path
  | getattr h =>
    exact Meets.after hN (together_pathOf (hnode _ _ h)) fun path =>
      meets_attrReply hN pol env path
  | setattr h hfh mode uid gid size =>
    cases hfh with
    | some hfh =>
      refine meets_setattr hN pol env (hnode _ _ h) ?_ ?_ mode uid gid size
      · exact fun f f' hD => hfile _ _ hfh f f' hD
      · rfl
    | none => exact meets_setattr hN pol env (hnode _ _ h) (fun _ _ _ => rfl) rfl mode uid gid size
  | readlink h => exact meets_readlink hN pol env (hnode _ _ h)
  | mkdir h name mode => exact meets_mkdir hN pol env (hnode _ _ h) name mode
  | unlink h name => exact meets_unlink hN pol env (hnode _ _ h) name
  | rmdir h name => exact meets_rmdir hN pol env (hnode _ _ h) name
  | rename h hnew name newname =>
    exact meets_rename hN pol env (hnode _ _ h) name (hnode _ _ hnew) newname htidy
  | symlink h name target => exact meets_symlink hN pol env (hnode _ _ h) name target
  | link h hnew newname => exact Meets.fail hN _
  | «open» h flags => exact meets_open hN pol env (hnode _ _ h) flags
  | create h name mode flags => exact meets_create hN pol env (hnode _ _ h) name mode flags
  | read h hfh offset size => exact meets_read hN (hnode _ _ h) (hfile _ _ hfh) offset size
  | write h hfh offset data => exact meets_write hN (hnode _ _ h) (hfile _ _ hfh) offset data
  | copyFileRange h hout hfh hfo offsetIn offsetOut len =>
    exact meets_copyFileRange hN (hnode _ _ h) (hfile _ _ hfh) (hnode _ _ hout) (hfile _ _ hfo)
      offsetIn offsetOut len
  | flush h => exact meets_flush hN (hfile _ _ h)
  | release h flush => exact meets_release hN _ _ flush
  | fsync h => exact meets_flush hN (hfile _ _ h)
  | opendir h => exact meets_opendir hN (hnode _ _ h)
  | readdir h offset capacity => exact meets_readdir hN pol env (hnode _ _ h) offset capacity
  | access h =>
    exact Meets.after hN (together_pathOf (hnode _ _ h)) fun _ => Meets.ok hN fun _ _ => .ok

end Handle

/-! ## §8. Sessions. -/

/-- What a `cas run` has for itself. -/
structure FuseTables where
  inodes : InodeTable
  openFiles : OpenFiles
  nextFh : UInt64

def FuseTables.new : FuseTables := ⟨InodeTable.new [], ∅, 1⟩

/-- A project: the host and the syncing daemon, and any number of sessions. -/
structure Project where
  host : FileSystem
  daemon : Server
  sessions : ℕ → FuseTables

def Project.start (host : FileSystem) (daemon : Server) : Project :=
  ⟨host, daemon, fun _ => FuseTables.new⟩

/-- A request in a session; the policy is the session's. -/
structure Act where
  session : ℕ
  pol : Policy
  env : Env
  req : FuseRequest

inductive Step
  | serve (a : Act)
  /-- The syncing daemon flushes and stops, and another loads what it wrote. -/
  | restart (order order' : IterOrder FsPath)

/-- The world of a session. -/
def Project.world (s : Project) (i : ℕ) : World where
  host := s.host
  daemon := s.daemon
  inodes := (s.sessions i).inodes
  openFiles := (s.sessions i).openFiles
  nextFh := (s.sessions i).nextFh
  faults := []

def World.tables (w : World) : FuseTables := ⟨w.inodes, w.openFiles, w.nextFh⟩

def Project.serve (s : Project) (a : Act) : Reply × Project :=
  let r := serveFuse a.pol a.env (s.world a.session) a.req
  (r.1, { host := r.2.host, daemon := r.2.daemon,
          sessions := Function.update s.sessions a.session r.2.tables })

/-- What the stop of the daemon does to connections is part of the requests after it: a message
over a dead one is a fault of the request's `env`. -/
def Project.restart (s : Project) (order order' : IterOrder FsPath) : Option Project :=
  (s.daemon.restart order order').map fun daemon => { s with daemon }

/-- Requests that mean the same, each in its session. -/
structure SameAct (s s' : Project) (a a' : Act) : Prop where
  pol : a.pol = a'.pol
  /-- In particular the same messages fail, whichever connections they go over. -/
  env : a.env = a'.env
  req : SameRequest
    (fun i i' => (s.sessions a.session).inodes.getPath i
      = (s'.sessions a'.session).inodes.getPath i')
    (SameFile (s.sessions a.session).openFiles (s'.sessions a'.session).openFiles) a.req a'.req
  tidy : Tidy (s.sessions a.session).inodes a.req

/-- Replies that mean the same, each in its session; the same host, and daemons that answer every
request alike. -/
structure SameAnswer (s s' : Project) (a a' : Act) : Prop where
  reply : SameReply
    (SameNode ((s.serve a).2.sessions a.session).inodes
      ((s'.serve a').2.sessions a'.session).inodes)
    (SameFile ((s.serve a).2.sessions a.session).openFiles
      ((s'.serve a').2.sessions a'.session).openFiles) (s.serve a).1 (s'.serve a').1
  host : (s.serve a).2.host = (s'.serve a').2.host
  daemon : Interchangeable (s.serve a).2.daemon (s'.serve a').2.daemon

/-- Two runs, request by request; each has restarts of its own. -/
inductive Alongside (C : Project → Project → Act → Act → Prop) :
    Project → Project → List Step → List Step → Prop
  | nil {s s' : Project} : Alongside C s s' [] []
  | serve {s s' : Project} {a a' : Act} {steps steps' : List Step} (h : C s s' a a')
      (rest : Alongside C (s.serve a).2 (s'.serve a').2 steps steps') :
    Alongside C s s' (.serve a :: steps) (.serve a' :: steps')
  | left {s s' : Project} {order order' : IterOrder FsPath} {steps steps' : List Step}
      (h : (s.restart order order').isSome = true)
      (rest : Alongside C ((s.restart order order').get h) s' steps steps') :
    Alongside C s s' (.restart order order' :: steps) steps'
  | right {s s' : Project} {order order' : IterOrder FsPath} {steps steps' : List Step}
      (h : (s'.restart order order').isSome = true)
      (rest : Alongside C s ((s'.restart order order').get h) steps steps') :
    Alongside C s s' steps (.restart order order' :: steps')

/-- The tables of every session are in order. -/
def Project.Sound (s : Project) : Prop :=
  ∀ i, (s.sessions i).inodes.Room → (s.sessions i).inodes.Counted

theorem sound_start (host : FileSystem) (daemon : Server) : (Project.start host daemon).Sound :=
  fun _ _ => InodeTable.counted_new []

/-- What a request leaves of the tables of the sessions. -/
theorem Project.Sound.serve {s : Project} (hs : s.Sound) {a : Act}
    (h : (s.serve a).2.sessions a.session
      = (serveFuse a.pol a.env (s.world a.session) a.req).2.tables)
    (hserved : (serveFuse a.pol a.env (s.world a.session) a.req).2.inodes.Room →
      (serveFuse a.pol a.env (s.world a.session) a.req).2.inodes.Counted) :
    (s.serve a).2.Sound := by
  intro i
  by_cases hi : i = a.session
  · rw [hi, h]
    exact hserved
  · show (Function.update s.sessions a.session _ i).inodes.Room → _
    rw [Function.update_of_ne hi]
    show _ → (Function.update s.sessions a.session _ i).inodes.Counted
    rw [Function.update_of_ne hi]
    exact hs i

/-- **One request** in two runs: the same meaning in, the same meaning out. -/
theorem serve_alike {s s' : Project} {a a' : Act} (hhost : s.host = s'.host)
    (hdaemon : Interchangeable s.daemon s'.daemon) (hs : s.Sound) (hs' : s'.Sound)
    (h : SameAct s s' a a') :
    SameAnswer s s' a a' ∧ (s.serve a).2.Sound ∧ (s'.serve a').2.Sound := by
  obtain ⟨i, pol, env, req⟩ := a
  obtain ⟨i', pol', env', req'⟩ := a'
  obtain ⟨hpol, henv, hreq, htidy⟩ := h
  obtain rfl : pol = pol' := hpol
  obtain rfl : env = env' := henv
  have hself : (s.serve ⟨i, pol, env, req⟩).2.sessions i
      = (serveFuse pol env (s.world i) req).2.tables := Function.update_self ..
  have hself' : (s'.serve ⟨i', pol, env, req'⟩).2.sessions i'
      = (serveFuse pol env (s'.world i') req').2.tables := Function.update_self ..
  -- both requests start from tables in which they mean the same
  have hmeets := meets_handle (N := fun t t' => t = (s.sessions i).inodes ∧
      t' = (s'.sessions i').inodes)
    (D := fun f f' => f = (s.sessions i).openFiles ∧ f' = (s'.sessions i').openFiles) pol env
    (fun t t' ht => ⟨fun hroom => ⟨ht.1 ▸ hs i (ht.1 ▸ hroom), List.forall_mem_nil _⟩,
      fun hroom => ⟨ht.2 ▸ hs' i' (ht.2 ▸ hroom), List.forall_mem_nil _⟩⟩)
    (fun _ _ hnode t t' ht => by rw [ht.1, ht.2]; exact hnode)
    (fun _ _ hfile f f' hf => by rw [hf.1, hf.2]; exact hfile) hreq
    (fun t t' ht => by rw [ht.1]; exact htidy)
  have key := hmeets { s.world i with faults := env.faults }
    { s'.world i' with faults := env.faults }
    ⟨s'.daemon, _, _, _, by unfold Project.world; rw [hhost], hdaemon, ⟨rfl, rfl⟩, rfl, rfl⟩
  have hserved : SameReply
        (SameNode (serveFuse pol env (s.world i) req).2.inodes
          (serveFuse pol env (s'.world i') req').2.inodes)
        (SameFile (serveFuse pol env (s.world i) req).2.openFiles
          (serveFuse pol env (s'.world i') req').2.openFiles)
        (serveFuse pol env (s.world i) req).1 (serveFuse pol env (s'.world i') req').1 ∧
      Together (Numbered []) Any (serveFuse pol env (s.world i) req).2
        (serveFuse pol env (s'.world i') req').2 := by
    unfold serveFuse
    cases hrun : handle pol env req { s.world i with faults := env.faults } <;>
      cases hrun' : handle pol env req' { s'.world i' with faults := env.faults } <;>
      rw [hrun, hrun'] at key
    · exact key
    · exact key.elim
    · exact key.elim
    · exact ⟨key.1 ▸ .error _, key.2⟩
  obtain ⟨hreply, daemon, inodes, files, next, hworld, hinter, hnumbered, -⟩ := hserved
  have hhosts : (serveFuse pol env (s.world i) req).2.host
      = (serveFuse pol env (s'.world i') req').2.host := by rw [hworld]
  have hdaemons : Interchangeable (serveFuse pol env (s.world i) req).2.daemon
      (serveFuse pol env (s'.world i') req').2.daemon := by
    rw [hworld]
    exact hinter
  refine ⟨⟨?_, hhosts, hdaemons⟩, hs.serve hself fun hroom => (hnumbered.1 hroom).1,
    hs'.serve hself' fun hroom => ?_⟩
  · rw [hself, hself']
    exact hreply
  · rw [hworld] at hroom ⊢
    exact (hnumbered.2 hroom).1

/-- One session makes `/a` and `/b`; after a restart another finds `/b` and opens it. -/
def twoSessions : List Step :=
  [.serve ⟨0, allCopyOnWrite, Env.quiet, .create 1 (.name Name.a) 0o644 ⟨.rdwr, false, false⟩⟩,
   .serve ⟨0, allCopyOnWrite, Env.quiet, .create 1 (.name Name.b) 0o644 ⟨.rdwr, false, false⟩⟩,
   .restart .sorted .sorted,
   .serve ⟨1, allCopyOnWrite, Env.quiet, .lookup 1 (.name Name.b)⟩,
   .serve ⟨1, allCopyOnWrite, Env.quiet, .open 2 ⟨.rdwr, false, false⟩⟩,
   .serve ⟨1, allCopyOnWrite, Env.quiet, .write 2 1 0 [7]⟩,
   .serve ⟨0, allCopyOnWrite, Env.quiet, .read 3 2 0 5⟩]

/-- The same in one session, where `/b` has number 3 and the third handle. -/
def oneSession : List Step :=
  [.serve ⟨4, allCopyOnWrite, Env.quiet, .create 1 (.name Name.a) 0o644 ⟨.rdwr, false, false⟩⟩,
   .serve ⟨4, allCopyOnWrite, Env.quiet, .create 1 (.name Name.b) 0o644 ⟨.rdwr, false, false⟩⟩,
   .serve ⟨4, allCopyOnWrite, Env.quiet, .lookup 1 (.name Name.b)⟩,
   .serve ⟨4, allCopyOnWrite, Env.quiet, .open 3 ⟨.rdwr, false, false⟩⟩,
   .serve ⟨4, allCopyOnWrite, Env.quiet, .write 3 3 0 [7]⟩,
   .serve ⟨4, allCopyOnWrite, Env.quiet, .read 3 2 0 5⟩]

end Cas.Fuse
