/-
  Cas.Fuse.Secrets — files whose content no reply depends on.

  Two hosts differ in the content of the files `S` only.  A request is
  `Veiled` when the visible path that it reports or opens leads to none of
  them.  Then both hosts are answered alike, and a run of veiled requests
  reads nothing of these files (`replies_of_veiled`).
-/
import Cas.Fuse.Isolation
import Cas.Fuse.TwoRuns
import Cas.Host.Twins

namespace Cas.Fuse

open Cas.Lib Cas.Host Cas.Syncing

/-! ## §1. What both runs keep. -/

/-- The path whose node a request reports or opens. -/
def FuseRequest.subject (t : InodeTable) : FuseRequest → Option FsPath
  | .lookup parent name => named t parent name
  | .getattr ino => t.getPath ino
  | .setattr ino _ _ _ _ _ => t.getPath ino
  | .mkdir parent name _ => named t parent name
  | .symlink parent name _ => named t parent name
  | .open ino _ => t.getPath ino
  | .create parent name _ _ => named t parent name
  | _ => none

/-- The subject of the request, unless FuseOnly, leads to no file of `S`. -/
def Veiled (pol : Policy) (S : Ino → Prop) (w : World) (x : Env × FuseRequest) : Prop :=
  ∀ path, x.2.subject w.inodes = some path → pol.classify path ≠ .fuseOnly →
    ∀ follow, w.host.Clear S follow path

/-- The hosts differ in the content of `S` only, no file of `S` is open, and a visible `subject`
does not lead to one. -/
structure Kept (pol : Policy) (S : Ino → Prop) (subject : Option FsPath) (fs fs' : FileSystem)
    (files : FMap UInt64 OpenFile) : Prop where
  twins : FileSystem.Twins S fs fs'
  handles : ∀ fh file ino, files.lookup fh = some file → file.file.backing = .host ino → ¬ S ino
  clear : ∀ path, subject = some path → pol.classify path ≠ .fuseOnly →
    ∀ follow, fs.Clear S follow path

/-- After a node was made at `path`: what is there now is none of `S`. -/
def Made (pol : Policy) (S : Ino → Prop) (path : FsPath) (fs fs' : FileSystem)
    (files : FMap UInt64 OpenFile) : Prop :=
  Kept pol S none fs fs' files ∧ fs.Clear S false path

variable {pol : Policy} {S : Ino → Prop} {subject : Option FsPath} {path : FsPath}
  {fs fs' : FileSystem} {files : FMap UInt64 OpenFile} {env : Env}

theorem Kept.forget (h : Kept pol S subject fs fs' files) : Kept pol S none fs fs' files :=
  ⟨h.twins, h.handles, nofun⟩

theorem Kept.insert (h : Kept pol S subject fs fs' files) {file : OpenFile}
    (hfile : ∀ ino, file.file.backing = .host ino → ¬ S ino) (fh : UInt64) :
    Kept pol S subject fs fs' (files.insert fh file) := by
  refine ⟨h.twins, fun i f ino hf hino => ?_, h.clear⟩
  rw [lookup_insert_ite] at hf
  by_cases hi : i = fh
  · rw [if_pos hi] at hf
    cases hf
    exact hfile ino hino
  · rw [if_neg hi] at hf
    exact h.handles i f ino hf hino

theorem filesFree_kept : FilesFree (Kept pol S subject) where
  object fs fs' files fd path id hfd h fh := by
    refine h.insert (fun ino hino => ?_) fh
    have hboth : Backing.object path = .host ino := hfd.symm.trans hino
    cases hboth
  closed fs fs' files fh h := by
    refine ⟨h.twins, fun i f ino hf hino => ?_, h.clear⟩
    rw [lookup_erase_ite] at hf
    by_cases hi : i = fh
    · rw [if_pos hi] at hf
      cases hf
    · rw [if_neg hi] at hf
      exact h.handles i f ino hf hino

/-- A call that goes alike on twins. -/
theorem callsAgree_of_twins {Q : HostRel} {E : Prop} {r r' : Except Errno FileSystem}
    (hr : FileSystem.TwinCalls S r r')
    (hQ : ∀ t t', r = .ok t → FileSystem.Twins S t t' → Q t t' files) (hE : E) :
    CallsAgree (fun (_ : Unit) t t' => Q t t' files) E (r.map fun t => ((), t))
      (r'.map fun t => ((), t)) := by
  cases r with
  | ok t =>
    cases r' with
    | ok t' => exact ⟨rfl, hQ t t' rfl hr⟩
    | error errno' => exact hr.elim
  | error errno =>
    cases r' with
    | ok t' => exact hr.elim
    | error errno' => exact ⟨hr, hE⟩

/-- A call that moves no name keeps all. -/
theorem Kept.call (h : Kept pol S subject fs fs' files) {r r' : Except Errno FileSystem}
    (hr : FileSystem.TwinCalls S r r') (hshape : ∀ t, r = .ok t → FileSystem.SameShape fs t) :
    CallsAgree (fun (_ : Unit) t t' => Kept pol S subject t t' files)
      (Kept pol S subject fs fs' files) (r.map fun t => ((), t)) (r'.map fun t => ((), t)) :=
  callsAgree_of_twins hr (fun t _ ht htwins => ⟨htwins, h.handles, fun path hp hvis follow =>
    (hshape t ht).clear (h.clear path hp hvis follow)⟩) h

theorem handlesAlike_kept : HandlesAlike (Kept pol S subject) where
  read _ _ _ fh file ino h hf hb _ _ := h.twins.readIno (h.handles fh file ino hf hb) _ _
  write _ _ _ _ _ ino h _ _ f :=
    h.call (h.twins.modifyIno ino f) fun _ ht => FileSystem.sameShape_modifyIno ht
  perm _ _ _ _ _ ino h _ _ f :=
    h.call (h.twins.modifyPerm ino f) fun _ ht => FileSystem.sameShape_modifyPerm ht

/-! ## §2. Host calls. -/

theorem statsAlike_kept : StatsAlike pol (Kept pol S (some path)) path :=
  fun hvis _ _ _ h => h.twins.symlinkMetadata (h.clear path rfl hvis false)

theorem statsAlike_made : StatsAlike pol (Made pol S path) path :=
  fun _ _ _ _ h => h.1.twins.symlinkMetadata h.2

/-- A call that may move names. -/
theorem changesAlike_kept {f : FileSystem → Except Errno FileSystem}
    (hf : ∀ fs fs', FileSystem.Twins S fs fs' → FileSystem.TwinCalls S (f fs) (f fs')) :
    ChangesAlike (Kept pol S subject) (Kept pol S none) (changeHost f) :=
  agree_onHost (Q := fun _ => Kept pol S none) fun fs fs' _ h =>
    callsAgree_of_twins (hf fs fs' h.twins) (fun _ _ _ ht => ⟨ht, h.handles, nofun⟩) h.forget

/-- A call that moves no name. -/
theorem same_shapedCall {f : FileSystem → Except Errno FileSystem}
    (hf : ∀ fs fs', FileSystem.Twins S fs fs' → FileSystem.TwinCalls S (f fs) (f fs'))
    (hshape : ∀ fs t, f fs = .ok t → FileSystem.SameShape fs t) :
    Same (Beside (Kept pol S subject)) (changeHost f) (changeHost f) :=
  agree_onHost (Q := fun _ => Kept pol S subject) fun fs fs' _ h =>
    h.call (hf fs fs' h.twins) fun t => hshape fs t

/-- What an open finds or makes is none of `S`. -/
theorem agree_openFile (hvis : pol.classify path ≠ .fuseOnly) (opts : OpenOptions) :
    Agree (Beside (Kept pol S (some path)))
      (onHost fun fs => fs.openFile env.cred opts path)
      (onHost fun fs => fs.openFile env.cred opts path)
      (fun ino ino' w w' => ino = ino' ∧ Beside (fun fs fs' files => ¬ S ino ∧
        Made pol S path fs fs' files ∧
        (opts.create = false → Kept pol S (some path) fs fs' files)) w w')
      (Beside (Kept pol S (some path))) := by
  apply agree_onHost (Q := fun ino fs fs' files => ¬ S ino ∧ Made pol S path fs fs' files ∧
    (opts.create = false → Kept pol S (some path) fs fs' files))
  intro fs fs' files h
  have hclear := h.clear path rfl hvis
  have key := h.twins.openFile (hclear true) env.cred opts
  unfold CallsAgree
  cases hr : fs.openFile env.cred opts path with
  | error errno =>
    cases hr' : fs'.openFile env.cred opts path with
    | error errno' =>
      rw [hr, hr'] at key
      exact ⟨key, h⟩
    | ok r' =>
      rw [hr, hr'] at key
      exact key.elim
  | ok r =>
    cases hr' : fs'.openFile env.cred opts path with
    | error errno' =>
      rw [hr, hr'] at key
      exact key.elim
    | ok r' =>
      rw [hr, hr'] at key
      obtain ⟨hino, htwins, hfree⟩ := key
      have hkept : Kept pol S none r.2 r'.2 files := ⟨htwins, h.handles, nofun⟩
      rcases FileSystem.openFile_ok hr with hsame | ⟨hcreate, q, inode, hq, hnew⟩
      · rw [hsame] at hkept htwins
        show _ ∧ ¬ S r.1 ∧ Made pol S path r.2 r'.2 files ∧ (_ → Kept pol S (some path) r.2 r'.2 files)
        rw [hsame]
        exact ⟨hino, hfree, ⟨hkept, hclear false⟩, fun _ => ⟨htwins, h.handles, h.clear⟩⟩
      · have hmade : r.2.Clear S false path := by
          rw [hnew]
          exact h.twins.clear_addNode hq (hclear false)
        exact ⟨hino, hfree, ⟨hkept, hmade⟩, fun hno => absurd (hcreate.symm.trans hno) nofun⟩

theorem opensAlike_kept {opts : OpenOptions} (hcreate : opts.create = false) :
    OpensAlike pol env (Kept pol S (some path)) path opts where
  found hvis fs fs' files h :=
    ⟨h.twins.exists path, h.twins.readFile (h.clear path rfl hvis true)⟩
  opened hvis := by
    apply Agree.bind_eq (agree_openFile hvis opts)
    intro ino
    apply Agree.ret
    intro w w' hw
    obtain ⟨host', rfl, hfree, -, hkept⟩ := hw
    refine ⟨rfl, host', rfl, hkept hcreate, fun fh => (hkept hcreate).insert (fun i hi => ?_) fh⟩
    cases hi
    exact hfree

theorem agree_makeNode (hvis : pol.classify path ≠ .fuseOnly) (inode : Inode) :
    Agree (Beside (Kept pol S (some path))) (changeHost fun fs => fs.makeNode path inode)
      (changeHost fun fs => fs.makeNode path inode)
      (fun a a' w w' => a = a' ∧ Beside (Made pol S path) w w') (Beside (Kept pol S none)) := by
  apply agree_onHost (Q := fun _ => Made pol S path)
  intro fs fs' files h
  refine callsAgree_of_twins (h.twins.makeNode path inode) (fun t t' ht htwins => ?_) h.forget
  obtain ⟨q, hq, rfl⟩ := FileSystem.makeNode_ok ht
  exact ⟨⟨htwins, h.handles, nofun⟩, h.twins.clear_addNode hq (h.clear path rfl hvis false)⟩

/-- `mkdir` sets the mode of the directory it has made. -/
theorem makesAlike_mkdir (hvis : pol.classify path ≠ .fuseOnly) (mode : UInt32) :
    MakesAlike pol (Kept pol S (some path)) (Kept pol S none) path
      (executeMkdir env .createReal path mode) := by
  refine ⟨Made pol S path, statsAlike_made, fun _ _ _ h => h.1, ?_⟩
  apply Agree.bind_same (agree_makeNode hvis _)
  intro _
  apply agree_onHost (Q := fun _ => Made pol S path)
  intro fs fs' files h
  refine callsAgree_of_twins (h.1.twins.setPermissions path _) (fun t t' ht htwins => ?_) h.1
  exact ⟨⟨htwins, h.1.handles, nofun⟩, (FileSystem.sameShape_setPermissions ht).clear h.2⟩

theorem makesAlike_symlink (hvis : pol.classify path ≠ .fuseOnly) (target : Bytes) :
    MakesAlike pol (Kept pol S (some path)) (Kept pol S none) path
      (changeHost fun fs => fs.symlink env.cred target path) := by
  refine ⟨Made pol S path, statsAlike_made, fun _ _ _ h => h.1, ?_⟩
  by_cases htarget : target = []
  · have herror : (fun fs : FileSystem => fs.symlink env.cred target path) = fun _ =>
        .error .enoent := by
      funext fs
      exact if_pos htarget
    rw [herror]
    apply agree_onHost (Q := fun _ => Made pol S path) (T := Kept pol S none)
    exact fun fs fs' files h => ⟨rfl, h.forget⟩
  · have hmake : (fun fs : FileSystem => fs.symlink env.cred target path) = fun fs =>
        fs.makeNode path ⟨.symlink target, ⟨0o777, env.cred.uid, env.cred.gid⟩⟩ := by
      funext fs
      exact if_neg htarget
    rw [hmake]
    exact agree_makeNode hvis _

theorem makesAlike_create (hvis : pol.classify path ≠ .fuseOnly) (opts : OpenOptions) :
    MakesAlike pol (Kept pol S (some path)) (Kept pol S none) path
      (openHost env opts path >>= fun fd => addOpenFile (.passthroughReal fd)) := by
  refine ⟨Made pol S path, statsAlike_made, fun _ _ _ h => h.1, ?_⟩
  have hopen : Agree (Beside (Kept pol S (some path))) (openHost env opts path)
      (openHost env opts path) (fun fd fd' w w' => fd = fd' ∧ Beside (fun fs fs' files =>
        Made pol S path fs fs' files ∧ ∀ ino, fd.backing = .host ino → ¬ S ino) w w')
      (Beside (Kept pol S none)) := by
    apply Agree.bind_eq ((agree_openFile hvis opts).weaken (fun _ _ h => h) (fun _ _ _ _ h => h)
      fun _ _ h => h.mono fun _ _ _ hK => hK.forget)
    intro ino
    apply Agree.ret
    intro w w' hw
    obtain ⟨host', rfl, hfree, hmade, -⟩ := hw
    refine ⟨rfl, host', rfl, hmade, fun i hi => ?_⟩
    cases hi
    exact hfree
  apply Agree.bind_eq hopen
  intro fd w w' hw
  obtain ⟨host', rfl, hmade, hfree⟩ := hw
  refine ⟨rfl, host', rfl, hmade.1.insert ?_ _, hmade.2⟩
  exact hfree

/-- A `setattr` on the host's path follows a link at its end. -/
theorem same_setattrReal (hvis : pol.classify path ≠ .fuseOnly) (mode uid gid : Option UInt32)
    (size : Option UInt64) : Same (Beside (Kept pol S (some path)))
      (setattrReal env path mode uid gid size) (setattrReal env path mode uid gid size) := by
  have hperm : ∀ m, Same (Beside (Kept pol S (some path)))
      (changeHost fun fs => fs.setPermissions path m) (changeHost fun fs => fs.setPermissions path m) :=
    fun m => same_shapedCall (fun _ _ h => h.setPermissions path m)
      fun _ _ ht => FileSystem.sameShape_setPermissions ht
  have hown : Same (Beside (Kept pol S (some path))) (changeHost fun fs => fs.chown path uid gid)
      (changeHost fun fs => fs.chown path uid gid) :=
    same_shapedCall (fun _ _ h => h.chown path uid gid) fun _ _ ht => FileSystem.sameShape_chown ht
  have htrunc : ∀ n, Same (Beside (Kept pol S (some path))) (truncateReal env path n)
      (truncateReal env path n) := by
    intro n
    apply Agree.bind_eq (agree_openFile hvis _)
    intro ino
    have hlen : Same (Beside (Kept pol S (some path))) (changeHost fun fs => fs.setLenIno ino n)
        (changeHost fun fs => fs.setLenIno ino n) :=
      same_shapedCall (fun _ _ h => h.modifyIno ino _) fun _ _ ht => FileSystem.sameShape_modifyIno ht
    exact hlen.weaken (fun _ _ h => h.mono fun _ _ _ hK => hK.2.2 rfl) (fun _ _ _ _ h => h)
      fun _ _ h => h
  exact Same.bind (Same.forSome fun sz => htrunc sz.toNat) fun _ =>
    Same.bind (Same.forSome fun m => (hperm _).ignore) fun _ => Same.onlyIf hown.ignore

/-! ## §3. One request. -/

/-- What a veiled request asks of the host goes alike on both hosts. -/
theorem callsAlike_kept {t : InodeTable} (req : FuseRequest) :
    CallsAlike pol env (Kept pol S (req.subject t)) (Kept pol S none) t req := by
  have hvisible : ∀ {path}, pol.classify path = .passthrough → pol.classify path ≠ .fuseOnly := by
    intro path hpass hfuse
    rw [hpass] at hfuse
    cases hfuse
  cases req with
  | lookup parent name =>
    intro path hpath
    rw [show FuseRequest.subject t (.lookup parent name) = some path from hpath]
    exact statsAlike_kept
  | getattr ino =>
    intro path hpath
    rw [show FuseRequest.subject t (.getattr ino) = some path from hpath]
    exact statsAlike_kept
  | setattr ino mode uid gid size fh =>
    intro path hpath
    rw [show FuseRequest.subject t (.setattr ino mode uid gid size fh) = some path from hpath]
    exact ⟨statsAlike_kept, fun hpass => same_setattrReal (hvisible hpass) mode uid gid size⟩
  | readlink ino => exact fun path _ _ fs fs' files h => h.twins.readLink path
  | mkdir parent name mode =>
    intro path hpath
    rw [show FuseRequest.subject t (.mkdir parent name mode) = some path from hpath]
    exact ⟨statsAlike_kept, fun hpass => makesAlike_mkdir (hvisible hpass) mode⟩
  | unlink parent name =>
    exact fun path _ _ => changesAlike_kept fun _ _ h => h.removeFile path
  | rmdir parent name =>
    intro path _
    refine ⟨fun _ => changesAlike_kept fun _ _ h => h.removeDir path, fun _ fs fs' files h => ?_⟩
    have hreads : fs'.readDir = fs.readDir := funext h.twins.readDir
    have hloop : ∀ fuel stack, descendantsLoop fs' fuel stack = descendantsLoop fs fuel stack := by
      intro fuel
      induction fuel with
      | zero => intro stack; cases stack <;> rfl
      | succ fuel ih =>
        intro stack
        cases stack with
        | nil => rfl
        | cons dir stack =>
          unfold descendantsLoop
          rw [hreads]
          cases fs.readDir dir with
          | error errno => exact ih stack
          | ok entries => simp only [ih]
    unfold recursiveRealDescendants
    rw [hloop, h.twins.names]
  | rename parent name newparent newname =>
    exact fun src dst _ _ _ => changesAlike_kept fun _ _ h => h.rename src dst
  | symlink parent name target =>
    intro path hpath
    rw [show FuseRequest.subject t (.symlink parent name target) = some path from hpath]
    exact ⟨statsAlike_kept, fun hpass => makesAlike_symlink (hvisible hpass) target⟩
  | «open» ino flags =>
    intro path hpath
    rw [show FuseRequest.subject t (.open ino flags) = some path from hpath]
    exact opensAlike_kept rfl
  | create parent name mode flags =>
    intro path hpath
    rw [show FuseRequest.subject t (.create parent name mode flags) = some path from hpath]
    exact ⟨statsAlike_kept, fun hpass => makesAlike_create (hvisible hpass) _⟩
  | readdir ino offset capacity =>
    intro path _ fs fs' files h
    unfold realChildren
    rw [h.twins.readDir]
  | _ => trivial

/-- **One request**: the same reply, and the files of `S` stay unread. -/
theorem serveFuse_veiled {w w' : World} {x : Env × FuseRequest}
    (hw : Beside (Kept pol S none) w w') (hveiled : Veiled pol S w x) :
    (serveFuse pol x.1 w x.2).1 = (serveFuse pol x.1 w' x.2).1 ∧
      Beside (Kept pol S none) (serveFuse pol x.1 w x.2).2 (serveFuse pol x.1 w' x.2).2 := by
  apply serveFuse_alike pol x.1
    (answers_handle pol x.1 (fun _ _ _ h => h.forget) filesFree_kept handlesAlike_kept
      (callsAlike_kept x.2))
  obtain ⟨host', rfl, hkept⟩ := hw
  exact ⟨host', rfl, hkept.twins, hkept.handles, hveiled⟩

/-! ## §4. Runs. -/

/-- What the requests of a run are answered. -/
def replies (pol : Policy) : World → List (Env × FuseRequest) → List Reply
  | _, [] => []
  | w, x :: xs => (serveFuse pol x.1 w x.2).1 :: replies pol (serveFuse pol x.1 w x.2).2 xs

/-- **Runs**: requests that are all veiled get the same replies, whatever the files of `S` hold. -/
theorem replies_of_veiled {w w' : World} {xs : List (Env × FuseRequest)}
    (hw : Beside (Kept pol S none) w w') (h : StepsMeet (serveStep pol) (Veiled pol S) w xs) :
    replies pol w xs = replies pol w' xs := by
  induction xs generalizing w w' with
  | nil => rfl
  | cons x xs ih =>
    obtain ⟨hreply, hnext⟩ := serveFuse_veiled hw h.1
    show _ :: _ = _ :: _
    rw [hreply, ih hnext (h.2 _ rfl)]

/-- Just mounted, nothing is open. -/
theorem beside_mount {host host' : FileSystem} (h : FileSystem.Twins S host host')
    (daemon : Server) : Beside (Kept pol S none) (World.mount host daemon) (World.mount host' daemon) := by
  refine ⟨host', rfl, h, fun fh file ino hfile => ?_, nofun⟩
  cases hfile

end Cas.Fuse
