/-
  Cas.Fuse.Isolation — write isolation: which host nodes a request may
  change.

  `hostFootprint` names, from the request and the state before it, the
  host paths that the request acts on.  A request changes no other node
  (`untouched_serve`); a run in which every footprint is classified
  Passthrough leaves all other nodes as they were (`isolation_run`).  A
  rename can leave that set: only its source is classified
  (`not_isolated_rename`).
-/
import Cas.Fuse.Frames
import Cas.Lib.Runs

namespace Cas.Fuse

open Cas.Lib Cas.Host Cas.Syncing

/-! ## §1. What a request acts on. -/

/-- The path that a parent inode and a name stand for. -/
def World.namedPath (w : World) (parent : UInt64) (name : Component) : Option FsPath :=
  (w.inodes.getPath parent).map name.under

theorem getPath_eq (w : World) (parent : UInt64) (name : Component) :
    getPath parent name w = match w.namedPath parent name with
      | some path => .ok path w
      | none => .error (.ofErrno .enoent) w := by
  unfold World.namedPath
  cases hpath : w.inodes.getPath parent with
  | none =>
    have hrun : pathOf parent w = .error (.ofErrno .enoent) w := by
      unfold pathOf
      rw [hpath]
    exact run_bind_error hrun
  | some path =>
    have hrun : pathOf parent w = .ok path w := pathOf_ok hpath
    exact run_bind_ok hrun

theorem getPath_ok {w : World} {p : FsPath} {parent : UInt64} {name : Component}
    (hname : w.namedPath parent name = some p) : getPath parent name w = .ok p w := by
  rw [getPath_eq, hname]

/-- `p` is a name of the host file behind a descriptor. -/
def World.BehindFd (w : World) (fd : Fd) (p : FsPath) : Prop :=
  ∃ ino, fd.backing = .host ino ∧ w.host.NamedBy ino p

/-- A Passthrough operand of a request. -/
def PassthroughOperand (pol : Policy) (path : Option FsPath) (S : FsPath → Prop) : Prop :=
  ∃ q, path = some q ∧ pol.classify q = .passthrough ∧ S q

/-- The host paths whose nodes a request acts on.  A call on a path acts where the path resolves
to; a descriptor acts on every name of its file; a rename takes away and puts whole subtrees. -/
def hostFootprint (pol : Policy) (w : World) (req : FuseRequest) (p : FsPath) : Prop :=
  match req with
  | .setattr ino mode uid gid size fh =>
    match fh.bind fun fh => w.openFiles.lookup fh with
    | some file =>
      ((size.isSome ∧ file.file.writable = true) ∨ mode.isSome ∨ uid.isSome ∨ gid.isSome) ∧
        w.BehindFd file.file p
    | none =>
      (size.isSome ∨ mode.isSome ∨ uid.isSome ∨ gid.isSome) ∧
        PassthroughOperand pol (w.inodes.getPath ino) fun path => w.host.SameNodeAs path p
  | .mkdir parent name _ =>
    PassthroughOperand pol (w.namedPath parent name) fun path => w.host.NewAt false path p
  | .symlink parent name _ =>
    PassthroughOperand pol (w.namedPath parent name) fun path => w.host.NewAt false path p
  | .unlink parent name =>
    PassthroughOperand pol (w.namedPath parent name) fun path => w.host.At false path p
  | .rmdir parent name =>
    PassthroughOperand pol (w.namedPath parent name) fun path => w.host.At false path p
  | .rename parent name newparent newname =>
    PassthroughOperand pol (w.namedPath parent name) fun src =>
      ∃ dst, w.namedPath newparent newname = some dst ∧ w.host.RenameTouches src dst p
  | .create parent name _ _ =>
    PassthroughOperand pol (w.namedPath parent name) fun path => w.host.NewAt true path p
  | .write _ fh _ data =>
    data ≠ [] ∧ ∃ file, w.openFiles.lookup fh = some file ∧ file.file.writable = true ∧
      w.BehindFd file.file p
  | .copyFileRange _ _ _ _ fhOut _ _ =>
    ∃ file, w.openFiles.lookup fhOut = some file ∧ file.file.writable = true ∧
      w.BehindFd file.file p
  | _ => False

/-- Every host path that the request acts on is classified Passthrough. -/
def ActsOnPassthrough (pol : Policy) (w : World) (x : Env × FuseRequest) : Prop :=
  ∀ p, hostFootprint pol w x.2 p → pol.classify p = .passthrough

/-- The next world; a request is always answered. -/
def serveStep (pol : Policy) (w : World) (x : Env × FuseRequest) : Option World :=
  some (serveFuse pol x.1 w x.2).2

/-! ## §2. Assertions along a request. -/

/-- Up to the first host call: the host and the tables are still those of `w₀`. -/
structure Unmoved (w₀ w : World) : Prop where
  host : w.host = w₀.host
  inodes : w.inodes = w₀.inodes
  openFiles : w.openFiles = w₀.openFiles

/-- From then on: only nodes in `S` may differ. -/
def Within (S : FsPath → Prop) (w₀ w : World) : Prop :=
  FileSystem.Untouched S w₀.host w.host

/-- Between host calls that move no name. -/
structure Reshaped (S : FsPath → Prop) (w₀ w : World) : Prop where
  shape : FileSystem.SameShape w₀.host w.host
  within : Within S w₀ w

variable {S : FsPath → Prop} {w₀ : World}

theorem local_unmoved : Local (Unmoved w₀) := fun _ _ _ h => ⟨h.host, h.inodes, h.openFiles⟩

theorem hostOnly_within : HostOnly (Within S w₀) := by
  intro w w' hhost h
  unfold Within at h ⊢
  rw [hhost]
  exact h

theorem hostOnly_reshaped : HostOnly (Reshaped S w₀) := by
  intro w w' hhost h
  refine ⟨?_, hostOnly_within w w' hhost h.within⟩
  rw [hhost]
  exact h.shape

theorem Unmoved.within {w : World} (h : Unmoved w₀ w) : Within S w₀ w := by
  unfold Within
  rw [h.host]
  exact FileSystem.Untouched.refl

theorem Unmoved.reshaped {w : World} (h : Unmoved w₀ w) : Reshaped S w₀ w := by
  refine ⟨?_, h.within⟩
  rw [h.host]
  exact FileSystem.SameShape.refl

/-- A handler that keeps everything about the host stays within any set. -/
theorem Ensures.ofKeeps {α : Type} {m : FuseM α} (h : Keeps (Within S w₀) m) :
    Ensures (Unmoved w₀) m (fun _ => Within S w₀) (Within S w₀) :=
  h.weaken (fun _ h => h.within) (fun _ _ h => h) fun _ h => h

/-- Skip a step that changes neither the host nor the tables. -/
theorem Ensures.skip {α β : Type} {m : FuseM α} {k : α → FuseM β} (hm : Keeps (Unmoved w₀) m)
    (hk : ∀ a, Ensures (Unmoved w₀) (k a) (fun _ => Within S w₀) (Within S w₀)) :
    Ensures (Unmoved w₀) (m >>= k) (fun _ => Within S w₀) (Within S w₀) :=
  Ensures.after hm (fun _ h => h.within) hk

/-- After the host call only steps that leave the host alone follow. -/
theorem Ensures.finish {P : World → Prop} {α β : Type} {m : FuseM α} {k : α → FuseM β}
    (hm : Ensures P m (fun _ => Within S w₀) (Within S w₀))
    (hk : ∀ a, Keeps (Within S w₀) (k a)) :
    Ensures P (m >>= k) (fun _ => Within S w₀) (Within S w₀) :=
  Ensures.bind hm hk

theorem ensures_pathOf {β : Type} {ino : UInt64} {k : FsPath → FuseM β}
    (hk : ∀ path, w₀.inodes.getPath ino = some path →
      Ensures (Unmoved w₀) (k path) (fun _ => Within S w₀) (Within S w₀)) :
    Ensures (Unmoved w₀) (pathOf ino >>= k) (fun _ => Within S w₀) (Within S w₀) := by
  apply Ensures.bind (Q := fun path w => Unmoved w₀ w ∧ w₀.inodes.getPath ino = some path)
  · intro w hw
    unfold pathOf
    rw [hw.inodes]
    cases hpath : w₀.inodes.getPath ino with
    | none => exact hw.within
    | some path => exact ⟨hw, rfl⟩
  · exact fun path => Ensures.of_fact (hk path)

theorem ensures_getPath {β : Type} {parent : UInt64} {name : Component} {k : FsPath → FuseM β}
    (hk : ∀ path, w₀.namedPath parent name = some path →
      Ensures (Unmoved w₀) (k path) (fun _ => Within S w₀) (Within S w₀)) :
    Ensures (Unmoved w₀) (getPath parent name >>= k) (fun _ => Within S w₀) (Within S w₀) := by
  have hassoc : (getPath parent name >>= k)
      = (pathOf parent >>= fun path => k (name.under path)) := by
    funext w
    unfold getPath
    rw [run_bind, run_bind, run_bind]
    cases pathOf parent w <;> rfl
  rw [hassoc]
  apply ensures_pathOf
  intro path hpath
  apply hk
  unfold World.namedPath
  rw [hpath]
  rfl

theorem ensures_openFileOf {β : Type} {fh : UInt64} {k : OpenFile → FuseM β}
    (hk : ∀ file, w₀.openFiles.lookup fh = some file →
      Ensures (Unmoved w₀) (k file) (fun _ => Within S w₀) (Within S w₀)) :
    Ensures (Unmoved w₀) (openFileOf fh >>= k) (fun _ => Within S w₀) (Within S w₀) := by
  apply Ensures.bind (Q := fun file w => Unmoved w₀ w ∧ w₀.openFiles.lookup fh = some file)
  · intro w hw
    unfold openFileOf
    rw [hw.openFiles]
    cases hfile : w₀.openFiles.lookup fh with
    | none => exact hw.within
    | some file => exact ⟨hw, rfl⟩
  · exact fun file => Ensures.of_fact (hk file)

/-- The host call itself. -/
theorem ensures_changeHost {f : FileSystem → Except Errno FileSystem}
    (hf : ∀ fs', f w₀.host = .ok fs' → FileSystem.Untouched S w₀.host fs') :
    Ensures (Unmoved w₀) (changeHost f) (fun _ => Within S w₀) (Within S w₀) := by
  intro w hw
  cases hres : f w.host with
  | error errno =>
    rw [changeHost_error hres]
    exact hw.within
  | ok fs' =>
    rw [changeHost_ok hres]
    rw [hw.host] at hres
    exact hf fs' hres

/-- A host call that moves no name, after others of the kind. -/
theorem keeps_changeHost_reshaped {f : FileSystem → Except Errno FileSystem}
    (hf : ∀ fs fs', FileSystem.SameShape w₀.host fs → f fs = .ok fs' →
      FileSystem.SameShape fs fs' ∧ FileSystem.Untouched S fs fs') :
    Keeps (Reshaped S w₀) (changeHost f) := by
  intro w hw
  cases hres : f w.host with
  | error errno =>
    rw [changeHost_error hres]
    exact hw
  | ok fs' =>
    rw [changeHost_ok hres]
    obtain ⟨hshape, huntouched⟩ := hf w.host fs' hw.shape hres
    exact ⟨hw.shape.trans hshape, hw.within.trans huntouched⟩

/-! ## §3. Each operation stays within its footprint. -/

section Operations

variable {pol : Policy} {env : Env}

/-- The conclusion of every lemma of this section. -/
abbrev StaysWithin (S : FsPath → Prop) (w₀ : World) {α : Type} (m : FuseM α) : Prop :=
  Ensures (Unmoved w₀) m (fun _ => Within S w₀) (Within S w₀)

theorem PassthroughOperand.of {path : Option FsPath} {q : FsPath} {T : FsPath → Prop}
    (hpath : path = some q) (hmode : pol.classify q = .passthrough) (hT : T q) :
    PassthroughOperand pol path T := ⟨q, hpath, hmode, hT⟩

theorem staysWithin_unlink (parent : UInt64) (name : Component) :
    StaysWithin (hostFootprint pol w₀ (.unlink parent name)) w₀ (unlink pol env parent name) := by
  apply ensures_getPath
  intro path hpath
  apply Ensures.skip (keeps_connectDaemon local_unmoved.messages.steady)
  intro _
  apply Ensures.finish _ fun _ => Keeps.ret
  unfold decideUnlink loadUnlinkState
  cases hmode : pol.classify path with
  | passthrough =>
    apply ensures_changeHost
    intro fs' hres
    apply (FileSystem.untouched_removeFile hres).mono
    exact fun p hp => PassthroughOperand.of hpath hmode hp
  | fuseOnly | copyOnWrite =>
    exact Ensures.ofKeeps (keeps_whiteout env hostOnly_within.messages.edits path)

theorem staysWithin_rmdir (parent : UInt64) (name : Component) :
    StaysWithin (hostFootprint pol w₀ (.rmdir parent name)) w₀ (rmdir pol env parent name) := by
  apply ensures_getPath
  intro path hpath
  apply Ensures.skip (keeps_connectDaemon local_unmoved.messages.steady)
  intro _
  apply Ensures.skip (keeps_peekHost _)
  intro descendants
  apply Ensures.finish _ fun _ => Keeps.ret
  unfold decideRmdir loadRmdirState
  cases hmode : pol.classify path with
  | passthrough =>
    apply ensures_changeHost
    intro fs' hres
    apply (FileSystem.untouched_removeDir hres).mono
    exact fun p hp => PassthroughOperand.of hpath hmode hp
  | fuseOnly | copyOnWrite =>
    exact Ensures.ofKeeps (keeps_whiteoutRecursive env hostOnly_within.messages.edits path descendants)

theorem decideRename_real {state : RenameState} (h : decideRename state = .renameReal) :
    state.accessMode = .passthrough := by
  unfold decideRename at h
  cases hmode : state.accessMode with
  | passthrough => rfl
  | fuseOnly | copyOnWrite =>
    simp only [hmode] at h
    split at h <;> cases h

theorem staysWithin_rename (parent : UInt64) (name : Component) (newparent : UInt64)
    (newname : Component) :
    StaysWithin (hostFootprint pol w₀ (.rename parent name newparent newname)) w₀
      (rename pol env parent name newparent newname) := by
  apply ensures_getPath
  intro src hsrc
  apply ensures_getPath
  intro dst hdst
  apply Ensures.skip (keeps_connectDaemon local_unmoved.messages.steady)
  intro _
  apply Ensures.bind (Q := fun state w => Unmoved w₀ w ∧ state.accessMode = pol.classify src)
  · apply Ensures.after (keeps_call env local_unmoved.messages _ _ (by trivial)) fun _ h => h.within
    intro srcEntry
    apply Ensures.after (keeps_call env local_unmoved.messages _ _ (by trivial)) fun _ h => h.within
    exact fun _ => Ensures.ret fun _ h => ⟨h, rfl⟩
  intro state
  apply Ensures.of_fact
  intro hstate
  apply Ensures.finish _ fun _ => Keeps.ret
  cases hdec : decideRename state with
  | renameReal =>
    have hmode : pol.classify src = .passthrough := by
      rw [← hstate]
      exact decideRename_real hdec
    apply ensures_changeHost
    intro fs' hres
    apply (FileSystem.untouched_rename hres).mono
    exact fun p hp => PassthroughOperand.of hsrc hmode ⟨dst, hdst, hp⟩
  | renameFuseFileOrSymlink | renameFuseTree =>
    exact Ensures.ofKeeps (keeps_renameFuse env hostOnly_within.messages.edits (by decide) src dst)

theorem staysWithin_symlink (parent : UInt64) (name : Component) (target : Bytes) :
    StaysWithin (hostFootprint pol w₀ (.symlink parent name target)) w₀
      (symlink pol env parent name target) := by
  apply ensures_getPath
  intro path hpath
  apply Ensures.skip (keeps_connectDaemon local_unmoved.messages.steady)
  intro _
  apply Ensures.finish _ fun _ =>
    keeps_entryReply pol env hostOnly_within.messages.steady hostOnly_within.tables path
  cases hmode : pol.classify path with
  | passthrough =>
    apply ensures_changeHost
    intro fs' hres
    unfold FileSystem.symlink at hres
    split at hres
    · cases hres
    · apply (FileSystem.untouched_makeNode hres).mono
      exact fun p hp => PassthroughOperand.of hpath hmode hp
  | fuseOnly | copyOnWrite =>
    exact Ensures.ofKeeps
      (keeps_symlinkFuse env hostOnly_within.messages.edits (by decide) path target _)

/-- The new directory is the only node that `create_dir` and `set_permissions` touch. -/
theorem staysWithin_executeMkdir_real {path : FsPath} {mode : UInt32}
    (hS : ∀ p, w₀.host.NewAt false path p → S p) :
    StaysWithin S w₀ (executeMkdir env .createReal path mode) := by
  apply Ensures.bind (Q := fun _ w => ∃ q inode, w₀.host.NewAt false path q ∧
    inode.content = .dir ∧ w.host = w₀.host.addNode q inode)
  · intro w hw
    cases hres : w.host.createDir env.cred path with
    | error errno =>
      rw [changeHost_error hres]
      exact hw.within
    | ok fs' =>
      rw [changeHost_ok hres]
      rw [hw.host] at hres
      obtain ⟨q, hq, rfl⟩ := FileSystem.makeNode_ok hres
      exact ⟨q, _, hq, rfl, rfl⟩
  · intro _ w hw
    obtain ⟨q, inode, hq, hdir, hhost⟩ := hw
    have hmade : FileSystem.Untouched S w₀.host w.host := by
      rw [hhost]
      apply (FileSystem.untouched_addNode q inode).mono
      intro p hp
      subst hp
      exact hS p hq
    cases hres : w.host.setPermissions path (mode &&& 0o7777) with
    | error errno =>
      rw [changeHost_error hres]
      exact hmade
    | ok fs' =>
      rw [changeHost_ok hres]
      apply hmade.trans
      apply (FileSystem.untouched_setPermissions hres).mono
      intro p hp
      rw [hhost] at hp
      obtain rfl : p = q := FileSystem.sameNodeAs_created hq hdir hp
      exact hS p hq

theorem staysWithin_mkdir (parent : UInt64) (name : Component) (mode : UInt32) :
    StaysWithin (hostFootprint pol w₀ (.mkdir parent name mode)) w₀
      (mkdir pol env parent name mode) := by
  apply ensures_getPath
  intro path hpath
  apply Ensures.skip (keeps_connectDaemon local_unmoved.messages.steady)
  intro _
  apply Ensures.finish
  · unfold decideMkdir loadMkdirState
    cases hmode : pol.classify path with
    | passthrough =>
      apply staysWithin_executeMkdir_real
      exact fun p hp => PassthroughOperand.of hpath hmode hp
    | fuseOnly | copyOnWrite =>
      exact Ensures.ofKeeps (keeps_createDaemon env hostOnly_within.messages.edits path mode)
  · exact fun _ => keeps_afterMkdir pol env hostOnly_within.messages.steady hostOnly_within.tables path mode

theorem staysWithin_create (parent : UInt64) (name : Component) (mode : UInt32)
    (flags : OpenFlags) :
    StaysWithin (hostFootprint pol w₀ (.create parent name mode flags)) w₀
      (create pol env parent name mode flags) := by
  apply ensures_getPath
  intro path hpath
  apply Ensures.skip (keeps_connectDaemon local_unmoved.messages.steady)
  intro _
  apply Ensures.finish
  · unfold decideCreate loadCreateState
    cases hmode : pol.classify path with
    | passthrough =>
      apply Ensures.finish _ fun _ => Keeps.ret
      apply Ensures.finish _ fun _ => Keeps.ret
      intro w hw
      cases hres : w.host.openFile env.cred { flags.options with create := true, mode } path with
      | error errno =>
        rw [onHost_error hres]
        exact hw.within
      | ok r =>
        obtain ⟨ino, fs'⟩ := r
        rw [onHost_ok hres]
        rw [hw.host] at hres
        apply (FileSystem.untouched_openFile hres).mono
        exact fun p hp => PassthroughOperand.of hpath hmode hp.2
    | fuseOnly | copyOnWrite =>
      exact Ensures.ofKeeps
        (keeps_createObject env hostOnly_within.messages.objects
          (hostOnly_within.messages.file env path (typeBits_regular 0 mode _ _ _)) mode flags)
  · exact fun file =>
      keeps_afterCreate pol env hostOnly_within.messages.steady hostOnly_within.tables file path mode

/-! ## §4. Operations through a handle. -/

theorem staysWithin_writeAt {fd : Fd} {offset : Nat} {data : Bytes}
    (hS : ∀ p, data ≠ [] → fd.writable = true → w₀.BehindFd fd p → S p) :
    StaysWithin S w₀ (fd.writeAt offset data) := by
  unfold Fd.writeAt
  split
  · exact Ensures.ofKeeps Keeps.ret
  · next hdata =>
    apply Ensures.finish _ fun _ => Keeps.ret
    unfold Fd.write
    split
    · exact Ensures.ofKeeps Keeps.fail
    · next hw =>
      cases hback : fd.backing with
      | host ino =>
        apply ensures_changeHost
        intro fs' hres
        apply (FileSystem.untouched_modifyIno hres).mono
        exact fun p hp => hS p hdata (by simpa using hw) ⟨ino, hback, hp⟩
      | object path => exact Ensures.ofKeeps (keeps_onObjects hostOnly_within.messages.objects _)

theorem staysWithin_write (ino fh : UInt64) (offset : Nat) (data : Bytes) :
    StaysWithin (hostFootprint pol w₀ (.write ino fh offset data)) w₀
      (write ino fh offset data) := by
  apply Ensures.skip (keeps_connectDaemon local_unmoved.messages.steady)
  intro _
  apply Ensures.skip (keeps_pathOf ino)
  intro _
  apply ensures_openFileOf
  intro file hfile
  apply Ensures.finish _ fun _ => Keeps.ret
  apply staysWithin_writeAt
  exact fun p hdata hw hp => ⟨hdata, file, hfile, hw, hp⟩

theorem staysWithin_copyFileRange (inoIn fhIn : UInt64) (offsetIn : Nat) (inoOut fhOut : UInt64)
    (offsetOut len : Nat) :
    StaysWithin (hostFootprint pol w₀
      (.copyFileRange inoIn fhIn offsetIn inoOut fhOut offsetOut len)) w₀
      (copyFileRange inoIn fhIn offsetIn inoOut fhOut offsetOut len) := by
  apply Ensures.skip (keeps_pathOf inoIn)
  intro _
  apply Ensures.skip (keeps_pathOf inoOut)
  intro _
  apply Ensures.skip (keeps_connectDaemon local_unmoved.messages.steady)
  intro _
  apply Ensures.skip (keeps_openFileOf fhIn)
  intro input
  apply Ensures.skip (keeps_readAt _ _ _)
  intro data
  apply ensures_openFileOf
  intro file hfile
  apply Ensures.finish _ fun _ => Keeps.ret
  apply staysWithin_writeAt
  exact fun p _ hw hp => ⟨file, hfile, hw, hp⟩

/-- `set_len`, `fchmod` and `fchown` act on the file behind the descriptor and move no name. -/
theorem staysWithin_setattrOpenHandle {fd : Fd} {mode uid gid : Option UInt32}
    {size : Option UInt64}
    (hS : ∀ p, ((size.isSome ∧ fd.writable = true) ∨ mode.isSome ∨ uid.isSome ∨ gid.isSome) →
      w₀.BehindFd fd p → S p) :
    StaysWithin S w₀ (setattrOpenHandle fd mode uid gid size) := by
  have hmsg : Messages (Reshaped S w₀) := hostOnly_reshaped.messages
  -- what is behind the descriptor is the same at every call
  have hbehind : ∀ {ino fs}, fd.backing = .host ino → FileSystem.SameShape w₀.host fs →
      ((size.isSome ∧ fd.writable = true) ∨ mode.isSome ∨ uid.isSome ∨ gid.isSome) →
      ∀ p, fs.NamedBy ino p → S p := by
    intro ino fs hback hshape hreq p hp
    apply hS p hreq
    refine ⟨ino, hback, ?_⟩
    unfold FileSystem.NamedBy at hp ⊢
    rw [← hshape.names]
    exact hp
  have key : Keeps (Reshaped S w₀) (setattrOpenHandle fd mode uid gid size) := by
    apply Keeps.bind
    · cases size with
      | none => exact Keeps.ret
      | some sz =>
        show Keeps _ (fd.setLen sz.toNat)
        unfold Fd.setLen
        split
        · exact Keeps.fail
        · next hw =>
          cases hback : fd.backing with
          | object path => exact keeps_onObjects hmsg.objects _
          | host ino =>
            apply keeps_changeHost_reshaped
            intro fs fs' hshape hres
            refine ⟨FileSystem.sameShape_modifyIno hres, ?_⟩
            apply (FileSystem.untouched_modifyIno hres).mono
            exact hbehind hback hshape (Or.inl ⟨rfl, by simpa using hw⟩)
    · intro _
      apply Keeps.bind
      · cases mode with
        | none => exact Keeps.ret
        | some m =>
          apply Keeps.ignore
          unfold Fd.setPermissions
          cases hback : fd.backing with
          | object path => exact Keeps.ret
          | host ino =>
            apply keeps_changeHost_reshaped
            intro fs fs' hshape hres
            refine ⟨FileSystem.sameShape_modifyPerm hres, ?_⟩
            apply (FileSystem.untouched_modifyPerm hres).mono
            exact hbehind hback hshape (Or.inr (Or.inl rfl))
      · intro _
        cases hany : mode.isSome || uid.isSome || gid.isSome with
        | false => exact Keeps.ret
        | true =>
          apply Keeps.ignore
          unfold Fd.chown
          cases hback : fd.backing with
          | object path => exact Keeps.ret
          | host ino =>
            apply keeps_changeHost_reshaped
            intro fs fs' hshape hres
            refine ⟨FileSystem.sameShape_modifyPerm hres, ?_⟩
            apply (FileSystem.untouched_modifyPerm hres).mono
            apply hbehind hback hshape
            right
            simpa [or_assoc] using hany
  exact key.weaken (fun _ h => h.reshaped) (fun _ _ h => h.within) fun _ h => h.within

/-- The same on a path: every call follows the path to one and the same node. -/
theorem staysWithin_setattrReal {path : FsPath} {mode uid gid : Option UInt32}
    {size : Option UInt64}
    (hS : ∀ p, (size.isSome ∨ mode.isSome ∨ uid.isSome ∨ gid.isSome) →
      w₀.host.SameNodeAs path p → S p) :
    StaysWithin S w₀ (setattrReal env path mode uid gid size) := by
  have key : Keeps (Reshaped S w₀) (setattrReal env path mode uid gid size) := by
    apply Keeps.bind
    · cases size with
      | none => exact Keeps.ret
      | some sz =>
        apply Ensures.bind (Q := fun ino w => Reshaped S w₀ w ∧
          ∃ q, w₀.host.At true path q ∧ w₀.host.NamedBy ino q)
        · intro w hw
          cases hres : w.host.openFile env.cred
            { read := false, write := true, append := false, create := false, mode := 0 } path with
          | error errno =>
            rw [onHost_error hres]
            exact hw
          | ok r =>
            obtain ⟨ino, fs'⟩ := r
            rw [onHost_ok hres]
            obtain ⟨rfl, q, hat, hname⟩ := FileSystem.openFile_existing rfl hres
            unfold FileSystem.At at hat
            unfold FileSystem.NamedBy at hname
            rw [hw.shape.locate] at hat
            rw [hw.shape.names] at hname
            exact ⟨hw, q, hat, hname⟩
        · intro ino
          apply Ensures.of_fact
          intro hino
          obtain ⟨q, hat, hname⟩ := hino
          apply keeps_changeHost_reshaped
          intro fs fs' hshape hres
          refine ⟨FileSystem.sameShape_modifyIno hres, ?_⟩
          apply (FileSystem.untouched_modifyIno hres).mono
          intro p hp
          unfold FileSystem.NamedBy at hp
          rw [hshape.names] at hp
          exact hS p (Or.inl rfl) ⟨q, ino, hat, hname, hp⟩
    · intro _
      apply Keeps.bind
      · cases mode with
        | none => exact Keeps.ret
        | some m =>
          apply Keeps.ignore
          apply keeps_changeHost_reshaped
          intro fs fs' hshape hres
          refine ⟨FileSystem.sameShape_setPermissions hres, ?_⟩
          apply (FileSystem.untouched_setPermissions hres).mono
          exact fun p hp => hS p (Or.inr (Or.inl rfl)) (hshape.sameNodeAs hp)
      · intro _
        cases hany : mode.isSome || uid.isSome || gid.isSome with
        | false => exact Keeps.ret
        | true =>
          apply Keeps.ignore
          apply keeps_changeHost_reshaped
          intro fs fs' hshape hres
          refine ⟨FileSystem.sameShape_chown hres, ?_⟩
          apply (FileSystem.untouched_chown hres).mono
          intro p hp
          refine hS p (Or.inr ?_) (hshape.sameNodeAs hp)
          simpa [or_assoc] using hany
  exact key.weaken (fun _ h => h.reshaped) (fun _ _ h => h.within) fun _ h => h.within

theorem staysWithin_setattr (ino : UInt64) (mode uid gid : Option UInt32) (size : Option UInt64)
    (fh : Option UInt64) :
    StaysWithin (hostFootprint pol w₀ (.setattr ino mode uid gid size fh)) w₀
      (setattr pol env ino mode uid gid size fh) := by
  apply ensures_pathOf
  intro path hpath
  apply Ensures.skip (keeps_connectDaemon local_unmoved.messages.steady)
  intro _
  apply Ensures.bind (Q := fun file w => Unmoved w₀ w ∧
    file = fh.bind fun fh => w₀.openFiles.lookup fh)
  · intro w hw
    refine ⟨hw, ?_⟩
    rw [hw.openFiles]
  · intro file
    apply Ensures.of_fact
    intro hfile
    apply Ensures.finish _ fun _ =>
      keeps_attrReply pol env hostOnly_within.messages.steady hostOnly_within.tables path
    cases hlook : fh.bind fun fh => w₀.openFiles.lookup fh with
    | some f =>
      have hfh : fh.isSome = true := by
        cases fh with
        | none => cases hlook
        | some _ => rfl
      rw [hlook] at hfile
      rw [hfile]
      unfold decideSetattr loadSetattrState
      rw [hfh]
      apply staysWithin_setattrOpenHandle
      intro p hreq hp
      unfold hostFootprint
      simp only [hlook]
      exact ⟨hreq, hp⟩
    | none =>
      rw [hlook] at hfile
      rw [hfile]
      unfold decideSetattr loadSetattrState
      simp only [Option.isSome_none, Bool.and_false, Bool.false_eq_true, if_false]
      cases hmode : pol.classify path with
      | passthrough =>
        apply staysWithin_setattrReal
        intro p hreq hp
        unfold hostFootprint
        simp only [hlook]
        exact ⟨hreq, PassthroughOperand.of hpath hmode hp⟩
      | fuseOnly | copyOnWrite =>
        exact Ensures.ofKeeps (keeps_setattrMeta env hostOnly_within.messages path mode uid gid size)

/-! ## §5. A request, and a run. -/

theorem staysWithin_handle (req : FuseRequest) :
    StaysWithin (hostFootprint pol w₀ req) w₀ (handle pol env req) := by
  have hm : Messages (Within (hostFootprint pol w₀ req) w₀) := hostOnly_within.messages
  have ht : Tables (Within (hostFootprint pol w₀ req) w₀) := hostOnly_within.tables
  cases req with
  | lookup parent name =>
    exact Ensures.ofKeeps (Keeps.bind (keeps_getPath parent name)
      fun path => keeps_entryReply pol env hm.steady ht path)
  | getattr ino =>
    exact Ensures.ofKeeps (Keeps.bind (keeps_pathOf ino)
      fun path => keeps_attrReply pol env hm.steady ht path)
  | setattr ino mode uid gid size fh => exact staysWithin_setattr ino mode uid gid size fh
  | readlink ino => exact Ensures.ofKeeps (keeps_readlink pol env hm.steady ino)
  | mkdir parent name mode => exact staysWithin_mkdir parent name mode
  | unlink parent name => exact staysWithin_unlink parent name
  | rmdir parent name => exact staysWithin_rmdir parent name
  | rename parent name newparent newname => exact staysWithin_rename parent name newparent newname
  | symlink parent name target => exact staysWithin_symlink parent name target
  | link ino newparent newname => exact Ensures.ofKeeps Keeps.fail
  | «open» ino flags => exact Ensures.ofKeeps (keeps_open pol env ht hm ino flags)
  | create parent name mode flags => exact staysWithin_create parent name mode flags
  | read ino fh offset size => exact Ensures.ofKeeps (keeps_read hm.steady ino fh offset size)
  | write ino fh offset data => exact staysWithin_write ino fh offset data
  | copyFileRange inoIn fhIn offsetIn inoOut fhOut offsetOut len =>
    exact staysWithin_copyFileRange inoIn fhIn offsetIn inoOut fhOut offsetOut len
  | flush fh | fsync fh => exact Ensures.ofKeeps (keeps_flushToDaemon hm.steady fh)
  | release fh flush => exact Ensures.ofKeeps (keeps_release hm.steady ht fh flush)
  | opendir ino | access ino =>
    exact Ensures.ofKeeps (Keeps.bind (keeps_pathOf ino) fun _ => Keeps.ret)
  | readdir ino offset capacity =>
    exact Ensures.ofKeeps (keeps_readdir pol env hm.steady ht ino offset capacity)

end Operations

/-- A request changes no host node outside its footprint. -/
theorem untouched_serve (pol : Policy) (env : Env) (w : World) (req : FuseRequest) :
    FileSystem.Untouched (hostFootprint pol w req) w.host (serveFuse pol env w req).2.host := by
  have hstart : Unmoved w { w with faults := env.faults } := ⟨rfl, rfl, rfl⟩
  have hstays : StaysWithin (hostFootprint pol w req) w (handle pol env req) :=
    staysWithin_handle req
  have key := hstays _ hstart
  unfold serveFuse
  cases hres : handle pol env req { w with faults := env.faults } with
  | ok reply w' =>
    rw [hres] at key
    exact key
  | error err w' =>
    rw [hres] at key
    exact key

/-- Every node that is not Passthrough is as it was at the start. -/
def KeepsProtected (pol : Policy) (start w : World) : Prop :=
  ∀ p, pol.classify p ≠ .passthrough → w.host.node p = start.host.node p

/-- Along a run whose requests all act on Passthrough paths, no other host node ever changes. -/
theorem isolation_run (pol : Policy) (host : FileSystem) (daemon : Server)
    (xs : List (Env × FuseRequest))
    (h : StepsMeet (serveStep pol) (ActsOnPassthrough pol) (World.mount host daemon) xs) :
    AlwaysOn (serveStep pol) (KeepsProtected pol (World.mount host daemon))
      (World.mount host daemon) xs := by
  have hstep : ∀ w x w', KeepsProtected pol (World.mount host daemon) w →
      ActsOnPassthrough pol w x → serveStep pol w x = some w' →
      KeepsProtected pol (World.mount host daemon) w' := by
    intro w x w' hw hguard hs p hp
    cases hs
    rw [← hw p hp]
    apply untouched_serve pol x.1 w x.2
    exact fun hfoot => hp (hguard p hfoot)
  exact steps_of_guarded hstep (fun _ _ => rfl) h

/-! ## §6. A run that stays within, and a rename that does not. -/

/-- Every path is FuseOnly. -/
def allFuseOnly : Policy where
  classify _ := .fuseOnly
  shouldLog _ := false

/-- `/a` and what is below it is Passthrough, the rest CopyOnWrite. -/
def aPassthrough : Policy where
  classify p := if [Name.a] <+: p then .passthrough else .copyOnWrite
  shouldLog _ := false

/-- A root directory with two files, `/a` and `/b`. -/
def twoFiles : FileSystem :=
  FileSystem.ofMap <| Finmap.insert [] ⟨.dir, ⟨0o755, 0, 0⟩⟩ <|
    Finmap.insert [Name.a] ⟨.file [1], ⟨0o644, 0, 0⟩⟩ <|
      Finmap.singleton [Name.b] ⟨.file [2], ⟨0o644, 0, 0⟩⟩

def removeAndCreateA : List (Env × FuseRequest) :=
  [(Env.quiet, .unlink 1 (.name Name.a)),
    (Env.quiet, .create 1 (.name Name.a) 0o644 ⟨.rdwr, false, false⟩)]

/-- Removing and creating `/a` leaves `/b` alone. -/
theorem isolation_run_remove_create :
    AlwaysOn (serveStep aPassthrough)
      (KeepsProtected aPassthrough (World.mount twoFiles (Server.init "s")))
      (World.mount twoFiles (Server.init "s")) removeAndCreateA := by
  apply isolation_run
  refine ⟨?_, fun w' hw' => ⟨?_, fun _ _ => trivial⟩⟩
  · intro p hp
    obtain ⟨q, hq, -, hat⟩ := hp
    cases hq
    have hloc : (World.mount twoFiles (Server.init "s")).host.locate false [Name.a]
        = .ok [Name.a] := by decide
    cases hloc.symm.trans hat
    decide
  · cases hw'
    intro p hp
    obtain ⟨q, hq, -, hat, -⟩ := hp
    cases hq
    have hloc : (serveFuse aPassthrough Env.quiet (World.mount twoFiles (Server.init "s"))
        (.unlink 1 (.name Name.a))).2.host.locate true [Name.a] = .ok [Name.a] := by decide
    cases hloc.symm.trans hat
    decide

/-- `rename(/a, /b)`: the source is Passthrough, so the host renames, and the CopyOnWrite file
`/b` is replaced. -/
theorem not_isolated_rename :
    ¬ ∀ (pol : Policy) (host : FileSystem) (daemon : Server) (xs : List (Env × FuseRequest)),
      AlwaysOn (serveStep pol) (KeepsProtected pol (World.mount host daemon))
        (World.mount host daemon) xs := by
  intro h
  have key := h aPassthrough twoFiles (Server.init "s")
    [(Env.quiet, .rename 1 (.name Name.a) 1 (.name Name.b))] _ (List.prefix_refl _) _ rfl
    [Name.b] (by decide)
  revert key
  decide

end Cas.Fuse
