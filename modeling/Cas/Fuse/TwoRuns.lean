/-
  Cas.Fuse.TwoRuns — one request served beside itself on two hosts.

  The handlers, each with the host calls it makes as hypotheses: when
  these go alike on both hosts, the replies are the same and the worlds
  are side by side again (`answers_handle`, `serveFuse_alike`).
-/
import Cas.Fuse.Beside

namespace Cas.Fuse

open Cas.Lib Cas.Host Cas.Syncing

variable {R T : HostRel} {α : Type} (pol : Policy) (env : Env) {path : FsPath} {t : InodeTable}

/-! ## §1. Requests. -/

/-- From worlds that `R` relates the same reply, and worlds that `T` relates. -/
def Answers (R : HostRel) (t : InodeTable) (T : HostRel) (m : FuseM Reply) : Prop :=
  Agree (Start R t) m m (fun a a' w w' => a = a' ∧ Beside T w w') (Beside T)

/-- The same reply, and worlds that `T` relates, whatever the inode table. -/
def Replies (R T : HostRel) (m : FuseM Reply) : Prop :=
  Agree (Beside R) m m (fun a a' w w' => a = a' ∧ Beside T w w') (Beside T)

/-- The inode named by the parent and the component. -/
def named (t : InodeTable) (parent : UInt64) (name : Component) : Option FsPath :=
  (t.getPath parent).map name.under

section Requests

variable (hRT : ∀ fs fs' files, R fs fs' files → T fs fs' files) {ino parent : UInt64}
  {name : Component}

theorem replies_of_same {m : FuseM Reply} (h : Same (Beside R) m m)
    (hRT : ∀ fs fs' files, R fs fs' files → T fs fs' files) : Replies R T m :=
  h.weaken (fun _ _ h => h) (fun _ _ _ _ h => ⟨h.1, h.2.mono hRT⟩) fun _ _ h => h.mono hRT

include hRT

theorem Answers.ofIno {k : FsPath → FuseM Reply}
    (hk : ∀ path, t.getPath ino = some path → Replies R T (k path)) :
    Answers R t T (pathOf ino >>= k) :=
  agree_pathOf (fun path hpath => start_of_agree (hk path hpath)) fun _ _ h => h.mono hRT

theorem Answers.ofName {k : FsPath → FuseM Reply}
    (hk : ∀ path, named t parent name = some path → Replies R T (k path)) :
    Answers R t T (getPath parent name >>= k) :=
  agree_getPath (fun path hpath => start_of_agree (hk path hpath)) fun _ _ h => h.mono hRT

omit hRT in
theorem Replies.after {m : FuseM α} {k : α → FuseM Reply} (hm : Same (Beside R) m m)
    (hRT : ∀ fs fs' files, R fs fs' files → T fs fs' files) (hk : ∀ a, Replies R T (k a)) :
    Replies R T (m >>= k) :=
  Agree.bind_same (hm.weaken (fun _ _ h => h) (fun _ _ _ _ h => h) fun _ _ h => h.mono hRT) hk

theorem answers_lookup
    (hstat : ∀ path, named t parent name = some path → StatsAlike pol R path) :
    Answers R t T (lookup pol env parent name) :=
  Answers.ofName hRT fun path hpath => replies_of_same (same_entryReply pol env (hstat path hpath)) hRT

theorem answers_getattr (hstat : ∀ path, t.getPath ino = some path → StatsAlike pol R path) :
    Answers R t T (getattr pol env ino) :=
  Answers.ofIno hRT fun path hpath => replies_of_same (same_attrReply pol env (hstat path hpath)) hRT

omit hRT in
theorem decideReadlink_fuseOnly (path : FsPath) (entry : Option FuseEntry) :
    decideReadlink ⟨.fuseOnly, path, entry⟩ ≠ .useReal := by
  unfold decideReadlink
  simp only
  split <;> nofun

omit hRT in
/-- **readlink** asks the host when the entry does not decide. -/
theorem agree_readlinkPath {entry : Option FuseEntry}
    (hlink : decideReadlink ⟨pol.classify path, path, entry⟩ = .useReal →
      ∀ fs fs' files, R fs fs' files → fs'.readLink path = fs.readLink path) :
    Agree (Knowing (EntryIs path entry) R) (do
      connectDaemon
      let state ← loadReadlinkState pol env path
      let data ← executeReadlink env (decideReadlink state) path
      pure (Reply.data data)) (do
      connectDaemon
      let state ← loadReadlinkState pol env path
      let data ← executeReadlink env (decideReadlink state) path
      pure (Reply.data data)) (fun a a' w w' => a = a' ∧ Beside R w w') (Beside R) := by
  apply Agree.bind_same ((Same.knowing same_connectDaemon (keeps_connectDaemon steady_entryIs)).weaken
    (fun _ _ hw => hw) (fun _ _ _ _ hw => hw) fun _ _ hw => hw.1)
  intro _
  have hload : Agree (Knowing (EntryIs path entry) R) (loadReadlinkState pol env path)
      (loadReadlinkState pol env path)
      (fun state state' w w' => state = state' ∧ state = ⟨pol.classify path, path, entry⟩ ∧
        Beside R w w') (Beside R) := by
    apply Agree.bind_eq (agree_getEntry env path entry)
    intro loaded
    apply Agree.of_fact
    intro hloaded
    rw [hloaded]
    exact Agree.ret fun _ _ hw => ⟨rfl, rfl, hw.1⟩
  apply Agree.bind_eq hload
  intro state
  apply Agree.of_fact
  intro hstate
  subst hstate
  apply Same.bind _ fun _ => Same.ret
  cases hdecide : decideReadlink ⟨pol.classify path, path, entry⟩ with
  | useFuse => exact Same.bind (same_call env _ _ (by exact not_false)) fun _ => Same.ret
  | notFound => exact Same.fail
  | useReal => exact same_readHost (hlink hdecide)

theorem answers_readlink (hlink : ∀ path, t.getPath ino = some path →
    pol.classify path ≠ .fuseOnly → ∀ fs fs' files, R fs fs' files →
      fs'.readLink path = fs.readLink path) :
    Answers R t T (readlink pol env ino) := by
  apply Answers.ofIno hRT
  intro path hpath
  apply replies_of_same _ hRT
  intro w w' hw
  refine agree_readlinkPath pol env (fun huse => hlink path hpath fun hmode => ?_) w w' ⟨hw, rfl⟩
  exact decideReadlink_fuseOnly path _ (hmode ▸ huse)

omit hRT in
/-- What `setattr` does before it reports. -/
def setattrSteps (path : FsPath) (mode uid gid : Option UInt32) (size : Option UInt64)
    (fh : Option UInt64) : FuseM Unit := do
  connectDaemon
  let file ← openFile? fh
  applySetattr env (decideSetattr (loadSetattrState pol path fh.isSome file.isSome mode uid gid
    size)) path file mode uid gid size

omit hRT in
theorem setattr_eq (ino : UInt64) (mode uid gid : Option UInt32) (size : Option UInt64)
    (fh : Option UInt64) : setattr pol env ino mode uid gid size fh = (pathOf ino >>= fun path =>
      setattrSteps pol env path mode uid gid size fh >>= fun _ => attrReply pol env path) := by
  unfold setattr setattrSteps
  simp only [bind_assoc]

omit hRT in
/-- `setattr` on a path or a handle. -/
theorem same_setattrSteps (hh : HandlesAlike R) (mode uid gid : Option UInt32)
    (size : Option UInt64) (fh : Option UInt64)
    (hreal : pol.classify path = .passthrough →
      Same (Beside R) (setattrReal env path mode uid gid size)
        (setattrReal env path mode uid gid size)) :
    Same (Beside R) (setattrSteps pol env path mode uid gid size fh)
      (setattrSteps pol env path mode uid gid size fh) := by
  apply Same.bind same_connectDaemon
  intro _
  have hfile : Agree (Beside R) (openFile? fh) (openFile? fh)
      (fun file file' w w' => file = file' ∧ Beside (fun fs fs' files => R fs fs' files ∧
        file = fh.bind fun fh => files.lookup fh) w w') (Beside R) := by
    intro w w' h
    obtain ⟨host', rfl, hw⟩ := h
    exact ⟨rfl, host', rfl, hw, rfl⟩
  apply Agree.bind_eq hfile
  intro file
  have hleft : ∀ w w', Beside (fun fs fs' files => R fs fs' files ∧
      file = fh.bind fun fh => files.lookup fh) w w' → Beside R w w' :=
    fun _ _ h => h.mono fun _ _ _ hR => hR.1
  cases hdecide : decideSetattr (loadSetattrState pol path fh.isSome file.isSome mode uid gid
      size) with
  | updateOpenHandle =>
    cases file with
    | none => exact Agree.ret fun w w' hw => ⟨rfl, hleft w w' hw⟩
    | some file =>
      cases fh with
      | none =>
        intro w w' h
        obtain ⟨host', -, -, hnone⟩ := h
        cases hnone
      | some fh =>
        have hset : Same (Beside (Has R fh file)) _ _ :=
          same_setattrOpenHandle hh mode uid gid size
        exact hset.weaken (fun w w' h => h.mono fun _ _ _ hR => ⟨hR.1, hR.2.symm⟩)
          (fun _ _ w w' h => ⟨h.1, h.2.mono fun _ _ _ hR => hR.1⟩)
          fun w w' h => h.mono fun _ _ _ hR => hR.1
  | updateRealFs =>
    have hmode : pol.classify path = .passthrough := by
      unfold decideSetattr at hdecide
      split at hdecide
      · cases hdecide
      · show (loadSetattrState pol path fh.isSome file.isSome mode uid gid size).accessMode = _
        split at hdecide <;> first | assumption | cases hdecide
    exact (hreal hmode).weaken hleft (fun _ _ _ _ h => h) fun _ _ h => h
  | updateDaemonMeta =>
    have hmeta : Same (Beside R) (setattrMeta env path mode uid gid size)
        (setattrMeta env path mode uid gid size) := by
      apply Same.bind (same_call env _ _ (by exact not_false)).attempt
      intro result
      cases result with
      | error err => exact Same.ret
      | ok md =>
        cases md with
        | none => exact Same.ret
        | some md => exact (same_call env _ _ (by exact not_false)).ignore
    exact hmeta.weaken hleft (fun _ _ _ _ h => h) fun _ _ h => h

theorem answers_setattr (hh : HandlesAlike R) (mode uid gid : Option UInt32)
    (size : Option UInt64) (fh : Option UInt64)
    (hreal : ∀ path, t.getPath ino = some path → pol.classify path = .passthrough →
      Same (Beside R) (setattrReal env path mode uid gid size)
        (setattrReal env path mode uid gid size))
    (hstat : ∀ path, t.getPath ino = some path → StatsAlike pol R path) :
    Answers R t T (setattr pol env ino mode uid gid size fh) := by
  rw [setattr_eq]
  apply Answers.ofIno hRT
  intro path hpath
  apply replies_of_same _ hRT
  exact Same.bind (same_setattrSteps pol env hh mode uid gid size fh (hreal path hpath))
    fun _ => same_attrReply pol env (hstat path hpath)

/-- A host call that makes a node, after which both hosts have the same node at the path. -/
def MakesAlike (pol : Policy) (R T : HostRel) (path : FsPath) (m : FuseM α) : Prop :=
  ∃ U : HostRel, StatsAlike pol U path ∧ (∀ fs fs' files, U fs fs' files → T fs fs' files) ∧
    Agree (Beside R) m m (fun a a' w w' => a = a' ∧ Beside U w w') (Beside T)

omit hRT in
theorem agree_afterMkdir {P : World → World → Prop} (hnumber : Agree P (getOrInsert path)
      (getOrInsert path) (fun a a' w w' => a = a' ∧ P w w') (Beside R))
    (hstat : Agree P (statPath pol env path) (statPath pol env path)
      (fun a a' w w' => a = a' ∧ Beside R w w') (Beside R)) (mode : UInt32) :
    Agree P (do
      let ino ← getOrInsert path
      match ← attempt (statPath pol env path) with
      | .ok (_, attr) => pure (Reply.entry attr)
      | .error _ => pure (Reply.entry (newAttr env ino .directory mode)) : FuseM Reply) (do
      let ino ← getOrInsert path
      match ← attempt (statPath pol env path) with
      | .ok (_, attr) => pure (Reply.entry attr)
      | .error _ => pure (Reply.entry (newAttr env ino .directory mode)) : FuseM Reply)
      (fun a a' w w' => a = a' ∧ Beside R w w') (Beside R) := by
  apply Agree.bind_same hnumber
  intro ino
  apply Agree.bind_same hstat.attempt
  intro result
  cases result <;> exact Same.ret

omit hRT in
/-- A call that puts a node at the path, then the whiteout there is cleared. -/
theorem agree_putNode {req : Request} (hreq : ¬ copiesHost req) {take : Response → Option α}
    (hput : ∀ (w : World) a, take (dispatch (env.dispatchEnv w.host) w.daemon req).1 = some a →
      HasNode path { w with daemon := (dispatch (env.dispatchEnv w.host) w.daemon req).2 }) :
    Agree (Beside R) (call env req take >>= fun a =>
        ignore (Client.deleteWhiteout env path) >>= fun _ => pure a)
      (call env req take >>= fun a => ignore (Client.deleteWhiteout env path) >>= fun _ => pure a)
      (fun a a' w w' => a = a' ∧ Knowing (HasNode path) R w w') (Beside R) := by
  have hcall : Ensures (fun _ => True) (call env req take) (fun _ => HasNode path) fun _ => True :=
    ensures_call env (fun _ _ h => h) (fun w a _ ha => hput w a ha) (fun _ _ => trivial)
      fun _ h => h
  have hclear : Keeps (HasNode path) (Client.deleteWhiteout env path) := by
    have hkept : ∀ w : World, HasNode path w → HasNode path { w with
        daemon := (dispatch (env.dispatchEnv w.host) w.daemon (.deleteWhiteout path)).2 } := by
      rintro w ⟨e, he, hnode⟩
      refine ⟨e, ?_, hnode⟩
      show (w.daemon.deleteWhiteout path).2.state.fuseMap.lookup path = some e
      have hlookup : w.daemon.state.fuseMap.lookup path = some e := he
      unfold Server.deleteWhiteout
      simp only [hlookup, if_neg hnode]
    exact ensures_call env (fun _ _ h => h) (fun w _ hw _ => hkept w hw) hkept fun _ h => h
  have hsame : Same (Beside R) (call env req take) (call env req take) := same_call env _ _ hreq
  have hanswered : Agree (Beside R) (call env req take) (call env req take)
      (fun a a' w w' => a = a' ∧ Knowing (HasNode path) R w w') (Beside R) :=
    (hsame.and_ensures hcall).weaken (fun _ _ hw => ⟨hw, trivial⟩)
      (fun _ _ _ _ hw => ⟨hw.1.1, hw.1.2, hw.2⟩) fun _ _ hw => hw.1
  apply Agree.bind_same hanswered
  intro a
  apply Agree.bind_same ((Same.knowing (same_call env _ _ (by exact not_false)).ignore
    hclear.ignore).weaken (fun _ _ hw => hw) (fun _ _ _ _ hw => hw) fun _ _ hw => hw.1)
  exact fun _ => Agree.ret fun _ _ hw => ⟨rfl, hw⟩

omit hRT in
theorem agree_executeMkdir (path : FsPath) (mode : UInt32) :
    Agree (Beside R) (executeMkdir env .createDaemon path mode)
      (executeMkdir env .createDaemon path mode)
      (fun a a' w w' => a = a' ∧ Knowing (HasNode path) R w w') (Beside R) :=
  agree_putNode env (by exact not_false) fun w a _ => ⟨_, Finmap.lookup_insert _, nofun⟩

theorem answers_mkdir (mode : UInt32)
    (hreal : ∀ path, named t parent name = some path → pol.classify path = .passthrough →
      MakesAlike pol R T path (executeMkdir env .createReal path mode)) :
    Answers R t T (mkdir pol env parent name mode) := by
  apply Answers.ofName hRT
  intro path hpath
  apply Replies.after same_connectDaemon hRT
  intro _
  cases hdecide : decideMkdir (loadMkdirState pol path) with
  | createReal =>
    have hmode : pol.classify path = .passthrough := by
      unfold decideMkdir at hdecide
      show (loadMkdirState pol path).accessMode = _
      split at hdecide <;> first | assumption | cases hdecide
    obtain ⟨U, hU, hUT, hmake⟩ := hreal path hpath hmode
    exact Agree.bind_same hmake fun _ => replies_of_same
      (agree_afterMkdir pol env (same_getOrInsert path) (same_statPath pol env hU) mode) hUT
  | createDaemon =>
    have hmode : pol.classify path ≠ .passthrough := by
      intro hpass
      unfold decideMkdir loadMkdirState at hdecide
      rw [hpass] at hdecide
      cases hdecide
    apply replies_of_same _ hRT
    apply Agree.bind_same (agree_executeMkdir env path mode)
    intro _
    exact agree_afterMkdir pol env ((Same.knowing (same_getOrInsert path)
      (keeps_number fun _ hw => hw)).weaken (fun _ _ hw => hw) (fun _ _ _ _ hw => hw)
        fun _ _ hw => hw.1) (agree_statPath_node pol env hmode) mode

theorem answers_symlink (target : Bytes)
    (hreal : ∀ path, named t parent name = some path → pol.classify path = .passthrough →
      MakesAlike pol R T path (changeHost fun fs => fs.symlink env.cred target path)) :
    Answers R t T (symlink pol env parent name target) := by
  apply Answers.ofName hRT
  intro path hpath
  apply Replies.after same_connectDaemon hRT
  intro _
  have hdaemon : ∀ md, pol.classify path ≠ .passthrough → Replies R T ((do
      Client.putSymlink env path target md
      ignore (Client.deleteWhiteout env path)) >>= fun _ => entryReply pol env path) := by
    intro md hmode
    apply replies_of_same _ hRT
    have hput : Agree (Beside R) (do
          Client.putSymlink env path target md
          ignore (Client.deleteWhiteout env path)) (do
          Client.putSymlink env path target md
          ignore (Client.deleteWhiteout env path))
        (fun a a' w w' => a = a' ∧ Knowing (HasNode path) R w w') (Beside R) :=
      agree_putNode env (by exact not_false) fun w a _ => ⟨_, Finmap.lookup_insert _, nofun⟩
    exact Agree.bind_same hput fun _ =>
      Agree.bind_same (agree_statPath_node pol env hmode) fun _ => Same.ret
  show Replies R T (executeSymlink env (pol.classify path) path target _ >>= fun _ => _)
  cases hmode : pol.classify path with
  | passthrough =>
    obtain ⟨U, hU, hUT, hmake⟩ := hreal path hpath hmode
    exact Agree.bind_same hmake fun _ => replies_of_same (same_entryReply pol env hU) hUT
  | fuseOnly => exact hdaemon _ (by rw [hmode]; nofun)
  | copyOnWrite => exact hdaemon _ (by rw [hmode]; nofun)

/-- A host call that takes a name away or moves it. -/
def ChangesAlike (R T : HostRel) (m : FuseM Unit) : Prop :=
  Agree (Beside R) m m (fun a a' w w' => a = a' ∧ Beside T w w') (Beside T)

omit hRT in
theorem ChangesAlike.replies {m : FuseM Unit} (h : ChangesAlike R T m) :
    Replies R T (m >>= fun _ => pure .ok) :=
  Agree.bind_same h fun _ => Agree.ret fun _ _ hw => ⟨rfl, hw⟩

omit hRT in
theorem same_whiteout (path : FsPath) :
    Same (Beside R) (executeUnlink env .whiteout path) (executeUnlink env .whiteout path) :=
  Same.bind (same_call env _ _ (by exact not_false)).ignore fun _ => same_call env _ _ (by exact not_false)

theorem answers_unlink
    (hreal : ∀ path, named t parent name = some path → pol.classify path = .passthrough →
      ChangesAlike R T (changeHost fun fs => fs.removeFile path)) :
    Answers R t T (unlink pol env parent name) := by
  apply Answers.ofName hRT
  intro path hpath
  apply Replies.after same_connectDaemon hRT
  intro _
  cases hdecide : decideUnlink (loadUnlinkState pol path) with
  | removeReal =>
    have hmode : pol.classify path = .passthrough := by
      unfold decideUnlink at hdecide
      show (loadUnlinkState pol path).accessMode = _
      split at hdecide <;> first | assumption | cases hdecide
    exact (hreal path hpath hmode).replies
  | whiteout => exact replies_of_same (Same.bind (same_whiteout env path) fun _ => Same.ret) hRT

theorem answers_rmdir
    (hreal : ∀ path, named t parent name = some path → pol.classify path = .passthrough →
      ChangesAlike R T (changeHost fun fs => fs.removeDir path))
    (hbelow : ∀ path, named t parent name = some path → pol.classify path ≠ .passthrough →
      ∀ fs fs' files, R fs fs' files →
        recursiveRealDescendants fs' path = recursiveRealDescendants fs path) :
    Answers R t T (rmdir pol env parent name) := by
  apply Answers.ofName hRT
  intro path hpath
  apply Replies.after same_connectDaemon hRT
  intro _
  by_cases hmode : pol.classify path = .passthrough
  · have hdecide : decideRmdir (loadRmdirState pol path) = .removeReal := by
      unfold decideRmdir loadRmdirState
      rw [hmode]
    rw [hdecide]
    -- the host's descendants are looked up in vain
    apply Agree.bind (Q := fun _ _ => Beside R)
      ((agree_peekHost _).weaken (fun _ _ h => h) (fun _ _ _ _ h => h) fun _ _ h => h.mono hRT)
    exact fun _ _ => (hreal path hpath hmode).replies
  · have hdecide : decideRmdir (loadRmdirState pol path) = .whiteoutRecursive := by
      unfold decideRmdir loadRmdirState
      cases hm : pol.classify path with
      | passthrough => exact absurd hm hmode
      | fuseOnly => rfl
      | copyOnWrite => rfl
    rw [hdecide]
    apply replies_of_same _ hRT
    apply Same.bind (same_peekHost (hbelow path hpath hmode))
    intro descendants
    apply Same.bind _ fun _ => Same.ret
    exact Same.bind (same_call env _ _ (by exact not_false)).ignore fun _ => Same.bind (same_call env _ _ (by exact not_false))
      fun _ => Same.forEach fun _ => (same_call env _ _ (by exact not_false)).ignore

theorem answers_rename {newparent : UInt64} {newname : Component}
    (hreal : ∀ src dst, named t parent name = some src → named t newparent newname = some dst →
      pol.classify src = .passthrough → ChangesAlike R T (changeHost fun fs => fs.rename src dst)) :
    Answers R t T (rename pol env parent name newparent newname) := by
  apply agree_getPath _ fun _ _ h => h.mono hRT
  intro src hsrc
  apply agree_getPath _ fun _ _ h => h.mono hRT
  intro dst hdst
  apply start_of_agree
  apply Replies.after same_connectDaemon hRT
  intro _
  have hload : Agree (Beside R) (loadRenameState pol env src dst) (loadRenameState pol env src dst)
      (fun state state' w w' => state = state' ∧ state.accessMode = pol.classify src ∧
        Beside R w w') (Beside T) := by
    have hentries : ∀ state : Option FuseEntry → RenameState,
        (∀ entry, (state entry).accessMode = pol.classify src) →
        Agree (Beside R) (Client.getEntry env src >>= fun entry =>
            Client.getEntry env dst >>= fun _ => pure (state entry))
          (Client.getEntry env src >>= fun entry =>
            Client.getEntry env dst >>= fun _ => pure (state entry))
          (fun state state' w w' => state = state' ∧ state.accessMode = pol.classify src ∧
            Beside R w w') (Beside R) := fun state hstate =>
      Agree.bind_same (same_call env _ _ (by exact not_false)) fun entry => Agree.bind_same (same_call env _ _ (by exact not_false))
        fun _ => Agree.ret fun _ _ hw => ⟨rfl, hstate entry, hw⟩
    exact (hentries (fun entry => ⟨pol.classify src, src, dst, entry⟩) fun _ => rfl).weaken
      (fun _ _ h => h) (fun _ _ _ _ h => h) fun _ _ h => h.mono hRT
  apply Agree.bind_eq hload
  intro state
  apply Agree.of_fact
  intro hmode
  cases hdecide : decideRename state with
  | renameReal =>
    have hpass : pol.classify src = .passthrough := by
      rw [← hmode]
      unfold decideRename at hdecide
      split at hdecide
      · assumption
      · simp only at hdecide
        split at hdecide <;> cases hdecide
      · simp only at hdecide
        split at hdecide <;> cases hdecide
    exact (hreal src dst hsrc hdst hpass).replies
  | renameFuseFileOrSymlink =>
    exact replies_of_same (Same.bind (Same.bind (same_call env _ _ (by exact not_false))
      fun _ => (same_call env _ _ (by exact not_false)).ignore) fun _ => Same.ret) hRT
  | renameFuseTree =>
    exact replies_of_same (Same.bind (Same.bind (same_call env _ _ (by exact not_false))
      fun _ => (same_call env _ _ (by exact not_false)).ignore) fun _ => Same.ret) hRT

theorem answers_open (hfiles : FilesFree R) (flags : OpenFlags)
    (halike : ∀ path, t.getPath ino = some path → OpensAlike pol env R path flags.options) :
    Answers R t T («open» pol env ino flags) := by
  apply Answers.ofIno hRT
  intro path hpath
  apply replies_of_same _ hRT
  apply Same.bind (same_reqStart pol env _ path)
  intro _
  apply Same.bind same_connectDaemon
  intro _ w w' hw
  exact agree_openPath pol env hfiles (fun _ => halike path hpath) _ w w' ⟨hw, rfl⟩

omit hRT in
theorem agree_afterCreate {P : World → World → Prop}
    (hstat : Agree P (statPath pol env path) (statPath pol env path)
      (fun a a' w w' => a = a' ∧ Beside R w w') (Beside R)) (mode : UInt32) (fh : UInt64) :
    Agree P (do
      match ← attempt (statPath pol env path) with
      | .ok (_, attr) => pure (Reply.created attr fh)
      | .error _ => do
        let ino ← getOrInsert path
        pure (Reply.created (newAttr env ino .regularFile mode) fh) : FuseM Reply) (do
      match ← attempt (statPath pol env path) with
      | .ok (_, attr) => pure (Reply.created attr fh)
      | .error _ => do
        let ino ← getOrInsert path
        pure (Reply.created (newAttr env ino .regularFile mode) fh) : FuseM Reply)
      (fun a a' w w' => a = a' ∧ Beside R w w') (Beside R) := by
  apply Agree.bind_same hstat.attempt
  intro result
  cases result with
  | ok r => exact Same.ret
  | error err => exact Same.bind (same_getOrInsert path) fun _ => Same.ret

omit hRT in
theorem daemonOnly_hasNode : DaemonOnly (HasNode path) := by
  rintro w w' hdaemon ⟨e, he, hnode⟩
  refine ⟨e, ?_, hnode⟩
  unfold World.entry at he ⊢
  rwa [hdaemon]

omit hRT in
/-- The daemon names an object only for an entry that it has put. -/
theorem ensureObject_put {s : Server} {md : FileMetadata}
    {alloc : ObjectStore → Except String UInt64 × ObjectStore} {object : UInt64 × ObjectPath}
    (h : takeObject (s.ensureObject path md alloc).1 = some object) :
    ∃ id, (s.ensureObject path md alloc).2.state.fuseMap.lookup path = some (.ofObject md id) := by
  unfold Server.ensureObject at h ⊢
  cases hreuse : (s.state.fuseMap.lookup path).bind FuseEntry.reusableObject with
  | some id => exact ⟨id, Finmap.lookup_insert _⟩
  | none =>
    rw [hreuse] at h
    cases halloc : alloc s.objects with
    | mk r store =>
      simp only [halloc] at h ⊢
      cases r with
      | ok id => exact ⟨id, Finmap.lookup_insert _⟩
      | error err => cases h

omit hRT in
theorem agree_executeCreate (hfiles : FilesFree R) (path : FsPath) (mode : UInt32)
    (flags : OpenFlags) (md : FileMetadata) :
    Agree (Beside R) (executeCreate env .createObject path mode flags md)
      (executeCreate env .createObject path mode flags md)
      (fun file file' w w' => file = file' ∧ Knowing (HasNode path) (Admits R file) w w')
      (Beside R) := by
  have hput : Agree (Beside R)
      (Client.ensureFileObject env path md >>= fun object =>
        ignore (Client.deleteWhiteout env path) >>= fun _ => pure object)
      (Client.ensureFileObject env path md >>= fun object =>
        ignore (Client.deleteWhiteout env path) >>= fun _ => pure object)
      (fun a a' w w' => a = a' ∧ Knowing (HasNode path) R w w') (Beside R) := by
    apply agree_putNode env (by exact not_false)
    intro w object hobject
    obtain ⟨id, he⟩ := ensureObject_put hobject
    exact ⟨.ofObject md id, he, nofun⟩
  have hassoc : executeCreate env .createObject path mode flags md
      = (Client.ensureFileObject env path md >>= fun object =>
          ignore (Client.deleteWhiteout env path) >>= fun _ => pure object) >>= fun object =>
        openObject { flags.options with create := true, mode } object.2 >>= fun file =>
          pure (OpenFile.passthroughObject file object.1) := by
    funext w
    show (Client.ensureFileObject env path md >>= fun object =>
      ignore (Client.deleteWhiteout env path) >>= fun _ =>
        openObject { flags.options with create := true, mode } object.2 >>= fun file =>
          pure (OpenFile.passthroughObject file object.1) : FuseM OpenFile) w = _
    rw [run_bind, run_bind, run_bind]
    cases Client.ensureFileObject env path md w <;> rfl
  rw [hassoc]
  apply Agree.bind_same hput
  intro object
  have hopen : Agree (Beside R) (openObject { flags.options with create := true, mode } object.2)
      (openObject { flags.options with create := true, mode } object.2)
      (fun fd fd' w w' => fd = fd' ∧ fd.backing = .object object.2 ∧ Beside R w w') (Beside R) :=
    Agree.bind_same (same_onObjects _) fun _ => Agree.ret fun _ _ hw => ⟨rfl, rfl, hw⟩
  have hknown : Agree (Knowing (HasNode path) R)
      (openObject { flags.options with create := true, mode } object.2)
      (openObject { flags.options with create := true, mode } object.2)
      (fun fd fd' w w' => fd = fd' ∧ (fd.backing = .object object.2 ∧ Beside R w w') ∧ HasNode path w)
      (Beside R) :=
    (hopen.and_ensures (keeps_openObject (fun _ _ h => h) _ _)).weaken (fun _ _ hw => hw)
      (fun _ _ _ _ hw => ⟨hw.1.1, hw.1.2, hw.2⟩) fun _ _ hw => hw.1
  apply Agree.bind_eq hknown
  intro fd
  apply Agree.ret
  intro w w' hw
  obtain ⟨⟨hbacking, host', rfl, hR⟩, hnode⟩ := hw
  exact ⟨rfl, ⟨host', rfl, hR, hfiles.object _ _ _ _ _ _ hbacking hR⟩, hnode⟩

theorem answers_create (hfiles : FilesFree R) (mode : UInt32) (flags : OpenFlags)
    (hreal : ∀ path, named t parent name = some path → pol.classify path = .passthrough →
      MakesAlike pol R T path (openHost env { flags.options with create := true, mode } path >>=
        fun fd => addOpenFile (.passthroughReal fd))) :
    Answers R t T (create pol env parent name mode flags) := by
  apply Answers.ofName hRT
  intro path hpath
  apply Replies.after same_connectDaemon hRT
  intro _
  cases hdecide : decideCreate (loadCreateState pol path) with
  | createReal =>
    have hmode : pol.classify path = .passthrough := by
      unfold decideCreate at hdecide
      show (loadCreateState pol path).accessMode = _
      split at hdecide <;> first | assumption | cases hdecide
    obtain ⟨U, hU, hUT, hmake⟩ := hreal path hpath hmode
    have hassoc : ∀ k : UInt64 → FuseM Reply, ((do
        let file ← openHost env { flags.options with create := true, mode } path
        pure (OpenFile.passthroughReal file)) >>= fun file => addOpenFile file >>= k)
          = (openHost env { flags.options with create := true, mode } path >>=
            fun fd => addOpenFile (.passthroughReal fd)) >>= k := by
      intro k
      funext w
      rw [run_bind, run_bind, run_bind, run_bind]
      cases openHost env { flags.options with create := true, mode } path w <;> rfl
    show Replies R T ((do
      let file ← openHost env { flags.options with create := true, mode } path
      pure (OpenFile.passthroughReal file)) >>= fun file => addOpenFile file >>= _)
    rw [hassoc]
    exact Agree.bind_same hmake fun fh =>
      replies_of_same (agree_afterCreate pol env (same_statPath pol env hU) mode fh) hUT
  | createObject =>
    have hmode : pol.classify path ≠ .passthrough := by
      intro hpass
      unfold decideCreate loadCreateState at hdecide
      rw [hpass] at hdecide
      cases hdecide
    apply replies_of_same _ hRT
    apply Agree.bind_eq (agree_executeCreate env hfiles path mode flags _)
    intro file
    have hadd : Agree (Knowing (HasNode path) (Admits R file)) (addOpenFile file)
        (addOpenFile file) (fun fh fh' w w' => fh = fh' ∧ Knowing (HasNode path) R w w')
        (Beside R) :=
      ((agree_addOpenFile fun _ _ _ fh hR => hR.2 fh).and_ensures
        (keeps_addOpenFile daemonOnly_hasNode.tables file)).weaken (fun _ _ hw => hw)
          (fun _ _ _ _ hw => ⟨hw.1.1, hw.1.2, hw.2⟩) fun _ _ hw => hw.1
    exact Agree.bind_same hadd fun fh =>
      agree_afterCreate pol env (agree_statPath_node pol env hmode) mode fh

/-- A handler that works on one open file. -/
theorem replies_ofHandle {fh : UInt64} {k : OpenFile → FuseM Reply}
    (hk : ∀ file, Same (Beside (Has R fh file)) (k file) (k file)) :
    Replies R T (openFileOf fh >>= k) := by
  have hopen : Same (Beside R) (openFileOf fh >>= k) (openFileOf fh >>= k) := by
    apply Agree.bind_eq agree_openFileOf
    intro file
    exact (hk file).weaken (fun _ _ h => h)
      (fun _ _ _ _ h => ⟨h.1, h.2.mono fun _ _ _ hR => hR.1⟩) fun _ _ h => h.mono fun _ _ _ hR => hR.1
  exact replies_of_same hopen hRT

theorem answers_read (hh : HandlesAlike R) (fh : UInt64) (offset size : Nat) :
    Answers R t T (read ino fh offset size) := by
  apply start_of_agree
  apply Replies.after same_connectDaemon hRT
  intro _
  apply Replies.after (same_pathOf ino) hRT
  intro _
  apply replies_ofHandle hRT
  exact fun file => Same.bind (same_readAt hh offset size) fun _ => Same.ret

theorem answers_write (hh : HandlesAlike R) (fh : UInt64) (offset : Nat) (data : Bytes) :
    Answers R t T (write ino fh offset data) := by
  apply start_of_agree
  apply Replies.after same_connectDaemon hRT
  intro _
  apply Replies.after (same_pathOf ino) hRT
  intro _
  apply replies_ofHandle hRT
  exact fun file => Same.bind (same_writeAt hh offset data) fun _ => Same.ret

theorem answers_copyFileRange (hh : HandlesAlike R) {inoOut : UInt64} (fhIn fhOut : UInt64)
    (offsetIn offsetOut len : Nat) :
    Answers R t T (copyFileRange ino fhIn offsetIn inoOut fhOut offsetOut len) := by
  apply start_of_agree
  apply Replies.after (same_pathOf ino) hRT
  intro _
  apply Replies.after (same_pathOf inoOut) hRT
  intro _
  apply Replies.after same_connectDaemon hRT
  intro _
  have hread : ∀ fh, Same (Beside R) (openFileOf fh >>= fun file => file.file.readAt offsetIn len)
      (openFileOf fh >>= fun file => file.file.readAt offsetIn len) := by
    intro fh
    apply Agree.bind_eq agree_openFileOf
    intro file
    exact (same_readAt hh offsetIn len).weaken (fun _ _ h => h)
      (fun _ _ _ _ h => ⟨h.1, h.2.mono fun _ _ _ hR => hR.1⟩) fun _ _ h => h.mono fun _ _ _ hR => hR.1
  have hassoc : ∀ k : Bytes → FuseM Reply, (openFileOf fhIn >>= fun file =>
      file.file.readAt offsetIn len >>= k)
        = (openFileOf fhIn >>= fun file => file.file.readAt offsetIn len) >>= k := by
    intro k
    funext w
    rw [run_bind, run_bind, run_bind]
    cases openFileOf fhIn w <;> rfl
  show Replies R T (openFileOf fhIn >>= fun file => file.file.readAt offsetIn len >>= _)
  rw [hassoc]
  apply Replies.after (hread fhIn) hRT
  intro data
  apply replies_ofHandle hRT
  exact fun file => Same.bind (same_writeAt hh offsetOut data) fun _ => Same.ret

theorem answers_flush (fh : UInt64) : Answers R t T (flushToDaemon fh) := by
  apply start_of_agree
  apply Replies.after same_connectDaemon hRT
  intro _
  exact replies_ofHandle hRT fun _ => Same.ret

theorem answers_release (hfiles : FilesFree R) (fh : UInt64) (flush : Bool) :
    Answers R t T (release fh flush) := by
  apply start_of_agree
  apply replies_of_same _ hRT
  exact Same.bind (Same.onlyIf same_connectDaemon) fun _ =>
    Same.bind (same_removeOpenFile fh fun fs fs' files => hfiles.closed fs fs' files fh)
      fun _ => Same.ret

theorem answers_readdir (offset capacity : Nat)
    (hlist : ∀ path, t.getPath ino = some path → ∀ fs fs' files, R fs fs' files →
      realChildren fs' path = realChildren fs path) :
    Answers R t T (readdir pol env ino offset capacity) := by
  apply Answers.ofIno hRT
  intro path hpath
  apply replies_of_same _ hRT
  apply Same.bind same_connectDaemon
  intro _
  apply Same.bind (Same.bind (same_peekHost (hlist path hpath)) fun _ =>
    Same.bind (same_call env _ _ (by exact not_false)) fun _ => Same.ret)
  intro state
  rw [validateReaddirDecision_decideReaddir]
  exact Same.bind (same_getOrInsert _) fun _ => Same.bind (same_childEntries _) fun _ => Same.ret

end Requests

/-! ## §2. One request. -/

/-- The host calls that a request may make, alike on both hosts. -/
def CallsAlike (pol : Policy) (env : Env) (R T : HostRel) (t : InodeTable) : FuseRequest → Prop
  | .lookup parent name => ∀ path, named t parent name = some path → StatsAlike pol R path
  | .getattr ino => ∀ path, t.getPath ino = some path → StatsAlike pol R path
  | .setattr ino mode uid gid size _ => ∀ path, t.getPath ino = some path →
    StatsAlike pol R path ∧ (pol.classify path = .passthrough →
      Same (Beside R) (setattrReal env path mode uid gid size)
        (setattrReal env path mode uid gid size))
  | .readlink ino => ∀ path, t.getPath ino = some path → pol.classify path ≠ .fuseOnly →
    ∀ fs fs' files, R fs fs' files → fs'.readLink path = fs.readLink path
  | .mkdir parent name mode => ∀ path, named t parent name = some path →
    StatsAlike pol R path ∧ (pol.classify path = .passthrough →
      MakesAlike pol R T path (executeMkdir env .createReal path mode))
  | .unlink parent name => ∀ path, named t parent name = some path →
    pol.classify path = .passthrough → ChangesAlike R T (changeHost fun fs => fs.removeFile path)
  | .rmdir parent name => ∀ path, named t parent name = some path →
    (pol.classify path = .passthrough → ChangesAlike R T (changeHost fun fs => fs.removeDir path)) ∧
    (pol.classify path ≠ .passthrough → ∀ fs fs' files, R fs fs' files →
      recursiveRealDescendants fs' path = recursiveRealDescendants fs path)
  | .rename parent name newparent newname => ∀ src dst, named t parent name = some src →
    named t newparent newname = some dst → pol.classify src = .passthrough →
      ChangesAlike R T (changeHost fun fs => fs.rename src dst)
  | .symlink parent name target => ∀ path, named t parent name = some path →
    StatsAlike pol R path ∧ (pol.classify path = .passthrough →
      MakesAlike pol R T path (changeHost fun fs => fs.symlink env.cred target path))
  | .open ino flags => ∀ path, t.getPath ino = some path →
    OpensAlike pol env R path flags.options
  | .create parent name mode flags => ∀ path, named t parent name = some path →
    StatsAlike pol R path ∧ (pol.classify path = .passthrough →
      MakesAlike pol R T path (openHost env { flags.options with create := true, mode } path >>=
        fun fd => addOpenFile (.passthroughReal fd)))
  | .readdir ino _ _ => ∀ path, t.getPath ino = some path → ∀ fs fs' files, R fs fs' files →
    realChildren fs' path = realChildren fs path
  | _ => True

/-- **One request**: when its host calls go alike, so does the request. -/
theorem answers_handle (hRT : ∀ fs fs' files, R fs fs' files → T fs fs' files)
    (hfiles : FilesFree R) (hh : HandlesAlike R) {req : FuseRequest}
    (h : CallsAlike pol env R T t req) : Answers R t T (handle pol env req) := by
  cases req with
  | lookup parent name => exact answers_lookup pol env hRT h
  | getattr ino => exact answers_getattr pol env hRT h
  | setattr ino mode uid gid size fh =>
    exact answers_setattr pol env hRT hh mode uid gid size fh (fun path hp => (h path hp).2)
      fun path hp => (h path hp).1
  | readlink ino => exact answers_readlink pol env hRT h
  | mkdir parent name mode =>
    exact answers_mkdir pol env hRT mode fun path hp => (h path hp).2
  | unlink parent name => exact answers_unlink pol env hRT h
  | rmdir parent name =>
    exact answers_rmdir pol env hRT (fun path hp => (h path hp).1) fun path hp => (h path hp).2
  | rename parent name newparent newname => exact answers_rename pol env hRT h
  | symlink parent name target =>
    exact answers_symlink pol env hRT target fun path hp => (h path hp).2
  | link ino newparent newname =>
    exact start_of_agree (Agree.fail fun _ _ hw => hw.mono hRT)
  | «open» ino flags => exact answers_open pol env hRT hfiles flags h
  | create parent name mode flags =>
    exact answers_create pol env hRT hfiles mode flags fun path hp => (h path hp).2
  | read ino fh offset size => exact answers_read hRT hh fh offset size
  | write ino fh offset data => exact answers_write hRT hh fh offset data
  | copyFileRange inoIn fhIn offsetIn inoOut fhOut offsetOut len =>
    exact answers_copyFileRange hRT hh fhIn fhOut offsetIn offsetOut len
  | flush fh => exact answers_flush hRT fh
  | release fh flush => exact answers_release hRT hfiles fh flush
  | fsync fh => exact answers_flush hRT fh
  | opendir ino =>
    exact start_of_agree (replies_of_same (Same.bind (same_pathOf ino) fun _ => Same.ret) hRT)
  | readdir ino offset capacity => exact answers_readdir pol env hRT offset capacity h
  | access ino =>
    exact start_of_agree (replies_of_same (Same.bind (same_pathOf ino) fun _ => Same.ret) hRT)

/-- The same reply from both, and worlds that are side by side again. -/
theorem serveFuse_agree {P : World → World → Prop} {req : FuseRequest} {w w' : World}
    (h : Agree P (handle pol env req) (handle pol env req)
      (fun a a' w w' => a = a' ∧ Beside T w w') (Beside T))
    (hw : P { w with faults := env.faults } { w' with faults := env.faults }) :
    (serveFuse pol env w req).1 = (serveFuse pol env w' req).1 ∧
      Beside T (serveFuse pol env w req).2 (serveFuse pol env w' req).2 := by
  have key := h _ _ hw
  unfold serveFuse
  cases hres : handle pol env req { w with faults := env.faults } with
  | ok reply v =>
    cases hres' : handle pol env req { w' with faults := env.faults } with
    | ok reply' v' =>
      rw [hres, hres'] at key
      exact key
    | error err v' =>
      rw [hres, hres'] at key
      exact key.elim
  | error err v =>
    cases hres' : handle pol env req { w' with faults := env.faults } with
    | ok reply' v' =>
      rw [hres, hres'] at key
      exact key.elim
    | error err' v' =>
      rw [hres, hres'] at key
      exact ⟨by rw [key.1], key.2⟩

theorem serveFuse_alike {req : FuseRequest} {w w' : World}
    (h : Answers R w.inodes T (handle pol env req)) (hw : Beside R w w') :
    (serveFuse pol env w req).1 = (serveFuse pol env w' req).1 ∧
      Beside T (serveFuse pol env w req).2 (serveFuse pol env w' req).2 := by
  obtain ⟨host', rfl, hR⟩ := hw
  exact serveFuse_agree pol env h ⟨⟨host', rfl, hR⟩, rfl⟩

end Cas.Fuse
