/-
  Cas.Fuse.Hidden — what keeps a path hidden.

  A CopyOnWrite path is hidden by a whiteout, or because neither the
  daemon nor the host has it; a FuseOnly path because the daemon has no
  entry or a whiteout.  A request that does not name the path, and moves
  no subtree from or to above it, leaves it hidden
  (`stillHidden_serveFuse`); so does every run of such requests as long
  as the host gets no node there (`hidden_run`).
-/
import Cas.Fuse.Observers

namespace Cas.Fuse

open Cas.Lib Cas.Host Cas.Syncing

/-! ## §1. Hidden paths. -/

/-- A stat of `p` finds nothing. -/
def StatMisses (pol : Policy) (w : World) (p : FsPath) : Prop :=
  ∀ env, outcome (statPath pol env p { w with faults := [] }) = .error (.ofErrno .enoent)

theorem statMisses_iff {pol : Policy} {w : World} {p : FsPath} :
    StatMisses pol w p ↔ statKind pol w p = none := by
  have key : ∀ env, StatShows (statKind pol w p)
      (outcome (statPath pol env p { w with faults := [] })) := fun env =>
    statPath_kind (w := { w with faults := [] }) rfl
  unfold StatMisses
  cases hk : statKind pol w p with
  | none =>
    rw [hk] at key
    exact iff_of_true key rfl
  | some kind =>
    rw [hk] at key
    obtain ⟨attr, hok, -⟩ := key Env.quiet
    apply iff_of_false _ nofun
    intro h
    rw [h Env.quiet] at hok
    cases hok

/-- The daemon shows nothing at `p`. -/
def NoNode (w : World) (p : FsPath) : Prop := ∀ e, w.entry p = some e → e.entryType = .whiteout

theorem noNode_iff {w : World} {p : FsPath} :
    NoNode w p ↔ (w.entry p).bind kindFromEntry = none := by
  unfold NoNode
  cases w.entry p with
  | none => simp
  | some e => simp [kindFromEntry_whiteout]

theorem statKind_fuseOnly {pol : Policy} {w : World} {p : FsPath}
    (h : pol.classify p = .fuseOnly) : statKind pol w p = none ↔ NoNode w p := by
  unfold statKind
  rw [h]
  exact noNode_iff.symm

theorem statKind_copyOnWrite {pol : Policy} {w : World} {p : FsPath}
    (h : pol.classify p = .copyOnWrite) : statKind pol w p = none ↔
      NoNode w p ∧ (w.entry p = none → hostKind w.host p = none) := by
  unfold statKind NoNode
  rw [h]
  cases w.entry p with
  | none => simp
  | some e => simp [kindFromEntry_whiteout]

/-! ## §2. One message. -/

/-- The message neither makes nor removes nor moves an entry at `p`, except by a whiteout. -/
def SparesEntry (p : FsPath) : Request → Prop
  | .ensureFileObject path _ | .ensureFileObjectFromReal path _ | .upsertFileEntry path _ _
  | .deleteFile path | .putDir path _ | .putSymlink path _ _ | .deleteWhiteout path => path ≠ p
  | .renameFile src dst | .renameTree src dst => ¬ src <+: p ∧ ¬ dst <+: p
  | _ => True

/-- The new entry is a whiteout or of the old one's type, and no entry is lost. -/
structure EntryStays (old new : Option FuseEntry) : Prop where
  type : ∀ e', new = some e' → e'.entryType = .whiteout ∨ ∃ e, old = some e ∧ e.entryType = e'.entryType
  kept : new = none → old = none

theorem EntryStays.of_eq {old new : Option FuseEntry} (h : new = old) : EntryStays old new where
  type e' he' := Or.inr ⟨e', h ▸ he', rfl⟩
  kept hn := h ▸ hn

section Message

variable {p : FsPath} {s : Server}

theorem entryStays_insert {path : FsPath} (hne : path ≠ p) (e : FuseEntry) :
    EntryStays (s.state.fuseMap.lookup p) ((s.state.fuseMap.insert path e).lookup p) :=
  .of_eq (Finmap.lookup_insert_of_ne _ hne.symm)

theorem entryStays_ensure {path : FsPath} (hne : path ≠ p) (md : FileMetadata)
    (alloc : ObjectStore → Except String UInt64 × ObjectStore) :
    EntryStays (s.state.fuseMap.lookup p)
      ((s.ensureObject path md alloc).2.state.fuseMap.lookup p) := by
  rcases ensureObject_mapTree s path md alloc with ⟨hm, -⟩ | ⟨id, hm, -⟩
  · exact .of_eq (congrArg (fun m => m.lookup p) hm)
  · rw [hm]
    exact entryStays_insert hne _

theorem entryStays_putFileMeta (path : FsPath) (md : FileMetadata) :
    EntryStays (s.state.fuseMap.lookup p)
      ((s.putFileMeta path md).2.state.fuseMap.lookup p) := by
  unfold Server.putFileMeta
  cases he : s.state.fuseMap.lookup path with
  | none => exact .of_eq rfl
  | some e =>
    show EntryStays _ ((s.state.fuseMap.insert path { e with metadata := md }).lookup p)
    by_cases hne : path = p
    · subst hne
      rw [Finmap.lookup_insert, he]
      refine ⟨fun e' he' => Or.inr ⟨e, rfl, ?_⟩, nofun⟩
      cases he'
      rfl
    · exact entryStays_insert hne _

theorem entryStays_deleteWhiteout {path : FsPath} (hne : path ≠ p) :
    EntryStays (s.state.fuseMap.lookup p)
      ((s.deleteWhiteout path).2.state.fuseMap.lookup p) := by
  apply EntryStays.of_eq
  unfold Server.deleteWhiteout
  cases s.state.fuseMap.lookup path with
  | none => rfl
  | some e =>
    by_cases hw : e.entryType = .whiteout
    · simp only [if_pos hw]
      exact Finmap.lookup_erase_ne hne.symm
    · simp only [if_neg hw]

theorem entryStays_renameFile {src dst : FsPath} (hsrc : ¬ src <+: p) (hdst : ¬ dst <+: p) :
    EntryStays (s.state.fuseMap.lookup p)
      ((s.renameFile src dst).2.state.fuseMap.lookup p) := by
  have hs : p ≠ src := fun e => hsrc (e ▸ List.prefix_rfl)
  have hd : p ≠ dst := fun e => hdst (e ▸ List.prefix_rfl)
  apply EntryStays.of_eq
  unfold Server.renameFile
  cases s.state.fuseMap.lookup src with
  | none => rfl
  | some e =>
    show ((s.state.fuseMap.erase src).insert dst e).lookup p = _
    rw [Finmap.lookup_insert_of_ne _ hd, Finmap.lookup_erase_ne hs]

/-- **One message.** -/
theorem entryStays_dispatch {S : Descriptive.tree Name} (h : s.state.TreeRep S)
    (denv : DispatchEnv) {req : Request} (hreq : SparesEntry p req) :
    EntryStays (s.state.fuseMap.lookup p) ((dispatch denv s req).2.state.fuseMap.lookup p) := by
  cases req with
  | ensureFileObject path md => exact entryStays_ensure hreq md _
  | ensureFileObjectFromReal path md => exact entryStays_ensure hreq md _
  | getObjectPath id =>
    show EntryStays _ ((s.getObjectPath id).2.state.fuseMap.lookup p)
    unfold Server.getObjectPath
    split <;> exact .of_eq rfl
  | upsertFileEntry path id md => exact entryStays_insert hreq _
  | putFileMeta path md => exact entryStays_putFileMeta path md
  | deleteFile path => exact .of_eq (Finmap.lookup_erase_ne (Ne.symm hreq))
  | renameFile src dst => exact entryStays_renameFile hreq.1 hreq.2
  | putDir path md => exact entryStays_insert hreq _
  | putSymlink path target md => exact entryStays_insert hreq _
  | putWhiteout path =>
    show EntryStays _ ((s.state.fuseMap.insert path .whiteout).lookup p)
    by_cases hne : path = p
    · subst hne
      rw [Finmap.lookup_insert]
      refine ⟨fun e' he' => Or.inl ?_, nofun⟩
      cases he'
      rfl
    · exact entryStays_insert hne _
  | deleteWhiteout path => exact entryStays_deleteWhiteout hreq
  | renameTree src dst =>
    exact .of_eq (lookup_moves_elsewhere _
      (fun old hold => (((PathTree.enumerates_subtreePaths h src).2 old).mp hold).2) hreq.1 hreq.2 _)
  | flush =>
    show EntryStays _ ((s.flushRequest denv.flushIo denv.order).2.state.fuseMap.lookup p)
    rw [flushRequest_state]
    exact .of_eq rfl
  | _ => exact .of_eq rfl

end Message

/-! ## §3. One request. -/

/-- The request does not name `p`, and moves nothing from or to a path at or above it. -/
def FuseRequest.Spares (w : World) (p : FsPath) : FuseRequest → Prop
  | .mkdir parent name _ | .create parent name _ _ | .symlink parent name _ | .unlink parent name
  | .rmdir parent name => w.namedPath parent name ≠ some p
  | .open ino _ => w.inodes.getPath ino ≠ some p
  | .rename parent name newparent newname =>
    (∀ src, w.namedPath parent name = some src → ¬ src <+: p) ∧
      ∀ dst, w.namedPath newparent newname = some dst → ¬ dst <+: p
  | _ => True

/-- The daemon shows nothing at `p`, and has not lost a whiteout that `w₀` has there. -/
structure StillHidden (w₀ : World) (p : FsPath) (w : World) : Prop where
  table : ∃ S, w.daemon.state.TreeRep S
  noNode : NoNode w p
  kept : w.entry p = none → w₀.entry p = none

section Serve

variable {w₀ : World} {p : FsPath} (pol : Policy) (env : Env)

theorem daemonOnly_stillHidden : DaemonOnly (StillHidden w₀ p) := by
  intro w w' hdaemon h
  obtain ⟨htable, hno, hkept⟩ := h
  unfold NoNode World.entry at *
  exact ⟨hdaemon ▸ htable, by unfold NoNode World.entry; rwa [hdaemon],
    by unfold World.entry; rwa [hdaemon]⟩

theorem steady_stillHidden : Steady (StillHidden w₀ p) :=
  fun w faults h => daemonOnly_stillHidden w { w with faults } rfl h

theorem objects_stillHidden : Objects (StillHidden w₀ p) := fun _ _ h => ⟨h.table, h.noNode, h.kept⟩

theorem stillHidden_dispatch {w : World} (h : StillHidden w₀ p w) (denv : DispatchEnv)
    {req : Request} (hreq : SparesEntry p req) :
    StillHidden w₀ p { w with daemon := (dispatch denv w.daemon req).2 } := by
  obtain ⟨S, hS⟩ := h.table
  obtain ⟨S', hS', -⟩ := keepsKeys_dispatch hS denv req
  have hstays := entryStays_dispatch hS denv hreq
  refine ⟨⟨S', hS'⟩, fun e' he' => ?_, fun hnone => h.kept (hstays.kept hnone)⟩
  rcases hstays.type e' he' with hwhite | ⟨e, he, htype⟩
  · exact hwhite
  · rw [← htype]
    exact h.noNode e he

theorem keeps_sparing {α : Type} (req : Request) (hreq : SparesEntry p req)
    (take : Response → Option α) : Keeps (StillHidden w₀ p) (call env req take) :=
  Keeps.bind (ensures_sendRequest env steady_stillHidden
    (fun _ hw => stillHidden_dispatch hw _ hreq) fun _ h => h) fun _ => keeps_take

/-- A message that spares `p`, then the whiteout at `path` is cleared. -/
theorem keeps_thenClear (req : Request) (hreq : SparesEntry p req) {path : FsPath}
    (hne : path ≠ p) (take : Response → Option Unit) : Keeps (StillHidden w₀ p) (do
      call env req take
      ignore (Client.deleteWhiteout env path)) :=
  Keeps.bind (keeps_sparing env req hreq take) fun _ =>
    (keeps_sparing env (.deleteWhiteout path) hne _).ignore

theorem fileMessages_sparing {path : FsPath} (hne : path ≠ p) (md : FileMetadata) :
    FileMessages (StillHidden w₀ p) env path md where
  ensure := keeps_sparing env (.ensureFileObject path md) hne _
  ensureReal := keeps_sparing env (.ensureFileObjectFromReal path md) hne _
  clear := keeps_sparing env (.deleteWhiteout path) hne _

theorem keeps_setattrMeta_sparing (path : FsPath) (mode uid gid : Option UInt32)
    (size : Option UInt64) : Keeps (StillHidden w₀ p) (setattrMeta env path mode uid gid size) := by
  apply Keeps.bind (keeps_sparing env (.getFileMeta path) trivial _).attempt
  intro result
  cases result with
  | error err => exact Keeps.ret
  | ok found =>
    cases found with
    | none => exact Keeps.ret
    | some md => exact (keeps_sparing env (.putFileMeta path _) trivial _).ignore

section Path

variable {path : FsPath} (hne : path ≠ p)

include hne

theorem keeps_executeMkdir_sparing (decision : MkdirDecision) (mode : UInt32) :
    Keeps (StillHidden w₀ p) (executeMkdir env decision path mode) := by
  cases decision with
  | createReal =>
    exact Keeps.bind (keeps_changeHost daemonOnly_stillHidden.hosts _) fun _ =>
      keeps_changeHost daemonOnly_stillHidden.hosts _
  | createDaemon => exact keeps_thenClear env (.putDir path _) hne hne _

theorem keeps_executeSymlink_sparing (mode : AccessMode) (target : Bytes) (md : FileMetadata) :
    Keeps (StillHidden w₀ p) (executeSymlink env mode path target md) := by
  cases mode with
  | passthrough => exact keeps_changeHost daemonOnly_stillHidden.hosts _
  | fuseOnly | copyOnWrite => exact keeps_thenClear env (.putSymlink path target md) hne hne _

theorem keeps_executeUnlink_sparing (decision : UnlinkDecision) :
    Keeps (StillHidden w₀ p) (executeUnlink env decision path) := by
  cases decision with
  | removeReal => exact keeps_changeHost daemonOnly_stillHidden.hosts _
  | whiteout =>
    exact Keeps.bind (keeps_sparing env (.deleteFile path) hne _).ignore fun _ =>
      keeps_sparing env (.putWhiteout path) trivial _

theorem keeps_executeRmdir_sparing (decision : RmdirDecision) (descendants : List FsPath) :
    Keeps (StillHidden w₀ p) (executeRmdir env decision path descendants) := by
  cases decision with
  | removeReal => exact keeps_changeHost daemonOnly_stillHidden.hosts _
  | whiteoutRecursive =>
    apply Keeps.bind (keeps_sparing env (.deleteFile path) hne _).ignore
    intro _
    apply Keeps.bind (keeps_sparing env (.putWhiteout path) trivial _)
    exact fun _ => Keeps.forEach fun q =>
      (keeps_sparing env (.putWhiteout q) trivial _).ignore

end Path

theorem keeps_executeRename_sparing (decision : RenameDecision) {src dst : FsPath}
    (hsrc : ¬ src <+: p) (hdst : ¬ dst <+: p) :
    Keeps (StillHidden w₀ p) (executeRename env decision src dst) := by
  have hne : dst ≠ p := fun e => hdst (e ▸ List.prefix_rfl)
  cases decision with
  | renameReal => exact keeps_changeHost daemonOnly_stillHidden.hosts _
  | renameFuseFileOrSymlink =>
    exact keeps_thenClear env (.renameFile src dst) ⟨hsrc, hdst⟩ hne _
  | renameFuseTree => exact keeps_thenClear env (.renameTree src dst) ⟨hsrc, hdst⟩ hne _

end Serve

section Request

variable {P : World → Prop} {w : World} (hw : P w)

include hw

/-- A request on a name goes on with the path that the name stands for, or fails. -/
theorem endState_getPath {parent : UInt64} {name : Component} {k : FsPath → FuseM Reply}
    (hk : ∀ path, w.namedPath parent name = some path → P (endState (k path w))) :
    P (endState ((getPath parent name >>= k) w)) := by
  rw [run_bind, getPath_eq]
  cases hpath : w.namedPath parent name with
  | none => exact hw
  | some path => exact hk path hpath

theorem endState_pathOf {ino : UInt64} {k : FsPath → FuseM Reply}
    (hk : ∀ path, w.inodes.getPath ino = some path → P (endState (k path w))) :
    P (endState ((pathOf ino >>= k) w)) := by
  rw [run_bind]
  unfold pathOf
  cases hpath : w.inodes.getPath ino with
  | none => exact hw
  | some path => exact hk path hpath

end Request

/-- **One request.** -/
theorem stillHidden_serveFuse {w₀ w : World} {p : FsPath} (pol : Policy) (env : Env)
    (h : StillHidden w₀ p w) {req : FuseRequest} (hreq : req.Spares w p) :
    StillHidden w₀ p (serveFuse pol env w req).2 := by
  have hs : Steady (StillHidden w₀ p) := steady_stillHidden
  have ho : Objects (StillHidden w₀ p) := objects_stillHidden
  have ht : Tables (StillHidden w₀ p) := daemonOnly_stillHidden.tables
  have hh : Hosts (StillHidden w₀ p) := daemonOnly_stillHidden.hosts
  have hstart : StillHidden w₀ p { w with faults := env.faults } := hs w env.faults h
  rw [serveFuse_world]
  cases req with
  | setattr ino mode uid gid size fh =>
    exact (keeps_setattr pol env ht hh ho hs
      (fun path => keeps_setattrMeta_sparing env path mode uid gid size) ino fh).endState hstart
  | mkdir parent name mode =>
    refine endState_getPath hstart fun path hpath => ?_
    have hne : path ≠ p := fun e => hreq (e ▸ hpath)
    refine Ensures.endState ?_ hstart
    exact Keeps.bind (keeps_connectDaemon hs) fun _ =>
      Keeps.bind (keeps_executeMkdir_sparing env hne _ mode) fun _ =>
        keeps_afterMkdir pol env hs ht path mode
  | symlink parent name target =>
    refine endState_getPath hstart fun path hpath => ?_
    have hne : path ≠ p := fun e => hreq (e ▸ hpath)
    refine Ensures.endState ?_ hstart
    exact Keeps.bind (keeps_connectDaemon hs) fun _ =>
      Keeps.bind (keeps_executeSymlink_sparing env hne _ target _) fun _ =>
        keeps_entryReply pol env hs ht path
  | create parent name mode flags =>
    refine endState_getPath hstart fun path hpath => ?_
    have hne : path ≠ p := fun e => hreq (e ▸ hpath)
    refine Ensures.endState ?_ hstart
    exact Keeps.bind (keeps_connectDaemon hs) fun _ =>
      Keeps.bind (keeps_executeCreate env hh ho _ mode flags (fileMessages_sparing env hne _))
        fun file => keeps_afterCreate pol env hs ht file path mode
  | unlink parent name =>
    refine endState_getPath hstart fun path hpath => ?_
    have hne : path ≠ p := fun e => hreq (e ▸ hpath)
    refine Ensures.endState ?_ hstart
    exact Keeps.bind (keeps_connectDaemon hs) fun _ =>
      Keeps.bind (keeps_executeUnlink_sparing env hne _) fun _ => Keeps.ret
  | rmdir parent name =>
    refine endState_getPath hstart fun path hpath => ?_
    have hne : path ≠ p := fun e => hreq (e ▸ hpath)
    refine Ensures.endState ?_ hstart
    exact Keeps.bind (keeps_connectDaemon hs) fun _ => Keeps.bind (keeps_peekHost _)
      fun descendants => Keeps.bind (keeps_executeRmdir_sparing env hne _ descendants)
        fun _ => Keeps.ret
  | rename parent name newparent newname =>
    refine endState_getPath hstart fun src hsrc => endState_getPath hstart fun dst hdst => ?_
    refine Ensures.endState ?_ hstart
    exact Keeps.bind (keeps_connectDaemon hs) fun _ =>
      Keeps.bind (keeps_loadRenameState pol env hs src dst) fun state =>
        Keeps.bind (keeps_executeRename_sparing env _ (hreq.1 src hsrc) (hreq.2 dst hdst))
          fun _ => Keeps.ret
  | «open» ino flags =>
    refine endState_pathOf hstart fun path hpath => ?_
    have hne : path ≠ p := fun e => hreq (e ▸ hpath)
    exact (keeps_openPath pol env hs ht ho path flags (fileMessages_sparing env hne _)).endState
      hstart
  | write ino fh offset data => exact (keeps_write hh ho hs ino fh offset data).endState hstart
  | copyFileRange inoIn fhIn offsetIn inoOut fhOut offsetOut len =>
    exact (keeps_copyFileRange hh ho hs inoIn fhIn offsetIn inoOut fhOut offsetOut len).endState
      hstart
  | _ =>
    refine Ensures.endState (keeps_handle_reads pol env ht hs ?_) hstart
    trivial

/-! ## §4. Runs. -/

/-- The request spares `p`, and makes no node of the host there that would show. -/
def SparesPath (pol : Policy) (p : FsPath) (w : World) (x : Env × FuseRequest) : Prop :=
  x.2.Spares w p ∧ (pol.classify p = .copyOnWrite → w.entry p = none → hostKind w.host p = none →
    hostKind (serveFuse pol x.1 w x.2).2.host p = none)

/-- **A hidden path stays hidden** until a request makes something there, or takes its whiteout
away. -/
theorem hidden_run {pol : Policy} {w : World} (hw : Reachable pol w) {p : FsPath}
    (hmode : pol.classify p ≠ .passthrough) (hmiss : StatMisses pol w p)
    {xs : List (Env × FuseRequest)} (h : StepsMeet (serveStep pol) (SparesPath pol p) w xs) :
    AlwaysOn (serveStep pol) (fun v => StatMisses pol v p) w xs := by
  -- the table is needed for the renames of subtrees
  have hstep : ∀ v x v', (Reachable pol v ∧ StatMisses pol v p) → SparesPath pol p v x →
      serveStep pol v x = some v' → Reachable pol v' ∧ StatMisses pol v' p := by
    intro v x v' hv hguard hserve
    obtain ⟨hreach, hmiss⟩ := hv
    obtain rfl := Option.some.inj hserve
    refine ⟨hreach.serve x.1 x.2, ?_⟩
    rw [statMisses_iff] at hmiss ⊢
    have hstill : NoNode v p → StillHidden v p (serveFuse pol x.1 v x.2).2 := fun hno =>
      stillHidden_serveFuse pol x.1 ⟨hreach.goodStore.table, hno, id⟩ hguard.1
    cases hc : pol.classify p with
    | passthrough => exact absurd hc hmode
    | fuseOnly =>
      rw [statKind_fuseOnly hc] at hmiss ⊢
      exact (hstill hmiss).noNode
    | copyOnWrite =>
      rw [statKind_copyOnWrite hc] at hmiss ⊢
      have hafter := hstill hmiss.1
      refine ⟨hafter.noNode, fun hnone => ?_⟩
      have hbefore : v.entry p = none := hafter.kept hnone
      exact hguard.2 hc hbefore (hmiss.2 hbefore)
  have hall := steps_of_guarded (I := fun v => Reachable pol v ∧ StatMisses pol v p) hstep
    ⟨hw, hmiss⟩ h
  exact fun pre hpre t ht => (hall pre hpre t ht).2

end Cas.Fuse
