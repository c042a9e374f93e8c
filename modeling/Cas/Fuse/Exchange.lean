/-
  Cas.Fuse.Exchange — a rename that asks to exchange its two paths.

  `CasFuseFs::rename` takes the flags of the request and never looks at
  them: RENAME_EXCHANGE is served as a one-way move.  What the paths show
  is swapped only by chance, when the host or a copy already has at either
  end what the other one shows (`exchange_honoured`).
-/
import Cas.Fuse.Rename
import Cas.Fuse.Unlink
import Cas.Host.AgreeOn

namespace Cas.Fuse

open Cas.Lib Cas.Host Cas.Syncing

/-! ## §1. What a path shows. -/

/-- The attributes, the bytes of a regular file, the target of a link. -/
@[ext] structure Sight where
  shown : Option Shown
  content : Option Bytes
  target : Option Bytes
  deriving DecidableEq

section SightOf

variable (mode : AccessMode) (fs : FileSystem) (objects : FMap ObjectPath Bytes) (p : FsPath)
  (entry : Option FuseEntry)

def shownOf : Option Shown :=
  match mode with
  | .passthrough => hostShown fs p
  | .fuseOnly => entry.bind entryShown
  | .copyOnWrite =>
    match entry with
    | none => hostShown fs p
    | some e => entryShown e

/-- The bytes behind the file that an open for reading looks for. -/
def bytesOf : Option Bytes :=
  let hostBytes := (fs.find true p).toOption.bind fun found =>
    (fs.inodes.lookup found.ino).bind fun inode => Content.bytes inode.content
  if isWhiteoutEntry entry then none
  else
    match mode, entry.bind (·.objectId) with
    | .passthrough, _ => hostBytes
    | .fuseOnly, some id | .copyOnWrite, some id => objects.lookup (objectPath id)
    | .fuseOnly, none => none
    | .copyOnWrite, none => hostBytes

/-- What a readlink returns. -/
def targetOf : Option Bytes :=
  match mode, entry.map FuseEntry.entryType with
  | .passthrough, _ => (fs.readLink p).toOption
  | .fuseOnly, some .symlink | .copyOnWrite, some .symlink =>
    some ((entry.bind (·.symlinkTarget)).getD [])
  | .fuseOnly, _ | .copyOnWrite, some .whiteout => none
  | .copyOnWrite, _ => (fs.readLink p).toOption

/-- What `p` shows in its mode with `entry` as its entry. -/
def sightOf : Sight where
  shown := shownOf mode fs p entry
  content := if (shownOf mode fs p entry).map (·.kind) = some .regularFile
    then bytesOf mode fs objects p entry else none
  target := targetOf mode fs p entry

end SightOf

/-- What `p` would show with another entry. -/
def sightWith (pol : Policy) (w : World) (p : FsPath) (entry : Option FuseEntry) : Sight :=
  sightOf (pol.classify p) w.host w.objects p entry

def sight (pol : Policy) (w : World) (p : FsPath) : Sight := sightWith pol w p (w.entry p)

section Sights

variable {pol : Policy} {w w' : World} {p : FsPath}

theorem shown_sight : (sight pol w p).shown = shownAt pol w p := by
  show shownOf _ _ _ _ = _
  unfold shownOf shownAt
  cases pol.classify p <;> rfl

/-- The bytes in sight are those that a fresh open reads. -/
theorem content_sight : (sight pol w p).content
    = if (shownAt pol w p).map (·.kind) = some .regularFile then contentAt pol w p else none := by
  have hbytes : bytesOf (pol.classify p) w.host w.objects p (w.entry p) = contentAt pol w p := by
    unfold bytesOf contentAt readsFrom hostFileAt objectAt
    by_cases hwhite : isWhiteoutEntry (w.entry p) = true
    · rw [if_pos hwhite, if_pos hwhite]
      rfl
    · rw [if_neg hwhite, if_neg hwhite]
      cases pol.classify p <;> cases (w.entry p).bind (·.objectId) <;>
        cases w.host.find true p <;> rfl
  rw [← shown_sight, ← hbytes]
  rfl

theorem executeReadlink_target {env : Env} (hq : w.faults = []) :
    (outcome (executeReadlink env (decideReadlink ⟨pol.classify p, p, w.entry p⟩) p w)).toOption
      = targetOf (pol.classify p) w.host p (w.entry p) := by
  have hreal : (outcome (executeReadlink env .useReal p w)).toOption
      = (w.host.readLink p).toOption := toOption_readHost (fun fs => fs.readLink p) w
  have hfuse : executeReadlink env .useFuse p w
      = .ok (((w.entry p).bind (·.symlinkTarget)).getD []) w := run_bind_ok (getEntry_quiet hq)
  have hfuseTarget : (outcome (executeReadlink env .useFuse p w)).toOption
      = some (((w.entry p).bind (·.symlinkTarget)).getD []) := by
    rw [hfuse]
    rfl
  unfold targetOf decideReadlink
  cases pol.classify p with
  | passthrough => exact hreal
  | fuseOnly =>
    dsimp only
    cases (w.entry p).map FuseEntry.entryType with
    | none => rfl
    | some t =>
      cases t with
      | symlink => exact hfuseTarget
      | _ => rfl
  | copyOnWrite =>
    dsimp only
    cases (w.entry p).map FuseEntry.entryType with
    | none => exact hreal
    | some t =>
      cases t with
      | symlink => exact hfuseTarget
      | whiteout => rfl
      | _ => exact hreal

/-- The target in sight is what a readlink replies. -/
theorem target_sight {env : Env} (hq : env.faults = []) {ino : UInt64}
    (hino : w.inodes.getPath ino = some p) (data : Bytes) :
    (serveFuse pol env w (.readlink ino)).1 = .data data ↔ (sight pol w p).target = some data := by
  have hpath : pathOf ino { w with faults := env.faults }
      = .ok p { w with faults := env.faults } := pathOf_ok hino
  have hload : loadReadlinkState pol env p { w with faults := env.faults }
      = .ok ⟨pol.classify p, p, w.entry p⟩ { w with faults := env.faults } := by
    unfold loadReadlinkState
    rw [run_bind_ok (getEntry_quiet hq)]
    rfl
  have hexec : (outcome (executeReadlink env (decideReadlink ⟨pol.classify p, p, w.entry p⟩) p
      { w with faults := env.faults })).toOption = (sight pol w p).target :=
    executeReadlink_target (w := { w with faults := env.faults }) hq
  rw [← hexec, serveFuse_reply]
  show replyOf (outcome (readlink pol env ino { w with faults := env.faults })) = .data data ↔ _
  unfold readlink
  rw [run_bind_ok hpath, run_bind_ok (connectDaemon_quiet hq), run_bind_ok hload, run_bind]
  cases executeReadlink env (decideReadlink ⟨pol.classify p, p, w.entry p⟩) p
      { w with faults := env.faults } with
  | ok target w' =>
    show Reply.data target = .data data ↔ some target = some data
    rw [Reply.data.injEq, Option.some.injEq]
  | error err w' =>
    apply iff_of_false
    · intro h
      cases h
    · intro h
      cases h

theorem sight_congr (hhost : w'.host = w.host) (hobjects : w'.objects = w.objects)
    (p : FsPath) : sight pol w' p = sightWith pol w p (w'.entry p) := by
  unfold sight sightWith
  rw [hhost, hobjects]

end Sights

/-! ## §2. The flags are dropped. -/

/-- `RENAME_EXCHANGE` of `renameat2(2)`. -/
def RENAME_EXCHANGE : UInt32 := 2

/-- `CasFuseFs::rename` with its last argument, `_flags`. -/
def serveRename (pol : Policy) (env : Env) (w : World) (parent : UInt64) (name : Component)
    (newparent : UInt64) (newname : Component) (_flags : UInt32) : Reply × World :=
  serveFuse pol env w (.rename parent name newparent newname)

/-- The request fails. -/
def Reply.IsError (reply : Reply) : Prop := ∃ errno, reply = .error errno

section Run

variable {pol : Policy} {env : Env} {w : World} {parent newparent : UInt64}
  {name newname : Component} {src dst : FsPath} (hsrc : w.namedPath parent name = some src)
  (hdst : w.namedPath newparent newname = some dst)

include hsrc hdst

variable (pol) in
/-- Before the questions are answered nothing happens. -/
theorem rename_undelivered (h : ¬ Delivered 3 env.faults) :
    (serveFuse pol env w (.rename parent name newparent newname)).1.IsError ∧
      Still w (serveFuse pol env w (.rename parent name newparent newname)).2 := by
  have hpath : getPath parent name { w with faults := env.faults }
      = .ok src { w with faults := env.faults } := getPath_ok hsrc
  have hpath' : getPath newparent newname { w with faults := env.faults }
      = .ok dst { w with faults := env.faults } := getPath_ok hdst
  have hstart : Still w { w with faults := env.faults } := ⟨rfl, rfl, rfl⟩
  have hsteady : Steady (Still w) := fun v faults hv => ⟨hv.host, hv.daemon, hv.inodes⟩
  obtain ⟨err, w', hrun, hstill⟩ : ∃ err w',
      handle pol env (.rename parent name newparent newname) { w with faults := env.faults }
        = .error err w' ∧ Still w w' := by
    show ∃ err w', rename pol env parent name newparent newname _ = _ ∧ _
    unfold rename
    rw [run_bind_ok hpath, run_bind_ok hpath']
    have hconnect := keeps_connectDaemon hsteady _ hstart
    cases hc : connectDaemon { w with faults := env.faults } with
    | error err w₁ =>
      rw [hc] at hconnect
      exact ⟨err, w₁, run_bind_error hc, hconnect⟩
    | ok u w₁ =>
      rw [hc] at hconnect
      rw [run_bind_ok hc]
      obtain ⟨hfault, rfl⟩ := connectDaemon_eq_ok.mp hc
      have hload := keeps_loadRenameState pol env hsteady src dst _ hconnect
      cases hl : loadRenameState pol env src dst { w with faults := env.faults.tail } with
      | error err w₂ =>
        rw [hl] at hload
        exact ⟨err, w₂, run_bind_error hl, hload⟩
      | ok state w₂ => exact absurd ⟨hfault, ((loadRenameState_eq_ok pol env).mp hl).1⟩ h
  rw [serveFuse_error _ hrun]
  exact ⟨⟨_, rfl⟩, hstill⟩

/-- Once they are, the rest is up to the executor. -/
theorem rename_delivered (h : Delivered 3 env.faults) :
    handle pol env (.rename parent name newparent newname) { w with faults := env.faults }
      = (executeRename env (decideRename ⟨pol.classify src, src, dst, w.entry src⟩) src dst >>=
          fun _ => pure .ok : FuseM Reply) { w with faults := env.faults.tail.tail.tail } := by
  have hpath : getPath parent name { w with faults := env.faults }
      = .ok src { w with faults := env.faults } := getPath_ok hsrc
  have hpath' : getPath newparent newname { w with faults := env.faults }
      = .ok dst { w with faults := env.faults } := getPath_ok hdst
  have hconnect : connectDaemon { w with faults := env.faults }
      = .ok () { w with faults := env.faults.tail } := connectDaemon_eq_ok.mpr ⟨h.1, rfl⟩
  have hload : loadRenameState pol env src dst { w with faults := env.faults.tail }
      = .ok ⟨pol.classify src, src, dst, w.entry src⟩ { w with faults := env.faults.tail.tail.tail } :=
    (loadRenameState_eq_ok pol env).mpr ⟨h.2, rfl, rfl⟩
  show rename pol env parent name newparent newname _ = _
  unfold rename
  rw [run_bind_ok hpath, run_bind_ok hpath', run_bind_ok hconnect, run_bind_ok hload]

end Run

section Fuse

variable (env : Env) (w : World) (src dst : FsPath) {mode : AccessMode}

/-- The message that moves the entries, and the one after it. -/
theorem executeRename_fuse (hmode : mode ≠ .passthrough) :
    ∃ reply, executeRename env (decideRename ⟨mode, src, dst, w.entry src⟩) src dst
      = (call env (moveRequest w src dst) (takeUnit reply) >>= fun _ =>
          ignore (Client.deleteWhiteout env dst) : FuseM Unit) := by
  rw [decideRename_fuse hmode]
  unfold moveRequest
  by_cases hdir : isDirEntry (w.entry src) = true
  · rw [if_pos hdir, if_pos hdir]
    exact ⟨.renameTree, rfl⟩
  · rw [if_neg hdir, if_neg hdir]
    exact ⟨.renameFile, rfl⟩

/-- A message that goes wrong: the entries have moved if it arrived. -/
theorem executeRename_faulty (hmode : mode ≠ .passthrough) {fault : RpcFault}
    (hf : w.faults.head?.join = some fault) : ∃ err,
    executeRename env (decideRename ⟨mode, src, dst, w.entry src⟩) src dst w = .error err { w with
      faults := w.faults.tail
      daemon := if reaches (some fault)
        then (dispatch (env.dispatchEnv w.host) w.daemon (moveRequest w src dst)).2
        else w.daemon } := by
  obtain ⟨reply, hexec⟩ := executeRename_fuse env w src dst hmode
  obtain ⟨err, hsend⟩ := sendRequest_fails env (moveRequest w src dst) hf
  refine ⟨.syncingClient err, ?_⟩
  rw [hexec]
  apply run_bind_error
  unfold call
  rw [run_bind_error hsend]

/-- Without an entry at the source the daemon refuses. -/
theorem executeRename_missing (hmode : mode ≠ .passthrough) (hnone : w.entry src = none)
    (hf : w.faults.head?.join = none) : ∃ err,
    executeRename env (decideRename ⟨mode, src, dst, w.entry src⟩) src dst w
      = .error err { w with faults := w.faults.tail } := by
  have hreply : dispatch (env.dispatchEnv w.host) w.daemon (.renameFile src dst)
      = (.error "Source path not found", w.daemon) := by
    show w.daemon.renameFile src dst = _
    unfold Server.renameFile
    rw [show w.daemon.state.fuseMap.lookup src = none from hnone]
  refine ⟨.syncingClient (.server "Source path not found"), ?_⟩
  rw [decideRename_fuse hmode, hnone]
  apply run_bind_error
  unfold Client.renameFile call
  rw [run_bind_ok (sendRequest_arrives _ hf), hreply]
  rfl

/-- A message that does not arrive, or that moves nothing, leaves everything as it is. -/
theorem dispatch_missing (hnone : w.entry src = none) (denv : DispatchEnv) :
    (dispatch denv w.daemon (moveRequest w src dst)).2 = w.daemon := by
  unfold moveRequest
  rw [hnone]
  show (w.daemon.renameFile src dst).2 = _
  unfold Server.renameFile
  rw [show w.daemon.state.fuseMap.lookup src = none from hnone]

end Fuse

/-! ## §3. What an exchange asks for, and when it gets it. -/

/-- The two subtrees have changed places. -/
def Swapped (pol : Policy) (w w' : World) (src dst : FsPath) : Prop :=
  ∀ r, sight pol w' (dst ++ r) = sight pol w (src ++ r) ∧
    sight pol w' (src ++ r) = sight pol w (dst ++ r)

/-- An error and nothing changed, or OK and the two subtrees swapped. -/
def ExchangeHonoured (pol : Policy) (w : World) (src dst : FsPath) (reply : Reply) (w' : World) :
    Prop :=
  (reply.IsError ∧ ∀ p, sight pol w' p = sight pol w p) ∨
    (reply = .ok ∧ Swapped pol w w' src dst)

/-- Whatever entries move, nobody can tell. -/
def MoveUnseen (pol : Policy) (w : World) (src dst : FsPath) : Prop :=
  ∀ r, Moved w src r → sightWith pol w (src ++ r) none = sight pol w (src ++ r) ∧
    sightWith pol w (dst ++ r) (w.entry (src ++ r)) = sight pol w (dst ++ r)

/-- Under each entry that moves lies what the other end showed, and the rest of the two subtrees
was alike. -/
structure MoveSwaps (pol : Policy) (w : World) (src dst : FsPath) : Prop where
  moved : ∀ r, Moved w src r → sightWith pol w (src ++ r) none = sight pol w (dst ++ r) ∧
    sightWith pol w (dst ++ r) (w.entry (src ++ r)) = sight pol w (src ++ r)
  rest : ∀ r, ¬ Moved w src r → sight pol w (src ++ r) = sight pol w (dst ++ r)

/-- The two paths are names of one inode; rename(2) then does nothing. -/
def SameHostNode (fs : FileSystem) (src dst : FsPath) : Prop :=
  ∃ found q, fs.find false src = .ok found ∧ fs.locate false dst = .ok q ∧
    fs.names.lookup q = some found.ino

/-- The host refuses, or the two are one node and look alike. -/
def HostExchangeSafe (pol : Policy) (w : World) (src dst : FsPath) : Prop :=
  (w.host.rename src dst).isOk = false ∨
    (SameHostNode w.host src dst ∧ ∀ r, sight pol w (src ++ r) = sight pol w (dst ++ r))

/-- The resolution of the source goes through the place of the destination, which only a symbolic
link above the source can make it do.  What rename(2) puts there redirects the link. -/
def LeadsThrough (fs : FileSystem) (src dst : FsPath) : Prop :=
  ∃ q, fs.locate false dst = .ok q ∧ ∃ p ∈ lookedUp fs.kindAt false src, q <+: p

/-- When `rename` serves an exchange as it should: it fails before anything happens, or what it
does looks like an exchange. -/
def ExchangeSafe (pol : Policy) (env : Env) (w : World) (src dst : FsPath) : Prop :=
  ¬ Delivered 3 env.faults ∨
    match pol.classify src with
    | .passthrough => HostExchangeSafe pol w src dst
    | .fuseOnly | .copyOnWrite => w.entry src = none ∨
      match env.fault 3 with
      | some (.unsent _) => True
      | some (.lost _) => MoveUnseen pol w src dst
      | none => MoveSwaps pol w src dst

/-! ## §4. A move on the host. -/

section HostMove

variable {fs fs' : FileSystem} {src dst : FsPath}

/-- Two names of one inode are left as they are. -/
theorem rename_sameHostNode (hsame : SameHostNode fs src dst) (h : fs.rename src dst = .ok fs') :
    fs' = fs := by
  obtain ⟨found, q, hfound, hq, hino⟩ := hsame
  unfold FileSystem.rename at h
  rw [hfound] at h
  simp only [hq] at h
  split_ifs at h
  · exact (Except.ok.inj h).symm

/-- Otherwise the names at the source are gone. -/
theorem rename_moves (hsame : ¬ SameHostNode fs src dst) (h : fs.rename src dst = .ok fs') :
    ∃ found q, fs.find false src = .ok found ∧ fs.locate false dst = .ok q ∧
      ¬ q <+: found.path ∧ fs' = fs.moveNames found.path q := by
  unfold FileSystem.rename at h
  split at h
  · cases h
  · next found hfound =>
    split at h
    · cases h
    · next q hq =>
      split_ifs at h with hroot hbelow habove hone
      · exact absurd ⟨found, q, hfound, hq, hone⟩ hsame
      · split at h
        · cases h
        · cases h
          refine ⟨found, q, hfound, hq, fun hle => habove ⟨hle, ?_⟩, rfl⟩
          rintro rfl
          exact hone (FileSystem.find_ok hfound).2.1

theorem hostShown_none (h : ∀ q, fs.locate false src = .ok q → fs.kindAt q = none) :
    hostShown fs src = none := by
  unfold hostShown FileSystem.symlinkMetadata
  cases hfind : fs.find false src with
  | error errno => rfl
  | ok found =>
    obtain ⟨hat, hname, hinode⟩ := FileSystem.find_ok hfind
    have hkind := h found.path hat
    unfold FileSystem.kindAt FileSystem.node at hkind
    rw [hname, Option.bind_some, hinode] at hkind
    cases hkind

/-- Outside the place it moves to, a move only takes nodes away. -/
theorem kindAt_moveNames {s q p : FsPath} (hq : ¬ q <+: p) :
    (fs.moveNames s q).kindAt p = none ∨ (fs.moveNames s q).kindAt p = fs.kindAt p := by
  have hnames : (fs.moveNames s q).names.lookup p
      = (FileSystem.movedFrom s q p).bind fun old => fs.names.lookup old :=
    FileSystem.names_moveNames s q p
  unfold FileSystem.movedFrom at hnames
  rw [if_neg hq] at hnames
  unfold FileSystem.kindAt FileSystem.node
  rw [hnames]
  split_ifs
  · exact Or.inl rfl
  · exact Or.inr rfl

/-- A path from which a node has been moved shows nothing any more, unless the way to it led
through where the node is now. -/
theorem hostShown_moved (hway : ¬ LeadsThrough fs src dst) (hsame : ¬ SameHostNode fs src dst)
    (h : fs.rename src dst = .ok fs') : hostShown fs' src = none := by
  obtain ⟨found, q, hfound, hat, hq, rfl⟩ := rename_moves hsame h
  have hgone : (fs.moveNames found.path q).kindAt found.path = none := by
    unfold FileSystem.kindAt FileSystem.node
    rw [FileSystem.names_moveNames]
    unfold FileSystem.movedFrom
    rw [if_neg hq, if_pos List.prefix_rfl]
    rfl
  refine hostShown_none fun q' hq' => ?_
  exact locate_removed hgone
    (fun p hp => kindAt_moveNames fun hle => hway ⟨q, hat, p, hp, hle⟩)
    (FileSystem.find_ok hfound).1 hq'

end HostMove

/-! ## §5. A move of entries. -/

section EntryMove

variable {pol : Policy} {w w' : World} {src dst : FsPath}

theorem sight_whiteout {p : FsPath} (hmode : pol.classify p ≠ .passthrough) {e : FuseEntry}
    (he : w.entry p = some e) (hwhite : e.entryType = .whiteout) : shownAt pol w p = none := by
  have hnone : entryShown e = none := by
    unfold entryShown kindFromEntry
    rw [hwhite]
    rfl
  unfold shownAt
  rw [he]
  cases hm : pol.classify p with
  | passthrough => exact absurd hm hmode
  | fuseOnly => exact hnone
  | copyOnWrite => exact hnone

/-- A whiteout over a host path only matters to those that open it. -/
theorem sight_dropped {p : FsPath} (hmode : pol.classify p = .passthrough)
    (hhost : w'.host = w.host) (hkind : (shownAt pol w p).map (·.kind) ≠ some .regularFile) :
    sight pol w' p = sight pol w p := by
  have hshown : shownAt pol w' p = shownAt pol w p := by
    unfold shownAt
    rw [hmode, hhost]
  have hcontent : (sight pol w' p).content = (sight pol w p).content := by
    rw [content_sight, content_sight, hshown, if_neg hkind, if_neg hkind]
  have htarget : (sight pol w' p).target = (sight pol w p).target := by
    show targetOf (pol.classify p) _ p _ = targetOf (pol.classify p) _ p _
    unfold targetOf
    rw [hmode, hhost]
  rw [← shown_sight, ← shown_sight] at hshown
  exact Sight.ext hshown hcontent htarget

/-- An entry that does not go along is that of a directory. -/
theorem isDirEntry_of_stays (hentry : (w.entry src).isSome = true) (hstays : ¬ Moved w src []) :
    isDirEntry (w.entry src) = true := by
  by_contra hdir
  apply hstays
  rw [← List.append_nil src] at hentry
  refine ⟨?_, hentry⟩
  unfold movedPaths
  rw [if_neg hdir, List.append_nil]
  exact List.mem_singleton_self src

theorem shown_dir (hmode : pol.classify src ≠ .passthrough)
    (hdir : isDirEntry (w.entry src) = true) :
    (sight pol w src).shown.map (·.kind) = some .directory := by
  obtain ⟨e, he⟩ := Option.isSome_iff_exists.mp (isOk_of_isDirEntry hdir)
  have htype : e.entryType = .dir := by
    rw [he] at hdir
    exact of_decide_eq_true hdir
  have hkind : (entryShown e).map (·.kind) = some .directory := by
    rw [entryShown_kind]
    unfold kindFromEntry
    rw [htype]
  rw [shown_sight]
  unfold shownAt
  rw [he]
  cases hm : pol.classify src with
  | passthrough => exact absurd hm hmode
  | fuseOnly => exact hkind
  | copyOnWrite => exact hkind

variable (hgood : GoodStore w.daemon) (hapart : Apart src dst)

/-- What the two ends show after the entries have moved. -/
structure MoveSights (pol : Policy) (w w' : World) (src dst : FsPath) : Prop where
  left : ∀ r, Moved w src r → sight pol w' (src ++ r) = sightWith pol w (src ++ r) none
  stayed : ∀ r, ¬ Moved w src r → sight pol w' (src ++ r) = sight pol w (src ++ r)
  arrived : ∀ r, Moved w src r →
    sight pol w' (dst ++ r) = sightWith pol w (dst ++ r) (w.entry (src ++ r))

include hgood hapart

theorem moveSights (hmode : pol.classify src ≠ .passthrough)
    (hvisible : shownAt pol w src ≠ none) (hrun : EntriesUpTo w (movedMap w src dst) dst w') :
    MoveSights pol w w' src dst where
  left r hr := by
    rw [sight_congr hrun.host hrun.objects, entry_source hgood hapart hrun, if_pos hr]
  stayed r hr := by
    rw [sight_congr hrun.host hrun.objects, entry_source hgood hapart hrun, if_neg hr]
    rfl
  arrived r hr := by
    have hlook := lookup_movedMap hgood hapart r
    rw [if_pos hr] at hlook
    rw [sight_congr hrun.host hrun.objects]
    rcases hrun.entry (dst ++ r) with he | ⟨hroot, e, he, hwhite⟩
    · rw [he, hlook]
    · -- the entry that arrives is that of the visible source
      obtain rfl : r = [] := List.append_right_eq_self.mp hroot
      rw [List.append_nil, List.append_nil] at hlook
      exact absurd (sight_whiteout hmode (hlook.symm.trans he) hwhite) hvisible

/-- **The move swaps** what the two paths show exactly under the condition. -/
theorem swapped_iff (hmode : pol.classify src ≠ .passthrough)
    (hvisible : shownAt pol w src ≠ none) (hvisible' : shownAt pol w dst ≠ none)
    (hentry : (w.entry src).isSome = true) (hrun : EntriesUpTo w (movedMap w src dst) dst w') :
    Swapped pol w w' src dst ↔ MoveSwaps pol w src dst := by
  have hsights := moveSights hgood hapart hmode hvisible hrun
  constructor
  · intro hswap
    refine ⟨fun r hr => ⟨?_, ?_⟩, fun r hr => ?_⟩
    · rw [← hsights.left r hr]
      exact (hswap r).2
    · rw [← hsights.arrived r hr]
      exact (hswap r).1
    · rw [← hsights.stayed r hr]
      exact (hswap r).2
  · intro h r
    by_cases hr : Moved w src r
    · rw [hsights.left r hr, hsights.arrived r hr]
      exact ⟨(h.moved r hr).2, (h.moved r hr).1⟩
    · have hkept : sight pol w' (dst ++ r) = sight pol w (dst ++ r) := by
        have hlook := lookup_movedMap hgood hapart r
        rw [if_neg hr] at hlook
        rcases hrun.entry (dst ++ r) with he | ⟨hroot, e, he, hwhite⟩
        · rw [sight_congr hrun.host hrun.objects, he, hlook]
          rfl
        · -- a whiteout at the destination is dropped; what shows there is a directory
          obtain rfl : r = [] := List.append_right_eq_self.mp hroot
          have halike := h.rest [] hr
          rw [List.append_nil, List.append_nil] at halike
          rw [List.append_nil] at hlook
          rw [List.append_nil]
          have hpass : pol.classify dst = .passthrough := by
            by_contra hfuse
            exact hvisible' (sight_whiteout hfuse (hlook.symm.trans he) hwhite)
          apply sight_dropped hpass hrun.host
          rw [← shown_sight, ← halike, shown_dir hmode (isDirEntry_of_stays hentry hr)]
          exact nofun
      rw [hkept, hsights.stayed r hr]
      exact ⟨(h.rest r hr).symm, h.rest r hr⟩

/-- **The move stays unseen** exactly when nothing shows differently at the paths whose entries
it changes. -/
theorem unseen_iff (hmode : pol.classify src ≠ .passthrough)
    (hvisible : shownAt pol w src ≠ none) (hrun : Entries w (movedMap w src dst) w') :
    (∀ p, sight pol w' p = sight pol w p) ↔ MoveUnseen pol w src dst := by
  have hentry : ∀ p, w'.entry p = (movedMap w src dst).lookup p := by
    intro p
    unfold World.entry
    rw [hrun.map]
  have hupto : EntriesUpTo w (movedMap w src dst) dst w' :=
    ⟨hrun.host, hrun.objects, fun p => Or.inl (hentry p)⟩
  have hsights := moveSights hgood hapart hmode hvisible hupto
  constructor
  · intro h r hr
    rw [← hsights.left r hr, ← hsights.arrived r hr]
    exact ⟨h _, h _⟩
  · intro h p
    by_cases hs : src <+: p
    · obtain ⟨r, rfl⟩ := hs
      by_cases hr : Moved w src r
      · rw [hsights.left r hr]
        exact (h r hr).1
      · exact hsights.stayed r hr
    · by_cases hd : dst <+: p
      · obtain ⟨r, rfl⟩ := hd
        by_cases hr : Moved w src r
        · rw [hsights.arrived r hr]
          exact (h r hr).2
        · rw [sight_congr hrun.host hrun.objects, hentry, lookup_movedMap hgood hapart r,
            if_neg hr]
          rfl
      · rw [sight_congr hrun.host hrun.objects, entry_elsewhere hgood hupto hs hd]
        rfl

end EntryMove

/-! ## §6. The exchange. -/

section Exchange

variable {pol : Policy} {env : Env} {w : World} {parent newparent : UInt64}
  {name newname : Component} {src dst : FsPath}

/-- Messages and host as they were, so the sights are. -/
theorem honoured_still {w' : World} {reply : Reply} (hreply : reply.IsError) (h : Still w w') :
    ExchangeHonoured pol w src dst reply w' := by
  refine Or.inl ⟨hreply, fun p => ?_⟩
  have hobjects : w'.objects = w.objects := by
    unfold World.objects
    rw [h.daemon]
  rw [sight_congr h.host hobjects]
  unfold World.entry
  rw [h.daemon]
  rfl

theorem honoured_error_iff {w' : World} {errno : Errno} :
    ExchangeHonoured pol w src dst (.error errno) w' ↔ ∀ p, sight pol w' p = sight pol w p := by
  constructor
  · rintro (⟨-, h⟩ | ⟨h, -⟩)
    · exact h
    · cases h
  · exact fun h => Or.inl ⟨⟨errno, rfl⟩, h⟩

theorem honoured_ok_iff {w' : World} :
    ExchangeHonoured pol w src dst .ok w' ↔ Swapped pol w w' src dst := by
  constructor
  · rintro (⟨⟨errno, h⟩, -⟩ | ⟨-, h⟩)
    · cases h
    · exact h
  · exact fun h => Or.inr ⟨rfl, h⟩

section Served

variable (hsrc : w.namedPath parent name = some src) (hdst : w.namedPath newparent newname = some dst)
  (hdelivered : Delivered 3 env.faults)

include hsrc hdst hdelivered

variable (pol) in
/-- The executor fails, and so does the request. -/
theorem serveFuse_rename_error {err : Error} {w' : World}
    (h : executeRename env (decideRename ⟨pol.classify src, src, dst, w.entry src⟩) src dst
      { w with faults := env.faults.tail.tail.tail } = .error err w') :
    serveFuse pol env w (.rename parent name newparent newname)
      = (.error (errToErrno err), w') := by
  apply serveFuse_error
  rw [rename_delivered hsrc hdst hdelivered]
  exact run_bind_error h

variable (pol) in
theorem serveFuse_rename_ok {w' : World}
    (h : executeRename env (decideRename ⟨pol.classify src, src, dst, w.entry src⟩) src dst
      { w with faults := env.faults.tail.tail.tail } = .ok () w') :
    serveFuse pol env w (.rename parent name newparent newname) = (.ok, w') := by
  apply serveFuse_ok
  rw [rename_delivered hsrc hdst hdelivered]
  exact run_bind_ok h

/-- A Passthrough source: rename(2) decides. -/
theorem honoured_host (hmode : pol.classify src = .passthrough)
    (hvisible : shownAt pol w dst ≠ none) {reply : Reply} {w' : World}
    (hserved : serveFuse pol env w (.rename parent name newparent newname) = (reply, w')) :
    (HostExchangeSafe pol w src dst → ExchangeHonoured pol w src dst reply w') ∧
      (ExchangeHonoured pol w src dst reply w' →
        HostExchangeSafe pol w src dst ∨ LeadsThrough w.host src dst) := by
  have hexec : executeRename env (decideRename ⟨pol.classify src, src, dst, w.entry src⟩) src dst
      = changeHost fun fs => fs.rename src dst := by
    rw [hmode]
    rfl
  unfold HostExchangeSafe
  cases hres : w.host.rename src dst with
  | error errno =>
    have hrun := serveFuse_rename_error pol hsrc hdst hdelivered
      ((congrFun hexec _).trans (changeHost_error hres))
    obtain ⟨rfl, rfl⟩ := Prod.mk.inj (hserved.symm.trans hrun)
    exact ⟨fun _ => honoured_still ⟨_, rfl⟩ ⟨rfl, rfl, rfl⟩, fun _ => Or.inl (Or.inl rfl)⟩
  | ok host =>
    have hrun := serveFuse_rename_ok pol hsrc hdst hdelivered
      ((congrFun hexec _).trans (changeHost_ok hres))
    obtain ⟨rfl, rfl⟩ := Prod.mk.inj (hserved.symm.trans hrun)
    rw [honoured_ok_iff]
    refine ⟨?_, fun h => ?_⟩
    · rintro (h | ⟨hsame, halike⟩)
      · cases h
      · obtain rfl : host = w.host := rename_sameHostNode hsame hres
        exact fun r => ⟨(halike r).symm, halike r⟩
    · by_cases hsame : SameHostNode w.host src dst
      · obtain rfl : host = w.host := rename_sameHostNode hsame hres
        exact Or.inl (Or.inr ⟨hsame, fun r => (h r).2⟩)
      · refine Or.inr (by_contra fun hway => ?_)
        -- the source shows nothing any more, and the destination did
        have hgone : hostShown host src = none := hostShown_moved hway hsame hres
        have hback := congrArg Sight.shown (h []).2
        rw [List.append_nil, List.append_nil, shown_sight, shown_sight] at hback
        apply hvisible
        rw [← hback]
        unfold shownAt
        rw [hmode]
        exact hgone

/-- Any other source: the message that moves the entries decides. -/
theorem honoured_entries_iff (hw : Reachable pol w) (hapart : Apart src dst)
    (hmode : pol.classify src ≠ .passthrough) (hvisible : shownAt pol w src ≠ none)
    (hvisible' : shownAt pol w dst ≠ none) :
    ExchangeHonoured pol w src dst (serveFuse pol env w (.rename parent name newparent newname)).1
      (serveFuse pol env w (.rename parent name newparent newname)).2 ↔
        (w.entry src = none ∨ match env.fault 3 with
          | some (.unsent _) => True
          | some (.lost _) => MoveUnseen pol w src dst
          | none => MoveSwaps pol w src dst) := by
  have hgood := hw.goodStore
  have hfault : env.fault 3 = env.faults.tail.tail.tail.head?.join := by
    unfold Env.fault
    rw [List.head?_eq_getElem?, List.getElem?_tail, List.getElem?_tail, List.getElem?_tail]
  cases hf : env.faults.tail.tail.tail.head?.join with
  | some fault =>
    obtain ⟨err, hexec⟩ := executeRename_faulty env { w with faults := env.faults.tail.tail.tail }
      src dst hmode hf
    rw [serveFuse_rename_error pol hsrc hdst hdelivered hexec, hfault, hf,
      honoured_error_iff]
    cases fault with
    | unsent e => exact iff_of_true (fun p => rfl) (Or.inr trivial)
    | lost e =>
      cases hentry : w.entry src with
      | none =>
        refine iff_of_true (fun p => ?_) (Or.inl rfl)
        have hkept := dispatch_missing w src dst hentry (env.dispatchEnv w.host)
        exact congrArg (fun daemon => sight pol { w with daemon } p) hkept
      | some entry =>
        have hsome : (w.entry src).isSome = true := by
          rw [hentry]
          rfl
        have hstill : Still w { w with faults := env.faults.tail.tail.tail.tail } := ⟨rfl, rfl, rfl⟩
        have hmoved : Entries w (movedMap w src dst) _ :=
          entries_move w hsome hstill (env.dispatchEnv w.host)
        refine (unseen_iff hgood hapart hmode hvisible hmoved).trans ?_
        rw [or_iff_right nofun]
  | none =>
    rw [hfault, hf]
    cases hentry : w.entry src with
    | none =>
      refine iff_of_true ?_ (Or.inl rfl)
      obtain ⟨err, hexec⟩ := executeRename_missing env
        { w with faults := env.faults.tail.tail.tail } src dst hmode hentry hf
      rw [serveFuse_rename_error pol hsrc hdst hdelivered hexec]
      exact honoured_still ⟨_, rfl⟩ ⟨rfl, rfl, rfl⟩
    | some entry =>
      have hsome : (w.entry src).isSome = true := by
        rw [hentry]
        rfl
      obtain ⟨w', hexec⟩ := (executeRename_returns_iff pol env
        (w := { w with faults := env.faults.tail.tail.tail }) src dst).mpr (by
          cases hm : pol.classify src with
          | passthrough => exact absurd hm hmode
          | fuseOnly | copyOnWrite => exact ⟨hf, hsome⟩)
      have hmoved := ensures_executeRename env w hmode src dst
        { w with faults := env.faults.tail.tail.tail } ⟨rfl, rfl, rfl⟩
      have hupto : EntriesUpTo w (movedMap w src dst) dst w' := by
        have hexec' : executeRename env
          (decideRename ⟨pol.classify src, src, dst, w.entry src⟩) src dst _ = .ok () w' := hexec
        rw [hexec'] at hmoved
        exact hmoved
      rw [serveFuse_rename_ok pol hsrc hdst hdelivered hexec, honoured_ok_iff,
        swapped_iff hgood hapart hmode hvisible hvisible' hsome hupto, or_iff_right nofun]

end Served

/-- **An exchange is honoured** when it fails in time, or the one-way move that it is served by is
no different; and only then, unless a link redirects the source when the host moves it. -/
theorem exchange_honoured (hw : Reachable pol w) (env : Env)
    (hsrc : w.namedPath parent name = some src) (hdst : w.namedPath newparent newname = some dst)
    (hapart : Apart src dst) (hvisible : shownAt pol w src ≠ none)
    (hvisible' : shownAt pol w dst ≠ none) :
    (ExchangeSafe pol env w src dst → ExchangeHonoured pol w src dst
      (serveRename pol env w parent name newparent newname RENAME_EXCHANGE).1
      (serveRename pol env w parent name newparent newname RENAME_EXCHANGE).2) ∧
    (ExchangeHonoured pol w src dst
      (serveRename pol env w parent name newparent newname RENAME_EXCHANGE).1
      (serveRename pol env w parent name newparent newname RENAME_EXCHANGE).2 →
        ExchangeSafe pol env w src dst ∨
          (pol.classify src = .passthrough ∧ LeadsThrough w.host src dst)) := by
  unfold serveRename ExchangeSafe
  by_cases hdelivered : Delivered 3 env.faults
  · rw [or_iff_right (not_not_intro hdelivered)]
    have hentries := honoured_entries_iff hsrc hdst hdelivered hw hapart
    cases hmode : pol.classify src with
    | passthrough =>
      have hhost := honoured_host hsrc hdst hdelivered hmode hvisible' rfl
      exact ⟨hhost.1, fun h => (hhost.2 h).imp_right fun hway => ⟨rfl, hway⟩⟩
    | fuseOnly | copyOnWrite =>
      have hiff := hentries (by rw [hmode]; exact nofun) hvisible hvisible'
      exact ⟨hiff.mpr, fun h => Or.inl (hiff.mp h)⟩
  · have hstill := rename_undelivered pol hsrc hdst hdelivered
    exact ⟨fun _ => honoured_still hstill.1 hstill.2, fun _ => Or.inl (Or.inl hdelivered)⟩

end Exchange

/-- Two host files without entries: the daemon refuses and nothing changes. -/
theorem exchange_honoured_hostFiles :
    ExchangeHonoured allCopyOnWrite (World.mount twoFiles (Server.init "s")) [Name.a] [Name.b]
      (serveRename allCopyOnWrite Env.quiet (World.mount twoFiles (Server.init "s")) 1
        (.name Name.a) 1 (.name Name.b) RENAME_EXCHANGE).1
      (serveRename allCopyOnWrite Env.quiet (World.mount twoFiles (Server.init "s")) 1
        (.name Name.a) 1 (.name Name.b) RENAME_EXCHANGE).2 := by
  apply (exchange_honoured (.mount twoFiles "s") Env.quiet rfl rfl ⟨by decide, by decide⟩
    (by decide) (by decide)).1
  exact Or.inr (Or.inl rfl)

/-- The copy of `/a` replaces `/b`, whose bytes are gone; the reply is OK. -/
theorem not_exchange_honoured :
    ¬ ∀ (pol : Policy) (w : World), Reachable pol w → ∀ (env : Env) (parent newparent : UInt64)
      (name newname : Component) (src dst : FsPath),
      w.namedPath parent name = some src → w.namedPath newparent newname = some dst →
      Apart src dst → shownAt pol w src ≠ none → shownAt pol w dst ≠ none →
      ExchangeHonoured pol w src dst
        (serveRename pol env w parent name newparent newname RENAME_EXCHANGE).1
        (serveRename pol env w parent name newparent newname RENAME_EXCHANGE).2 := by
  intro h
  have hreach : Reachable allCopyOnWrite copiedA := .serve (.serve (.mount twoFiles "s") _ _) _ _
  have hhonoured := h allCopyOnWrite copiedA hreach Env.quiet 1 1 (.name Name.a) (.name Name.b)
    [Name.a] [Name.b] rfl rfl ⟨by decide, by decide⟩ (by decide) (by decide)
  have hreply : (serveRename allCopyOnWrite Env.quiet copiedA 1 (.name Name.a) 1 (.name Name.b)
      RENAME_EXCHANGE).1 = .ok := by decide
  rcases hhonoured with ⟨⟨errno, herror⟩, -⟩ | ⟨-, hswapped⟩
  · rw [hreply] at herror
    cases herror
  · -- what was `/b`, the bytes [2], should now be at `/a`
    have hback := congrArg Sight.content (hswapped []).2
    exact absurd hback (by decide)

end Cas.Fuse
