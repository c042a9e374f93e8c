/-
  Cas.Fuse.Rename — what a rename between CopyOnWrite paths does to the
  view.

  The daemon moves fuse entries and nothing else.  `RenameExact` says for
  which states before the rename that is enough: no host node shows
  through where an entry has left, and nothing that the client sees at the
  source or at the destination is without an entry that moves
  (`rename_moves_view_iff`).
-/
import Cas.Fuse.Isolation
import Cas.Fuse.View
import Cas.Syncing.Moves

namespace Cas.Fuse

open Cas.Lib Cas.Host Cas.Syncing

/-! ## §1. What a rename leaves behind. -/

/-- The entry of a directory. -/
def isDirEntry (entry : Option FuseEntry) : Bool :=
  (entry.map fun e => decide (e.entryType = .dir)).getD false

theorem isOk_of_isDirEntry {entry : Option FuseEntry} (h : isDirEntry entry = true) :
    entry.isSome = true := by
  cases entry with
  | none => cases h
  | some e => rfl

/-- The paths whose entries a rename moves: a directory takes along what the closure table has
below it. -/
def movedPaths (w : World) (src : FsPath) : List FsPath :=
  if isDirEntry (w.entry src) then w.daemon.state.pathTree.subtreePaths src else [src]

/-- The entries after the move. -/
def movedMap (w : World) (src dst : FsPath) : FuseMap :=
  (movedPaths w src).foldl (ServerState.moveEntry src dst) w.daemon.state.fuseMap

/-- Nothing has happened yet. -/
structure Still (w₀ w : World) : Prop where
  host : w.host = w₀.host
  daemon : w.daemon = w₀.daemon
  inodes : w.inodes = w₀.inodes

/-- The entries are those of `m`, the host and the object files those of `w₀`. -/
structure Entries (w₀ : World) (m : FuseMap) (w : World) : Prop where
  host : w.host = w₀.host
  objects : w.objects = w₀.objects
  map : w.daemon.state.fuseMap = m

/-- The same, except that a whiteout at `dst` may be gone. -/
structure EntriesUpTo (w₀ : World) (m : FuseMap) (dst : FsPath) (w : World) : Prop where
  host : w.host = w₀.host
  objects : w.objects = w₀.objects
  entry : ∀ p, w.entry p = m.lookup p ∨
    (p = dst ∧ ∃ e, m.lookup dst = some e ∧ e.entryType = .whiteout)

section Run

variable (pol : Policy) (env : Env) (w₀ : World)

theorem keeps_connectDaemon_still : Keeps (Still w₀) connectDaemon :=
  keeps_connectDaemon fun _ _ hw => ⟨hw.host, hw.daemon, hw.inodes⟩

/-- A message that is answered has been dispatched. -/
theorem ensures_answered (req : Request) {Q : Response → World → Prop}
    (hQ : ∀ w denv, Still w₀ w →
      Q (dispatch denv w.daemon req).1 { w with daemon := (dispatch denv w.daemon req).2 }) :
    Ensures (Still w₀) (sendRequest env req) Q fun _ => True := by
  apply Ensures.bind (Q := fun _ => Still w₀)
  · exact fun w hw => ⟨hw.host, hw.daemon, hw.inodes⟩
  · intro fault
    cases fault with
    | none => exact fun w hw => hQ w _ hw
    | some f =>
      cases f with
      | unsent err => exact Ensures.fail fun _ _ => trivial
      | lost err =>
        exact Ensures.bind (Q := fun _ _ => True) (fun _ _ => trivial)
          fun _ => Ensures.fail fun _ h => h

theorem ensures_getEntry_still (path : FsPath) :
    Ensures (Still w₀) (Client.getEntry env path) (fun e w => Still w₀ w ∧ e = w₀.entry path)
      fun _ => True := by
  apply Ensures.bind (Q := fun response w => Still w₀ w ∧ response = .getEntry (w₀.entry path))
  · apply ensures_answered
    intro w denv hw
    refine ⟨⟨hw.host, hw.daemon, hw.inodes⟩, ?_⟩
    show Response.getEntry (w.entry path) = _
    unfold World.entry
    rw [hw.daemon]
  · intro response
    apply Ensures.of_fact
    intro hresponse
    subst hresponse
    exact Ensures.ret fun w hw => ⟨hw, rfl⟩

/-- The request that moves the entries. -/
def moveRequest (w : World) (src dst : FsPath) : Request :=
  if isDirEntry (w.entry src) then .renameTree src dst else .renameFile src dst

omit pol env in
/-- An entry at the source is all that it takes. -/
theorem entries_move {src dst : FsPath} (he : (w₀.entry src).isSome = true) {w : World}
    (hw : Still w₀ w) (denv : DispatchEnv) : Entries w₀ (movedMap w₀ src dst)
      { w with daemon := (dispatch denv w.daemon (moveRequest w₀ src dst)).2 } := by
  unfold moveRequest
  by_cases hdir : isDirEntry (w₀.entry src) = true
  · have hpaths : movedPaths w₀ src = w₀.daemon.state.pathTree.subtreePaths src := if_pos hdir
    rw [if_pos hdir]
    refine ⟨hw.host, ?_, ?_⟩
    · show w.daemon.storage.objects = _
      rw [hw.daemon]
      rfl
    · show (w.daemon.state.pathTree.subtreePaths src).foldl _ w.daemon.state.fuseMap = _
      unfold movedMap
      rw [hpaths, hw.daemon]
  · obtain ⟨e, he⟩ := Option.isSome_iff_exists.mp he
    have hlook : w.daemon.state.fuseMap.lookup src = some e := by
      rw [hw.daemon]
      exact he
    have hmoved : movedMap w₀ src dst = (w.daemon.state.fuseMap.erase src).insert dst e := by
      have hpaths : movedPaths w₀ src = [src] := if_neg hdir
      unfold movedMap
      rw [hpaths, ← hw.daemon]
      show ServerState.moveEntry src dst w.daemon.state.fuseMap src = _
      unfold ServerState.moveEntry
      rw [hlook, movedPath_below List.prefix_rfl, rebase_self_left]
    rw [if_neg hdir]
    refine ⟨hw.host, ?_, ?_⟩
    · show (w.daemon.renameFile src dst).2.storage.objects = _
      unfold Server.renameFile
      rw [hlook, hw.daemon]
      rfl
    · show (w.daemon.renameFile src dst).2.state.fuseMap = _
      unfold Server.renameFile
      rw [hlook, hmoved]
      rfl

/-- The message that moves the entries. -/
theorem ensures_moveEntries (src dst : FsPath) :
    Ensures (Still w₀) (if isDirEntry (w₀.entry src) then Client.renameTree env src dst
        else Client.renameFile env src dst)
      (fun _ => Entries w₀ (movedMap w₀ src dst)) fun _ => True := by
  have hreq : ∀ w denv, Still w₀ w → (w₀.entry src).isSome = true → Entries w₀ (movedMap w₀ src dst)
      { w with daemon := (dispatch denv w.daemon (moveRequest w₀ src dst)).2 } :=
    fun w denv hw he => entries_move w₀ he hw denv
  unfold moveRequest at hreq
  by_cases hdir : isDirEntry (w₀.entry src) = true
  · rw [if_pos hdir] at hreq ⊢
    have he : (w₀.entry src).isSome = true := isOk_of_isDirEntry hdir
    apply Ensures.bind (Q := fun _ => Entries w₀ (movedMap w₀ src dst))
    · exact ensures_answered env w₀ _ fun w denv hw => hreq w denv hw he
    · exact fun response => keeps_take.weaken (fun _ h => h) (fun _ _ h => h) fun _ _ => trivial
  · rw [if_neg hdir] at hreq ⊢
    apply Ensures.bind (Q := fun response w =>
      Entries w₀ (movedMap w₀ src dst) w ∨ ∃ msg, response = .error msg)
    · apply ensures_answered
      intro w denv hw
      cases he : w₀.entry src with
      | none =>
        refine Or.inr ⟨"Source path not found", ?_⟩
        show (w.daemon.renameFile src dst).1 = _
        unfold Server.renameFile
        rw [hw.daemon, show w₀.daemon.state.fuseMap.lookup src = none from he]
      | some e => exact Or.inl (hreq w denv hw (by rw [he]; rfl))
    · intro response w hw
      rcases hw with hw | ⟨msg, rfl⟩
      · exact keeps_take.weaken (fun _ h => h) (fun _ _ h => h) (fun _ _ => trivial) w hw
      · trivial

theorem ensures_dropWhiteout (m : FuseMap) (dst : FsPath) :
    Ensures (Entries w₀ m) (ignore (Client.deleteWhiteout env dst))
      (fun _ => EntriesUpTo w₀ m dst) fun _ => True := by
  have hsame : ∀ w, Entries w₀ m w → EntriesUpTo w₀ m dst w := by
    intro w hw
    refine ⟨hw.host, hw.objects, fun p => Or.inl ?_⟩
    unfold World.entry
    rw [hw.map]
  apply Ensures.ignore
  apply Ensures.bind (Q := fun _ => EntriesUpTo w₀ m dst) _ fun _ => keeps_take
  apply ensures_sendRequest
  · exact fun w faults hw => ⟨hw.host, hw.objects, hw.map⟩
  · intro w hw
    show EntriesUpTo w₀ m dst { w with daemon := (w.daemon.deleteWhiteout dst).2 }
    unfold Server.deleteWhiteout
    rw [hw.map]
    cases he : m.lookup dst with
    | none => exact hsame w hw
    | some e =>
      by_cases ht : e.entryType = .whiteout
      · simp only [if_pos ht]
        refine ⟨hw.host, hw.objects, fun p => ?_⟩
        by_cases hp : p = dst
        · exact Or.inr ⟨hp, e, he, ht⟩
        · refine Or.inl ?_
          show (m.erase dst).lookup p = _
          rw [lookup_erase_ite, if_neg hp]
      · simp only [if_neg ht]
        exact hsame w hw
  · exact hsame

omit pol env w₀ in
theorem decideRename_fuse {mode : AccessMode} (hmode : mode ≠ .passthrough) (src dst : FsPath)
    (entry : Option FuseEntry) : decideRename ⟨mode, src, dst, entry⟩
      = if isDirEntry entry then .renameFuseTree else .renameFuseFileOrSymlink := by
  cases mode with
  | passthrough => exact absurd rfl hmode
  | fuseOnly | copyOnWrite => rfl

theorem ensures_executeRename {mode : AccessMode} (hmode : mode ≠ .passthrough)
    (src dst : FsPath) :
    Ensures (Still w₀)
      (executeRename env (decideRename ⟨mode, src, dst, w₀.entry src⟩) src dst)
      (fun _ => EntriesUpTo w₀ (movedMap w₀ src dst) dst) fun _ => True := by
  have hmove := ensures_moveEntries env w₀ src dst
  rw [decideRename_fuse hmode]
  by_cases hdir : isDirEntry (w₀.entry src) = true
  · rw [if_pos hdir] at hmove ⊢
    exact Ensures.bind hmove fun _ => ensures_dropWhiteout env w₀ _ dst
  · rw [if_neg hdir] at hmove ⊢
    exact Ensures.bind hmove fun _ => ensures_dropWhiteout env w₀ _ dst

theorem ensures_getPath_still (parent : UInt64) (name : Component) :
    Ensures (Still w₀) (getPath parent name)
      (fun path w => Still w₀ w ∧ w₀.namedPath parent name = some path) fun _ => True := by
  intro w hw
  have hnamed : w.namedPath parent name = w₀.namedPath parent name := by
    unfold World.namedPath
    rw [hw.inodes]
  rw [getPath_eq, hnamed]
  cases w₀.namedPath parent name with
  | none => trivial
  | some path => exact ⟨hw, rfl⟩

/-- **A rename** that replies OK has moved the entries. -/
theorem ensures_rename {parent newparent : UInt64} {name newname : Component} {src dst : FsPath}
    (hsrc : w₀.namedPath parent name = some src) (hdst : w₀.namedPath newparent newname = some dst)
    (hmode : pol.classify src ≠ .passthrough) :
    Ensures (Still w₀) (rename pol env parent name newparent newname)
      (fun _ => EntriesUpTo w₀ (movedMap w₀ src dst) dst) fun _ => True := by
  apply Ensures.bind (ensures_getPath_still w₀ parent name)
  intro path
  apply Ensures.of_fact
  intro hpath
  cases hsrc.symm.trans hpath
  apply Ensures.bind (ensures_getPath_still w₀ newparent newname)
  intro path
  apply Ensures.of_fact
  intro hpath
  cases hdst.symm.trans hpath
  apply Ensures.after (keeps_connectDaemon_still w₀) fun _ _ => trivial
  intro _
  apply Ensures.bind (Q := fun state w => Still w₀ w ∧
    state = ⟨pol.classify src, src, dst, w₀.entry src⟩)
  · apply Ensures.bind (ensures_getEntry_still env w₀ src)
    intro srcEntry
    apply Ensures.of_fact
    intro hentry
    apply Ensures.bind (ensures_getEntry_still env w₀ dst)
    intro dstEntry
    apply Ensures.ret
    intro w hw
    rw [hentry]
    exact ⟨hw.1, rfl⟩
  · intro state
    apply Ensures.of_fact
    intro hstate
    rw [hstate]
    exact Ensures.bind (ensures_executeRename env w₀ hmode src dst) fun _ => Ensures.ret fun _ h => h

end Run

/-! ## §2. The entries after a rename. -/

/-- The entry at `src ++ r` moves. -/
def Moved (w : World) (src r : FsPath) : Prop :=
  src ++ r ∈ movedPaths w src ∧ (w.entry (src ++ r)).isSome

instance (w : World) (src r : FsPath) : Decidable (Moved w src r) :=
  inferInstanceAs (Decidable (_ ∧ _))

section AfterRename

variable {w w' : World} {src dst : FsPath} (hgood : GoodStore w.daemon) (h : Apart src dst)
  (hrun : EntriesUpTo w (movedMap w src dst) dst w')

include hgood in
theorem movedPaths_nodup_below : (movedPaths w src).Nodup ∧ ∀ old ∈ movedPaths w src, src <+: old := by
  obtain ⟨S, hS⟩ := hgood.table
  have hsub := PathTree.enumerates_subtreePaths hS src
  unfold movedPaths
  split
  · exact ⟨hsub.1, fun old hold => ((hsub.2 old).mp hold).2⟩
  · exact ⟨List.nodup_singleton src, fun old hold => by
      rw [List.mem_singleton.mp hold]⟩

include hgood h hrun

theorem entry_source (r : FsPath) :
    w'.entry (src ++ r) = if Moved w src r then none else w.entry (src ++ r) := by
  have hlook := lookup_moves_source h (movedPaths w src) (movedPaths_nodup_below hgood).2
    (List.prefix_append src r) w.daemon.state.fuseMap
  have hentry : w'.entry (src ++ r) = (movedMap w src dst).lookup (src ++ r) := by
    rcases hrun.entry (src ++ r) with he | ⟨he, -⟩
    · exact he
    · exact absurd (he.trans (List.append_nil dst).symm) (h.ne r [])
  rw [hentry]
  apply hlook.trans
  show (if _ then none else w.entry (src ++ r)) = _
  by_cases hmem : src ++ r ∈ movedPaths w src
  · rw [if_pos hmem]
    cases he : w.entry (src ++ r) with
    | none => rw [ite_self]
    | some e => rw [if_pos ⟨hmem, by rw [he]; rfl⟩]
  · rw [if_neg hmem, if_neg fun hm => hmem hm.1]

omit h in
theorem entry_elsewhere {p : FsPath} (hs : ¬ src <+: p) (hd : ¬ dst <+: p) :
    w'.entry p = w.entry p := by
  have hlook : (movedMap w src dst).lookup p = w.entry p :=
    lookup_moves_elsewhere (movedPaths w src) (movedPaths_nodup_below hgood).2 hs hd
      w.daemon.state.fuseMap
  rcases hrun.entry p with he | ⟨he, -⟩
  · exact he.trans hlook
  · exact absurd (he ▸ List.prefix_rfl) hd

omit hrun in
theorem lookup_movedMap (r : FsPath) : (movedMap w src dst).lookup (dst ++ r)
    = if Moved w src r then w.entry (src ++ r) else w.entry (dst ++ r) :=
  lookup_moves_target h (movedPaths w src) (movedPaths_nodup_below hgood).2
    (movedPaths_nodup_below hgood).1 r w.daemon.state.fuseMap

/-- Without a whiteout at the destination, the entries there are those that have arrived and
those that nothing has replaced. -/
theorem entry_destination
    (hclear : ∀ e, (movedMap w src dst).lookup dst = some e → e.entryType ≠ .whiteout)
    (r : FsPath) :
    w'.entry (dst ++ r) = if Moved w src r then w.entry (src ++ r) else w.entry (dst ++ r) := by
  rcases hrun.entry (dst ++ r) with he | ⟨-, e, he, hwhite⟩
  · rw [he, lookup_movedMap hgood h]
  · exact absurd hwhite (hclear e he)

/-- When the source's own entry moves, no whiteout is left at the destination. -/
theorem entry_target (hroot : Moved w src []) (hvisible : cowView w src ≠ .absent) (r : FsPath) :
    w'.entry (dst ++ r) = if Moved w src r then w.entry (src ++ r) else w.entry (dst ++ r) := by
  apply entry_destination hgood h hrun
  intro e he hwhite
  have hsrc := lookup_movedMap hgood h []
  rw [if_pos hroot, List.append_nil, List.append_nil, he] at hsrc
  have habsent : cowView w src = .absent := by
    unfold cowView
    rw [← hsrc]
    exact entryView_absent.mpr hwhite
  exact hvisible habsent

end AfterRename

/-! ## §3. The view after a rename. -/

/-- What replies about `p` are made from is as before. -/
structure SameBacking (w w' : World) (p : FsPath) : Prop where
  host : w'.host = w.host
  objects : w'.objects = w.objects
  entry : w'.entry p = w.entry p

/-- The view of the subtree at `src` has moved to `dst`. -/
structure MovesView (src dst : FsPath) (w w' : World) : Prop where
  source : ∀ r, cowView w' (src ++ r) = .absent
  target : ∀ r, cowView w' (dst ++ r) = cowView w (src ++ r)
  elsewhere : ∀ p, ¬ src <+: p → ¬ dst <+: p → SameBacking w w' p

/-- Where entries leave, the host shows nothing; elsewhere in the two subtrees nothing shows. -/
structure RenameExact (src dst : FsPath) (w : World) : Prop where
  uncovered : ∀ r, Moved w src r → hostView w.host (src ++ r) = .absent
  rest : ∀ r, ¬ Moved w src r → cowView w (src ++ r) = .absent ∧ cowView w (dst ++ r) = .absent

theorem movesView_iff {w w' : World} {src dst : FsPath} (hgood : GoodStore w.daemon)
    (h : Apart src dst) (hvisible : cowView w src ≠ .absent)
    (hrun : EntriesUpTo w (movedMap w src dst) dst w') :
    MovesView src dst w w' ↔ RenameExact src dst w := by
  have hsource := entry_source hgood h hrun
  have hkept : ∀ r, ¬ Moved w src r → cowView w' (src ++ r) = cowView w (src ++ r) := by
    intro r hr
    apply cowView_congr _ hrun.objects hrun.host
    rw [hsource r, if_neg hr]
  by_cases hroot : Moved w src []
  · have htarget := entry_target hgood h hrun hroot hvisible
    have hleft : ∀ r, Moved w src r → cowView w' (src ++ r) = hostView w.host (src ++ r) := by
      intro r hr
      unfold cowView
      rw [hsource r, if_pos hr, hrun.host]
    have harrived : ∀ r, Moved w src r → cowView w' (dst ++ r) = cowView w (src ++ r) := by
      intro r hr
      obtain ⟨e, he⟩ := Option.isSome_iff_exists.mp hr.2
      apply cowView_moved (hgood.entries (src ++ r) e he) he _ hrun.objects hrun.host
      rw [htarget r, if_pos hr, he]
    have hstayed : ∀ r, ¬ Moved w src r → cowView w' (dst ++ r) = cowView w (dst ++ r) := by
      intro r hr
      apply cowView_congr _ hrun.objects hrun.host
      rw [htarget r, if_neg hr]
    constructor
    · intro hview
      refine ⟨fun r hr => ?_, fun r hr => ?_⟩
      · rw [← hleft r hr]
        exact hview.source r
      · have habsent : cowView w (src ++ r) = .absent := by
          rw [← hkept r hr]
          exact hview.source r
        refine ⟨habsent, ?_⟩
        rw [← hstayed r hr, hview.target r]
        exact habsent
    · intro hexact
      refine ⟨fun r => ?_, fun r => ?_, fun p hs hd =>
        ⟨hrun.host, hrun.objects, entry_elsewhere hgood hrun hs hd⟩⟩
      · by_cases hr : Moved w src r
        · rw [hleft r hr]
          exact hexact.uncovered r hr
        · rw [hkept r hr]
          exact (hexact.rest r hr).1
      · by_cases hr : Moved w src r
        · exact harrived r hr
        · rw [hstayed r hr, (hexact.rest r hr).1, (hexact.rest r hr).2]
  · -- the entry of the source stays, and with it what the source shows
    have hstill := hkept [] hroot
    rw [List.append_nil] at hstill
    constructor
    · intro hview
      have hgone := hview.source []
      rw [List.append_nil, hstill] at hgone
      exact absurd hgone hvisible
    · intro hexact
      have hgone := (hexact.rest [] hroot).1
      rw [List.append_nil] at hgone
      exact absurd hgone hvisible

/-- A rename of a visible CopyOnWrite path that replies OK moves the view exactly when no host
node shows where entries leave and everything visible at the two ends is an entry that moves. -/
theorem rename_moves_view_iff {pol : Policy} {w : World} (hw : Reachable pol w) (env : Env)
    {parent newparent : UInt64} {name newname : Component} {src dst : FsPath}
    (hsrc : w.namedPath parent name = some src) (hdst : w.namedPath newparent newname = some dst)
    (hmode : ∀ p, src <+: p ∨ dst <+: p → pol.classify p = .copyOnWrite)
    (hapart : Apart src dst) (hvisible : cowView w src ≠ .absent)
    (hok : (serveFuse pol env w (.rename parent name newparent newname)).1 = .ok) :
    MovesView src dst w (serveFuse pol env w (.rename parent name newparent newname)).2 ↔
      RenameExact src dst w := by
  apply movesView_iff hw.goodStore hapart hvisible
  have hstart : Still w { w with faults := env.faults } := ⟨rfl, rfl, rfl⟩
  have hfuse : pol.classify src ≠ .passthrough := by
    rw [hmode src (Or.inl List.prefix_rfl)]
    intro h
    cases h
  have key := ensures_rename pol env w hsrc hdst hfuse _ hstart
  have hrun : rename pol env parent name newparent newname { w with faults := env.faults }
      = .ok .ok _ := handle_of_serveFuse hok fun errno h => by cases h
  rw [hrun] at key
  exact key

/-! ## §4. When a rename replies OK. -/

/-- The next `n` messages of a request arrive and are answered. -/
def Delivered : Nat → List (Option RpcFault) → Prop
  | 0, _ => True
  | n + 1, faults => faults.head?.join = none ∧ Delivered n faults.tail

section Succeeds

variable (pol : Policy) (env : Env) {w w' : World}

theorem getEntry_eq_ok {p : FsPath} {e : Option FuseEntry} : Client.getEntry env p w = .ok e w' ↔
    w.faults.head?.join = none ∧ e = w.entry p ∧ w' = { w with faults := w.faults.tail } := by
  unfold Client.getEntry
  rw [call_eq_ok]
  exact and_congr_right fun _ => and_congr_left fun _ => ⟨fun h => (Option.some.inj h).symm,
    fun h => congrArg some h.symm⟩

theorem loadRenameState_eq_ok {src dst : FsPath} {state : RenameState} :
    loadRenameState pol env src dst w = .ok state w' ↔ Delivered 2 w.faults ∧
      state = ⟨pol.classify src, src, dst, w.entry src⟩ ∧
      w' = { w with faults := w.faults.tail.tail } := by
  unfold loadRenameState
  simp only [bind_eq_ok, getEntry_eq_ok]
  constructor
  · rintro ⟨e, t, ⟨hf, rfl, rfl⟩, e', t', ⟨hf', rfl, rfl⟩, h⟩
    cases h
    exact ⟨⟨hf, hf', trivial⟩, rfl, rfl⟩
  · rintro ⟨⟨hf, hf', -⟩, rfl, rfl⟩
    exact ⟨_, _, ⟨hf, rfl, rfl⟩, _, _, ⟨hf', rfl, rfl⟩, rfl⟩

/-- A message followed by an ignored one returns when the first is answered as expected. -/
theorem call_then_ignore_returns_iff {req : Request} {expected : Response} {m : FuseM Unit} :
    (∃ w', (do call env req (takeUnit expected); ignore m) w = .ok () w') ↔
      w.faults.head?.join = none ∧
        (dispatch (env.dispatchEnv w.host) w.daemon req).1 = expected := by
  have htake : takeUnit expected (dispatch (env.dispatchEnv w.host) w.daemon req).1 = some () ↔
      (dispatch (env.dispatchEnv w.host) w.daemon req).1 = expected := by
    unfold takeUnit
    split <;> simp_all
  simp only [bind_eq_ok, call_eq_ok, htake]
  constructor
  · rintro ⟨w', a, t, ⟨hf, hreply, -⟩, -⟩
    exact ⟨hf, hreply⟩
  · rintro ⟨hf, hreply⟩
    exact ⟨_, (), _, ⟨hf, hreply, rfl⟩, rfl⟩

/-- The move itself, from the decision to the reply. -/
theorem executeRename_returns_iff (src dst : FsPath) :
    (∃ w', executeRename env (decideRename ⟨pol.classify src, src, dst, w.entry src⟩) src dst w
        = .ok () w') ↔
      match pol.classify src with
      | .passthrough => (w.host.rename src dst).isOk = true
      | .fuseOnly | .copyOnWrite => w.faults.head?.join = none ∧ (w.entry src).isSome = true := by
  have hfuse : (∃ w', executeRename env (if isDirEntry (w.entry src) then .renameFuseTree
      else .renameFuseFileOrSymlink) src dst w = .ok () w') ↔
      w.faults.head?.join = none ∧ (w.entry src).isSome = true := by
    by_cases hdir : isDirEntry (w.entry src) = true
    · rw [if_pos hdir]
      refine (call_then_ignore_returns_iff env).trans (and_congr_right fun _ => ?_)
      exact iff_of_true rfl (isOk_of_isDirEntry hdir)
    · rw [if_neg hdir]
      refine (call_then_ignore_returns_iff env).trans (and_congr_right fun _ => ?_)
      show (w.daemon.renameFile src dst).1 = _ ↔ (w.daemon.state.fuseMap.lookup src).isSome = true
      unfold Server.renameFile
      cases w.daemon.state.fuseMap.lookup src <;> simp
  cases hmode : pol.classify src with
  | passthrough =>
    show (∃ w', changeHost (fun fs => fs.rename src dst) w = .ok () w') ↔ _
    cases hres : w.host.rename src dst with
    | ok host => exact iff_of_true ⟨_, changeHost_ok hres⟩ rfl
    | error errno =>
      rw [changeHost_error hres]
      exact iff_of_false nofun nofun
  | fuseOnly => exact hfuse
  | copyOnWrite => exact hfuse

end Succeeds

/-! ## §5. A directory that moves, and a file that does not leave. -/

/-- Every path is CopyOnWrite. -/
def allCopyOnWrite : Policy where
  classify _ := .copyOnWrite
  shouldLog _ := false

/-- A root directory with nothing in it. -/
def emptyRoot : FileSystem := FileSystem.ofMap (Finmap.singleton [] ⟨.dir, ⟨0o755, 0, 0⟩⟩)

/-- After `mkdir /a` over the empty root. -/
def madeA : World :=
  (serveFuse allCopyOnWrite Env.quiet (World.mount emptyRoot (Server.init "s"))
    (.mkdir 1 (.name Name.a) 0o755)).2

/-- `mkdir /a; rename(/a, /b)`: the directory has moved. -/
theorem rename_moves_view_made_dir :
    MovesView [Name.a] [Name.b] madeA (serveFuse allCopyOnWrite Env.quiet madeA
      (.rename 1 (.name Name.a) 1 (.name Name.b))).2 := by
  have hreach : Reachable allCopyOnWrite madeA := .serve (.mount emptyRoot "s") _ _
  have hpaths : movedPaths madeA [Name.a] = [[Name.a]] := by decide
  have hroot : Moved madeA [Name.a] [] := by decide
  have hmap : madeA.daemon.state.fuseMap.keys = {[Name.a]} := by decide
  have hmoved : ∀ r, Moved madeA [Name.a] r → r = [] := by
    intro r hr
    have hmem := hr.1
    rw [hpaths] at hmem
    simpa using hmem
  have hrest : ∀ n : Name, emptyRoot.kindAt [n] = none → ∀ r, n :: r ≠ [Name.a] →
      cowView madeA (n :: r) = .absent := by
    intro n hn r hne
    have hnone : madeA.entry (n :: r) = none := by
      apply Finmap.lookup_eq_none.mpr
      rw [← Finmap.mem_keys, hmap, Finset.mem_singleton]
      exact hne
    unfold cowView
    rw [hnone]
    exact hostView_missing hn r
  apply (rename_moves_view_iff hreach Env.quiet rfl rfl (fun _ _ => rfl) ⟨by decide, by decide⟩
    (by decide) (by decide)).mpr
  refine ⟨fun r hr => ?_, fun r hr => ⟨?_, ?_⟩⟩
  · rw [hmoved r hr]
    decide
  · apply hrest Name.a (by decide)
    intro he
    have hnil : r = [] := List.tail_eq_of_cons_eq he
    rw [hnil] at hr
    exact hr hroot
  · apply hrest Name.b (by decide)
    intro he
    exact absurd (List.head_eq_of_cons_eq he) (by decide)

/-- A host file that was opened for writing has an entry; when the entry moves, the host file
shows where it was. -/
theorem not_rename_moves_view :
    ¬ ∀ (pol : Policy) (w : World), Reachable pol w → ∀ (env : Env) (parent newparent : UInt64)
      (name newname : Component) (src dst : FsPath),
      w.namedPath parent name = some src → w.namedPath newparent newname = some dst →
      (∀ p, src <+: p ∨ dst <+: p → pol.classify p = .copyOnWrite) → Apart src dst →
      cowView w src ≠ .absent →
      (serveFuse pol env w (.rename parent name newparent newname)).1 = .ok →
      MovesView src dst w (serveFuse pol env w (.rename parent name newparent newname)).2 := by
  intro h
  have hreach : Reachable allCopyOnWrite (serveFuse allCopyOnWrite Env.quiet
      (serveFuse allCopyOnWrite Env.quiet (World.mount twoFiles (Server.init "s"))
        (.lookup 1 (.name Name.a))).2 (.open 2 ⟨.rdwr, false, false⟩)).2 :=
    .serve (.serve (.mount twoFiles "s") _ _) _ _
  have key := h allCopyOnWrite _ hreach Env.quiet 1 1 (.name Name.a) (.name Name.c) [Name.a]
    [Name.c] rfl rfl (fun _ _ => rfl) ⟨by decide, by decide⟩ (by decide) (by decide)
  have hsource := key.source []
  revert hsource
  decide

end Cas.Fuse
