/-
  Cas.Fuse.Rmdir — what is left below a removed directory.

  `execute_rmdir` deletes one entry and writes whiteouts: one for the
  directory, whose failure it reports, and one for each node that the
  host has below it, whose failure it ignores.  Nothing is done about an
  entry that the daemon alone has below the directory, nor about a host
  node behind a link.

  Main result: `rmdir_empties_iff` — below the directory nothing is left
  exactly when everything visible there gets a whiteout; and what is
  hidden stays hidden until a request makes it.
-/
import Cas.Fuse.Descendants
import Cas.Fuse.Hidden
import Cas.Fuse.Scan

namespace Cas.Fuse

open Cas.Lib Cas.Host Cas.Syncing Descriptive

/-! ## §1. Messages that reach the daemon. -/

/-- The paths, one message each, whose messages reach the daemon. -/
def reaching : List (Option RpcFault) → List FsPath → List FsPath
  | _, [] => []
  | faults, p :: ps =>
    if reaches faults.head?.join then p :: reaching faults.tail ps else reaching faults.tail ps

theorem reaching_quiet (ps : List FsPath) : reaching [] ps = ps := by
  induction ps with
  | nil => rfl
  | cons p ps ih =>
    show p :: reaching [] ps = p :: ps
    rw [ih]

/-! ## §2. Whiteouts. -/

/-- Put whiteouts, one after another. -/
def putWhiteouts (ps : List FsPath) (s : Server) : Server :=
  ps.foldl (fun s p => (s.putEntry .putWhiteout p .whiteout).2) s

theorem lookup_putWhiteouts (ps : List FsPath) (p : FsPath) : ∀ s : Server,
    (putWhiteouts ps s).state.fuseMap.lookup p
      = if p ∈ ps then some .whiteout else s.state.fuseMap.lookup p := by
  induction ps with
  | nil => intro s; simp [putWhiteouts]
  | cons q ps ih =>
    intro s
    show (putWhiteouts ps (s.putEntry .putWhiteout q .whiteout).2).state.fuseMap.lookup p = _
    rw [ih]
    show (if p ∈ ps then some FuseEntry.whiteout
      else (s.state.fuseMap.insert q FuseEntry.whiteout).lookup p) = _
    rw [lookup_insert_ite]
    by_cases hq : p = q
    · simp [hq]
    · simp [hq]

theorem treeRep_putWhiteouts (ps : List FsPath) : ∀ {s : Server} {S : tree Name},
    s.state.TreeRep S → (putWhiteouts ps s).state.TreeRep (ps.foldl PrefixTree.insert S) := by
  induction ps with
  | nil => intro s S h; exact h
  | cons p ps ih => intro s S h; exact ih (treeRep_publish h p .whiteout)

theorem forEach_putWhiteout (env : Env) (ps : List FsPath) : ∀ w : World,
    forEach ps (fun p => ignore (Client.putWhiteout env p)) w = .ok () { w with
      faults := w.faults.drop ps.length
      daemon := putWhiteouts (reaching w.faults ps) w.daemon } := by
  induction ps with
  | nil => exact fun w => rfl
  | cons p ps ih =>
    intro w
    have hput : ignore (Client.putWhiteout env p) w = .ok () { w with
        faults := w.faults.tail
        daemon := if reaches w.faults.head?.join
          then (dispatch (env.dispatchEnv w.host) w.daemon (.putWhiteout p)).2
          else w.daemon } := by
      rw [run_ignore]
      unfold Client.putWhiteout
      rw [endState_faulty]
    show (ignore (Client.putWhiteout env p) >>= fun _ =>
      forEach ps (fun p => ignore (Client.putWhiteout env p)) : FuseM Unit) w = _
    rw [run_bind_ok hput, ih]
    have hdrop : w.faults.tail.drop ps.length = w.faults.drop (p :: ps).length := by
      rw [List.drop_tail, List.length_cons]
    rw [reaching]
    cases reaches w.faults.head?.join with
    | true =>
      simp only [hdrop, if_true]
      rfl
    | false =>
      simp only [hdrop]
      rfl

/-! ## §3. rmdir. -/

/-- The paths below `d` at which an rmdir of `d` puts whiteouts. -/
def rmdirWhiteouts (env : Env) (w : World) (d : FsPath) : List FsPath :=
  reaching (env.faults.drop 3) (recursiveRealDescendants w.host d)

/-- The daemon sees the `DeleteFile` of an rmdir. -/
def rmdirDeletes (env : Env) : Bool := reaches env.faults.tail.head?.join

section Rmdir

variable {pol : Policy} {env : Env} {w : World} {parent : UInt64} {name : Component} {d : FsPath}
  (hd : w.namedPath parent name = some d) (hmode : pol.classify d ≠ .passthrough)

include hd hmode

/-- **rmdir** that replies OK. -/
theorem serveFuse_rmdir_ok (hok : (serveFuse pol env w (.rmdir parent name)).1 = .ok) :
    (serveFuse pol env w (.rmdir parent name)).2 = { w with
      faults := (env.faults.drop 3).drop (recursiveRealDescendants w.host d).length
      daemon := putWhiteouts (d :: rmdirWhiteouts env w d)
        (if rmdirDeletes env then (w.daemon.deleteFile d).2 else w.daemon) } := by
  have hdecide : decideRmdir (loadRmdirState pol d) = .whiteoutRecursive := by
    unfold decideRmdir loadRmdirState
    cases hc : pol.classify d with
    | passthrough => exact absurd hc hmode
    | fuseOnly | copyOnWrite => rfl
  have hpath : getPath parent name { w with faults := env.faults }
      = .ok d { w with faults := env.faults } := getPath_ok hd
  have hrmdir : rmdir pol env parent name { w with faults := env.faults } = .ok .ok _ :=
    handle_of_serveFuse hok fun errno h => by cases h
  generalize (serveFuse pol env w (.rmdir parent name)).2 = w' at hrmdir ⊢
  unfold rmdir at hrmdir
  rw [run_bind_ok hpath] at hrmdir
  obtain ⟨_, w₁, hconnect, hrmdir⟩ := bind_eq_ok.mp hrmdir
  obtain ⟨-, rfl⟩ := connectDaemon_eq_ok.mp hconnect
  rw [run_bind_ok (peekHost_eq _ _), hdecide] at hrmdir
  obtain ⟨_, w₂, hexec, hpure⟩ := bind_eq_ok.mp hrmdir
  cases hpure
  -- the two messages about the directory
  have hdelete : ignore (Client.deleteFile env d) { w with faults := env.faults.tail }
      = .ok () { w with
        faults := env.faults.tail.tail
        daemon := if rmdirDeletes env then (w.daemon.deleteFile d).2 else w.daemon } := by
    rw [run_ignore]
    unfold Client.deleteFile
    rw [endState_faulty]
    rfl
  unfold executeRmdir at hexec
  simp only at hexec
  rw [run_bind_ok hdelete] at hexec
  obtain ⟨_, w₃, hput, heach⟩ := bind_eq_ok.mp hexec
  have hquiet := (call_eq_ok.mp hput).1
  have hend := congrArg endState hput
  unfold Client.putWhiteout at hend
  rw [endState_faulty, hquiet] at hend
  obtain rfl : _ = w₃ := hend
  rw [forEach_putWhiteout] at heach
  cases heach
  have hdrop : env.faults.tail.tail.tail = env.faults.drop 3 := by
    show env.faults.tail.tail.tail.drop 0 = _
    rw [List.drop_tail, List.drop_tail, List.drop_tail]
  simp only [hdrop]
  rfl

variable (hok : (serveFuse pol env w (.rmdir parent name)).1 = .ok)

include hok

theorem entry_rmdir (p : FsPath) : (serveFuse pol env w (.rmdir parent name)).2.entry p
    = if p ∈ d :: rmdirWhiteouts env w d then some .whiteout else w.entry p := by
  rw [serveFuse_rmdir_ok hd hmode hok]
  unfold World.entry
  rw [lookup_putWhiteouts]
  by_cases hp : p ∈ d :: rmdirWhiteouts env w d
  · rw [if_pos hp, if_pos hp]
  · rw [if_neg hp, if_neg hp]
    have hne : p ≠ d := fun e => hp (e ▸ List.mem_cons_self)
    cases rmdirDeletes env with
    | true => exact Finmap.lookup_erase_ne hne
    | false => rfl

/-- What the table has below the directory afterwards. -/
theorem table_rmdir {S : tree Name} (hS : w.daemon.state.TreeRep S) :
    ∃ S', (serveFuse pol env w (.rmdir parent name)).2.daemon.state.TreeRep S' ∧
      ∀ p, Below d p → (p ∈ S' ↔ (rmdirDeletes env = false ∧ p ∈ S) ∨
        ∃ q ∈ rmdirWhiteouts env w d, p <+: q) := by
  rw [serveFuse_rmdir_ok hd hmode hok]
  have hbase : ∃ S₀, (if rmdirDeletes env then (w.daemon.deleteFile d).2
        else w.daemon).state.TreeRep S₀ ∧
      ∀ p, d <+: p → (p ∈ S₀ ↔ rmdirDeletes env = false ∧ p ∈ S) := by
    cases rmdirDeletes env with
    | true =>
      refine ⟨PrefixTree.remove S d, (PathTree.rep_remove hS d).1, fun p hp => ?_⟩
      rw [PrefixTree.mem_remove]
      exact iff_of_false (fun h => h.2 hp) (fun h => by cases h.1)
    | false => exact ⟨S, hS, fun p _ => ⟨fun h => ⟨rfl, h⟩, fun h => h.2⟩⟩
  obtain ⟨S₀, hS₀, hmem⟩ := hbase
  refine ⟨_, treeRep_putWhiteouts _ hS₀, fun p hp => ?_⟩
  rw [show p ∈ List.foldl PrefixTree.insert S₀ _ ↔ _ from PrefixTree.mem_foldl_insert id _ p S₀,
    hmem p hp.1, List.exists_mem_cons_iff]
  have hnot : ¬ p <+: d := by
    intro h
    have hlt := (below_iff_length.mp hp).2
    have hle := h.length_le
    omega
  simp [hnot]

end Rmdir

/-! ## §4. mkdir afterwards. -/

section Mkdir

variable {pol : Policy} {env : Env} {w : World} {parent : UInt64} {name : Component} {d : FsPath}
  {mode : UInt32} (hd : w.namedPath parent name = some d) (hmode : pol.classify d ≠ .passthrough)

theorem decideMkdir_daemon (hmode : pol.classify d ≠ .passthrough) :
    decideMkdir (loadMkdirState pol d) = .createDaemon := by
  unfold decideMkdir loadMkdirState
  cases hc : pol.classify d with
  | passthrough => exact absurd hc hmode
  | fuseOnly | copyOnWrite => rfl

include hd hmode

/-- **mkdir** that replies with the directory has put its entry, and nothing else. -/
theorem serveFuse_mkdir_entry {attr : FileAttr}
    (hok : (serveFuse pol env w (.mkdir parent name mode)).1 = .entry attr) :
    ∃ md, (serveFuse pol env w (.mkdir parent name mode)).2.daemon
        = (w.daemon.putEntry .putDir d (.ofDir md)).2 ∧
      (serveFuse pol env w (.mkdir parent name mode)).2.host = w.host := by
  have hpath : getPath parent name { w with faults := env.faults }
      = .ok d { w with faults := env.faults } := getPath_ok hd
  have hmkdir : mkdir pol env parent name mode { w with faults := env.faults } = .ok (.entry attr) _ :=
    handle_of_serveFuse hok nofun
  generalize (serveFuse pol env w (.mkdir parent name mode)).2 = w' at hmkdir ⊢
  unfold mkdir at hmkdir
  rw [run_bind_ok hpath, decideMkdir_daemon hmode] at hmkdir
  obtain ⟨_, w₁, hconnect, hmkdir⟩ := bind_eq_ok.mp hmkdir
  obtain ⟨-, rfl⟩ := connectDaemon_eq_ok.mp hconnect
  obtain ⟨_, w₂, hexec, hafter⟩ := bind_eq_ok.mp hmkdir
  obtain ⟨_, w₃, hput, hclear⟩ := bind_eq_ok.mp hexec
  have hquiet := (call_eq_ok.mp hput).1
  have hend := congrArg endState hput
  unfold Client.putDir at hend
  rw [endState_faulty, hquiet] at hend
  obtain rfl : _ = w₃ := hend
  -- clearing the whiteout finds a directory
  have hdir : ∀ md, ((w.daemon.putEntry .putDir d (.ofDir md)).2.deleteWhiteout d).2
      = (w.daemon.putEntry .putDir d (.ofDir md)).2 := by
    intro md
    have hlook : (w.daemon.putEntry .putDir d (.ofDir md)).2.state.fuseMap.lookup d
        = some (.ofDir md) := Finmap.lookup_insert _
    unfold Server.deleteWhiteout
    rw [hlook]
    rfl
  rw [run_ignore] at hclear
  unfold Client.deleteWhiteout at hclear
  rw [endState_faulty] at hclear
  refine ⟨fileMetaNow env 0 (S_IFDIR ||| (mode &&& 0o7777)) env.uid env.gid, ?_⟩
  have hcleared : w₂.daemon = (w.daemon.putEntry .putDir d (.ofDir (fileMetaNow env 0
      (S_IFDIR ||| (mode &&& 0o7777)) env.uid env.gid))).2 ∧ w₂.host = w.host := by
    cases hclear
    constructor
    · simp only
      split
      · exact hdir _
      · rfl
    · rfl
  -- the rest only reads
  let P : World → Prop := fun v => v.daemon = w₂.daemon ∧ v.host = w₂.host
  have hrest : Keeps P _ := keeps_afterMkdir (P := P) pol env (fun _ _ h => h)
    ⟨fun _ _ h => h, fun _ _ _ h => h⟩ d mode
  have hlast : P w' :=
    (congrArg (fun r => P (endState r)) hafter).mp (hrest.endState (s := w₂) ⟨rfl, rfl⟩)
  exact ⟨hlast.1.trans hcleared.1, hlast.2.trans hcleared.2⟩

/-- With no message failing mkdir replies with the directory. -/
theorem mkdir_replies (mode : UInt32) (hq : env.faults = []) :
    ∃ attr, (serveFuse pol env w (.mkdir parent name mode)).1 = .entry attr := by
  have hpath : getPath parent name { w with faults := env.faults }
      = .ok d { w with faults := env.faults } := getPath_ok hd
  obtain ⟨v, hput⟩ : ∃ v, Client.putDir env d
      (fileMetaNow env 0 (S_IFDIR ||| (mode &&& 0o7777)) env.uid env.gid)
      { w with faults := env.faults } = .ok () v := by
    unfold Client.putDir call
    rw [run_bind_ok (sendRequest_quiet (w := { w with faults := env.faults }) hq _)]
    exact ⟨_, rfl⟩
  obtain ⟨v', hexec⟩ : ∃ v', executeMkdir env .createDaemon d mode { w with faults := env.faults }
      = .ok () v' := ⟨_, (run_bind_ok hput).trans (run_ignore _ _)⟩
  have hrun : ∃ attr, outcome (mkdir pol env parent name mode { w with faults := env.faults })
      = .ok (.entry attr) := by
    unfold mkdir
    rw [run_bind_ok hpath, run_bind_ok (connectDaemon_quiet hq), decideMkdir_daemon hmode,
      run_bind_ok hexec, run_bind_ok (show getOrInsert d _ = .ok _ _ from rfl),
      run_bind_ok (run_attempt _ _)]
    generalize outcome (statPath pol env d _) = result
    cases result with
    | ok r => exact ⟨r.2, rfl⟩
    | error err => exact ⟨_, rfl⟩
  obtain ⟨attr, hrun⟩ := hrun
  refine ⟨attr, ?_⟩
  rw [serveFuse_reply]
  show replyOf (outcome (mkdir pol env parent name mode { w with faults := env.faults })) = _
  rw [hrun]
  rfl

end Mkdir

/-! ## §5. What is left. -/

/-- Below `d` nothing is found, also after a following mkdir of `d`, and then `d` lists nothing. -/
structure StaysEmpty (pol : Policy) (d : FsPath) (w : World) : Prop where
  hidden : ∀ p, Below d p → StatMisses pol w p
  remade : ∀ env parent name mode attr, w.namedPath parent name = some d →
    (serveFuse pol env w (.mkdir parent name mode)).1 = .entry attr →
    (∀ p, Below d p → StatMisses pol (serveFuse pol env w (.mkdir parent name mode)).2 p) ∧
      visibleNames pol (serveFuse pol env w (.mkdir parent name mode)).2 d = []

/-- Everything visible below `d` gets a whiteout, and the table keeps what hides the children that
the host lists. -/
structure RmdirCovers (pol : Policy) (env : Env) (w : World) (d : FsPath) : Prop where
  visible : ∀ p, Below d p → ¬ StatMisses pol w p → p ∈ rmdirWhiteouts env w d
  children : pol.classify d = .copyOnWrite → ∀ n, hostListed w.host d n ≠ none →
    (∃ q ∈ rmdirWhiteouts env w d, d ++ [n] <+: q) ∨
      rmdirDeletes env = false ∧ w.daemon.state.pathTree.contains (d ++ [n]) = true

theorem below_snoc (d : FsPath) (n : Name) : Below d (d ++ [n]) :=
  ⟨List.prefix_append d [n], by simp⟩

/-- With no message failing: everything visible is a node of the host that the walk reaches. -/
theorem rmdirCovers_quiet {pol : Policy} {env : Env} (hq : env.faults = []) {w : World}
    (d : FsPath) : RmdirCovers pol env w d ↔
      ∀ p, Below d p → ¬ StatMisses pol w p → HostBelow w.host d p := by
  have hmem : ∀ p, p ∈ rmdirWhiteouts env w d ↔ HostBelow w.host d p := by
    intro p
    unfold rmdirWhiteouts
    rw [hq, List.drop_nil, reaching_quiet]
    exact mem_recursiveRealDescendants w.host d p
  constructor
  · exact fun h p hp hvisible => (hmem p).mp (h.visible p hp hvisible)
  · intro h
    refine ⟨fun p hp hvisible => (hmem p).mpr (h p hp hvisible), fun _ n hn => Or.inl ?_⟩
    obtain ⟨kind, hkind⟩ := Option.ne_none_iff_exists'.mp hn
    exact ⟨_, (hmem _).mpr (HostBelow.child hkind), List.prefix_rfl⟩

theorem visibleNames_eq_nil_iff {pol : Policy} {w : World} (hgood : GoodStore w.daemon)
    {d : FsPath} : visibleNames pol w d = [] ↔ ∀ n, listKind pol w d n = none := by
  unfold visibleNames
  rw [List.map_eq_nil_iff, List.eq_nil_iff_forall_not_mem]
  constructor
  · intro h n
    by_contra hne
    obtain ⟨kind, hkind⟩ := Option.ne_none_iff_exists'.mp hne
    obtain ⟨full, hfull⟩ := (exists_visible_iff pol n hgood kind).mpr hkind
    exact h _ hfull
  · intro h child hchild
    obtain ⟨n, kind, full⟩ := child
    have hkind := (exists_visible_iff pol n hgood kind).mp ⟨full, hchild⟩
    rw [h n] at hkind
    cases hkind

/-- A stat depends on the entry and on the host. -/
theorem statMisses_congr {pol : Policy} {w w' : World} {p : FsPath} (hentry : w'.entry p = w.entry p)
    (hhost : w'.host = w.host) : StatMisses pol w' p ↔ StatMisses pol w p := by
  rw [statMisses_iff, statMisses_iff]
  unfold statKind
  rw [hentry, hhost]

section Empty

variable {pol : Policy} {env : Env} {w : World} {parent : UInt64} {name : Component} {d : FsPath}
  {mode : AccessMode} (hd : w.namedPath parent name = some d) (hmode : mode ≠ .passthrough)
  (hall : ∀ p, d <+: p → pol.classify p = mode)
  (hok : (serveFuse pol env w (.rmdir parent name)).1 = .ok)

include hd hmode hall hok

/-- After the rmdir a path is hidden that got a whiteout or was hidden before. -/
theorem statMisses_rmdir {p : FsPath} (hp : Below d p) :
    StatMisses pol (serveFuse pol env w (.rmdir parent name)).2 p ↔
      p ∈ rmdirWhiteouts env w d ∨ StatMisses pol w p := by
  have hpd : pol.classify d ≠ .passthrough := (hall d List.prefix_rfl).trans_ne hmode
  have hentry := entry_rmdir hd hpd hok p
  have hhost : (serveFuse pol env w (.rmdir parent name)).2.host = w.host := by
    rw [serveFuse_rmdir_ok hd hpd hok]
  by_cases hw : p ∈ rmdirWhiteouts env w d
  · rw [if_pos (List.mem_cons_of_mem _ hw)] at hentry
    apply iff_of_true _ (Or.inl hw)
    rw [statMisses_iff]
    unfold statKind
    rw [hall p hp.1, hentry]
    cases mode with
    | passthrough => exact absurd rfl hmode
    | fuseOnly | copyOnWrite => rfl
  · rw [if_neg (fun h => hw ((List.mem_cons.mp h).resolve_left hp.2))] at hentry
    rw [statMisses_congr hentry hhost]
    exact ⟨Or.inr, fun h => h.resolve_left hw⟩

/-- What the mkdir leaves: the paths below the directory as they were, the table with the
directory. -/
theorem remade_rmdir {env' : Env} {parent' : UInt64} {name' : Component} {perm : UInt32}
    {attr : FileAttr}
    (hd' : (serveFuse pol env w (.rmdir parent name)).2.namedPath parent' name' = some d)
    (hok' : (serveFuse pol env' (serveFuse pol env w (.rmdir parent name)).2
      (.mkdir parent' name' perm)).1 = .entry attr)
    {S : tree Name} (hS : w.daemon.state.TreeRep S) :
    let w₂ := (serveFuse pol env' (serveFuse pol env w (.rmdir parent name)).2
      (.mkdir parent' name' perm)).2
    w₂.host = w.host ∧ (∀ p, Below d p →
      (w₂.entry p = (serveFuse pol env w (.rmdir parent name)).2.entry p) ∧
      (w₂.daemon.state.pathTree.contains p = true ↔ (rmdirDeletes env = false ∧ p ∈ S) ∨
        ∃ q ∈ rmdirWhiteouts env w d, p <+: q)) := by
  have hpd : pol.classify d ≠ .passthrough := (hall d List.prefix_rfl).trans_ne hmode
  have hhost : (serveFuse pol env w (.rmdir parent name)).2.host = w.host := by
    rw [serveFuse_rmdir_ok hd hpd hok]
  obtain ⟨md, hdaemon, hhost'⟩ := serveFuse_mkdir_entry hd' hpd hok'
  obtain ⟨S', hS', hmem⟩ := table_rmdir hd hpd hok hS
  refine ⟨hhost'.trans hhost, fun p hp => ⟨?_, ?_⟩⟩
  · unfold World.entry
    rw [hdaemon]
    exact Finmap.lookup_insert_of_ne _ hp.2
  · rw [hdaemon]
    have hS₂ : ((serveFuse pol env w (.rmdir parent name)).2.daemon.putEntry .putDir d
        (.ofDir md)).2.state.TreeRep (PrefixTree.insert S' d) := treeRep_publish hS' d _
    rw [PathTree.contains_iff hS₂, PrefixTree.mem_insert, hmem p hp]
    apply or_iff_left
    intro hpre
    have hlt := (below_iff_length.mp hp).2
    have hle := hpre.length_le
    omega

variable (hw : Reachable pol w) (hroot : w.host.kindAt [] = some .dir)

include hw hroot

omit hroot in
theorem rmdirCovers_of_staysEmpty
    (h : StaysEmpty pol d (serveFuse pol env w (.rmdir parent name)).2) :
    RmdirCovers pol env w d := by
  have hpd : pol.classify d ≠ .passthrough := (hall d List.prefix_rfl).trans_ne hmode
  refine ⟨fun p hp hvisible => ?_, fun hcow n hn => ?_⟩
  · exact ((statMisses_rmdir hd hmode hall hok hp).mp (h.hidden p hp)).resolve_right hvisible
  · -- a quiet mkdir has something to list
    obtain ⟨S, hS⟩ := hw.goodStore.table
    have hd' : (serveFuse pol env w (.rmdir parent name)).2.namedPath parent name = some d := by
      rw [serveFuse_rmdir_ok hd hpd hok]
      exact hd
    obtain ⟨attr, hok'⟩ := mkdir_replies hd' hpd 0 (show Env.quiet.faults = [] from rfl)
    have hnames := (h.remade _ _ _ _ _ hd' hok').2
    obtain ⟨hhost, hbelow⟩ := remade_rmdir hd hmode hall hok hd' hok' hS
    have hreach := (hw.serve env (.rmdir parent name)).serve Env.quiet (.mkdir parent name 0)
    have hkind := (visibleNames_eq_nil_iff hreach.goodStore).mp hnames n
    rw [listKind_eq hreach.goodStore, hcow, hhost] at hkind
    have htable := (hbelow _ (below_snoc d n)).2
    by_cases hcontains : (serveFuse pol Env.quiet (serveFuse pol env w (.rmdir parent name)).2
        (.mkdir parent name 0)).2.daemon.state.pathTree.contains (d ++ [n]) = true
    · rcases htable.mp hcontains with ⟨hlost, hmem⟩ | hq
      · exact Or.inr ⟨hlost, (PathTree.contains_iff hS _).mpr hmem⟩
      · exact Or.inl hq
    · unfold daemonListed at hkind
      rw [if_neg hcontains] at hkind
      exact absurd (Option.map_eq_none_iff.mp hkind) hn

theorem staysEmpty_of_rmdirCovers (h : RmdirCovers pol env w d) :
    StaysEmpty pol d (serveFuse pol env w (.rmdir parent name)).2 := by
  have hhidden : ∀ p, Below d p → StatMisses pol (serveFuse pol env w (.rmdir parent name)).2 p := by
    intro p hp
    rw [statMisses_rmdir hd hmode hall hok hp]
    by_cases hmiss : StatMisses pol w p
    · exact Or.inr hmiss
    · exact Or.inl (h.visible p hp hmiss)
  refine ⟨hhidden, fun env' parent' name' perm attr hd' hok' => ?_⟩
  obtain ⟨S, hS⟩ := hw.goodStore.table
  have hhost₁ : (serveFuse pol env w (.rmdir parent name)).2.host = w.host := by
    rw [serveFuse_rmdir_ok hd ((hall d List.prefix_rfl).trans_ne hmode) hok]
  obtain ⟨hhost, hbelow⟩ := remade_rmdir hd hmode hall hok hd' hok' hS
  have hreach := (hw.serve env (.rmdir parent name)).serve env' (.mkdir parent' name' perm)
  have hhidden' : ∀ p, Below d p → StatMisses pol (serveFuse pol env'
      (serveFuse pol env w (.rmdir parent name)).2 (.mkdir parent' name' perm)).2 p := by
    intro p hp
    rw [statMisses_congr (hbelow p hp).1 (hhost.trans hhost₁.symm)]
    exact hhidden p hp
  refine ⟨hhidden', (visibleNames_eq_nil_iff hreach.goodStore).mpr fun n => ?_⟩
  have hmiss := statMisses_iff.mp (hhidden' _ (below_snoc d n))
  have hchild : pol.classify (d ++ [n]) = pol.classify d :=
    (hall _ (List.prefix_append d [n])).trans (hall d List.prefix_rfl).symm
  rw [listKind_eq hreach.goodStore]
  cases hc : pol.classify d with
  | passthrough => exact absurd hc ((hall d List.prefix_rfl).trans_ne hmode)
  | fuseOnly =>
    have hno := (statKind_fuseOnly (hchild.trans hc)).mp hmiss
    cases hlisted : daemonListed _ (d ++ [n]) with
    | none => rfl
    | some e => exact kindFromEntry_whiteout.mpr (hno e (daemonListed_entry hlisted))
  | copyOnWrite =>
    obtain ⟨hno, hreal⟩ := (statKind_copyOnWrite (hchild.trans hc)).mp hmiss
    cases hlisted : daemonListed _ (d ++ [n]) with
    | some e => exact kindFromEntry_whiteout.mpr (hno e (daemonListed_entry hlisted))
    | none =>
      show (hostListed _ d n).map FileType.ofKind = none
      rw [Option.map_eq_none_iff]
      by_contra hkind
      rw [hhost] at hkind
      -- the table has the child, so what is missing is the entry
      have hcontains := (hbelow _ (below_snoc d n)).2.mpr <| (h.children hc n hkind).symm.imp_left
        fun hlost => ⟨hlost.1, (PathTree.contains_iff hS _).mp hlost.2⟩
      unfold daemonListed at hlisted
      rw [if_pos hcontains] at hlisted
      have hnone := hreal hlisted
      rw [hhost] at hnone
      exact hkind (hostListed_none hroot hnone)

end Empty

/-- **rmdir** leaves an empty directory exactly when everything visible below it gets a whiteout;
without message failures these are the nodes that the host lists below it.  What is hidden below
it stays hidden until a request makes it. -/
theorem rmdir_empties_iff {pol : Policy} {w : World} (hw : Reachable pol w)
    (hroot : w.host.kindAt [] = some .dir) {parent : UInt64} {name : Component} {d : FsPath}
    (hd : w.namedPath parent name = some d) {mode : AccessMode} (hmode : mode ≠ .passthrough)
    (hall : ∀ p, d <+: p → pol.classify p = mode) {env : Env}
    (hok : (serveFuse pol env w (.rmdir parent name)).1 = .ok) :
    (StaysEmpty pol d (serveFuse pol env w (.rmdir parent name)).2 ↔ RmdirCovers pol env w d) ∧
    (env.faults = [] → (RmdirCovers pol env w d ↔
      ∀ p, Below d p → ¬ StatMisses pol w p → HostBelow w.host d p)) ∧
    ∀ p, Below d p → StatMisses pol (serveFuse pol env w (.rmdir parent name)).2 p →
      ∀ xs, StepsMeet (serveStep pol) (SparesPath pol p)
          (serveFuse pol env w (.rmdir parent name)).2 xs →
        AlwaysOn (serveStep pol) (fun v => StatMisses pol v p)
          (serveFuse pol env w (.rmdir parent name)).2 xs := by
  refine ⟨⟨rmdirCovers_of_staysEmpty hd hmode hall hok hw,
    staysEmpty_of_rmdirCovers hd hmode hall hok hw hroot⟩, fun hq => ?_, fun p hp hmiss xs hxs => ?_⟩
  · exact rmdirCovers_quiet hq d
  · exact hidden_run (hw.serve env _) ((hall p hp.1).trans_ne hmode) hmiss hxs

/-- After `mkdir /a` over the empty root. -/
def oneDir : World :=
  (serveFuse allFuseOnly Env.quiet (World.mount emptyRoot (Server.init "s"))
    (.mkdir 1 (.name Name.a) 0o755)).2

theorem rmdir_empties_iff_oneDir :
    StaysEmpty allFuseOnly [Name.a]
      (serveFuse allFuseOnly Env.quiet oneDir (.rmdir 1 (.name Name.a))).2 := by
  have hreach : Reachable allFuseOnly oneDir := .serve (.mount emptyRoot "s") _ _
  have hd : oneDir.namedPath 1 (.name Name.a) = some [Name.a] := by decide
  have hmode : AccessMode.fuseOnly ≠ .passthrough := nofun
  have hok : (serveFuse allFuseOnly Env.quiet oneDir (.rmdir 1 (.name Name.a))).1 = .ok := by decide
  obtain ⟨hiff, hquiet, -⟩ :=
    rmdir_empties_iff hreach (by decide) hd hmode (fun _ _ => rfl) hok
  refine hiff.mpr ((hquiet rfl).mpr fun p hp hvisible => absurd ?_ hvisible)
  rw [statMisses_iff, statKind_fuseOnly rfl]
  intro e he
  -- the only entry is that of the directory
  have hmap : oneDir.daemon.state.fuseMap
      = (∅ : FuseMap).insert [Name.a] (.ofDir (fileMetaNow Env.quiet 0 0o040755 0 0)) := by decide
  unfold World.entry at he
  rw [hmap, Finmap.lookup_insert_of_ne _ hp.2] at he
  cases he

/-- After `mkdir /a` and `mkdir /a/b` over the empty root. -/
def nestedDirs : World :=
  (serveFuse allCopyOnWrite Env.quiet (serveFuse allCopyOnWrite Env.quiet
    (World.mount emptyRoot (Server.init "s")) (.mkdir 1 (.name Name.a) 0o755)).2
      (.mkdir 2 (.name Name.b) 0o755)).2

/-- The removed directory had one that only the daemon has: it is still there. -/
theorem not_rmdir_empties :
    ¬ ∀ (pol : Policy) (w : World), Reachable pol w → w.host.kindAt [] = some .dir →
      ∀ (parent : UInt64) (name : Component) (d : FsPath), w.namedPath parent name = some d →
      ∀ mode : AccessMode, mode ≠ .passthrough → (∀ p, d <+: p → pol.classify p = mode) →
      ∀ env : Env, env.faults = [] → (serveFuse pol env w (.rmdir parent name)).1 = .ok →
        StaysEmpty pol d (serveFuse pol env w (.rmdir parent name)).2 := by
  intro h
  have hreach : Reachable allCopyOnWrite nestedDirs := .serve (.serve (.mount emptyRoot "s") _ _) _ _
  have hempty := h allCopyOnWrite nestedDirs hreach (by decide) 1 (.name Name.a) [Name.a]
    (by decide) .copyOnWrite nofun (fun _ _ => rfl) Env.quiet rfl (by decide)
  have hkind : statKind allCopyOnWrite (serveFuse allCopyOnWrite Env.quiet nestedDirs
      (.rmdir 1 (.name Name.a))).2 [Name.a, Name.b] = some .directory := by decide
  have hmiss := statMisses_iff.mp (hempty.hidden [Name.a, Name.b] (below_snoc [Name.a] Name.b))
  rw [hkind] at hmiss
  cases hmiss

end Cas.Fuse
