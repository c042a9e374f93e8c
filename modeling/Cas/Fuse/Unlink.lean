/-
  Cas.Fuse.Unlink — unlink between its two requests, and when one of them
  fails (`execute_unlink`).

  `DeleteFile` drops the entry, and how it went is ignored; `PutWhiteout`
  masks the host's node.  Between the two, and for good when the second
  does not arrive, the path shows what the host has there
  (`unlink_atomic_iff`).
-/
import Cas.Fuse.FreshRead

namespace Cas.Fuse

open Cas.Lib Cas.Host Cas.Syncing

/-! ## §1. What observers see. -/

/-- Stat, a fresh open and a listing show of `name` in `dir` what they showed in `w`; `ino` is the
inode number of the child. -/
structure SameToObservers (pol : Policy) (w w' : World) (d : FsPath) (dir ino : UInt64)
    (name : Name) : Prop where
  stat : ∀ s, StatReports pol w' (d ++ [name]) s ↔ StatReports pol w (d ++ [name]) s
  «open» : ∀ env : Env, env.faults = [] →
    (serveFuse pol env w' (.open ino rdonly)).1 = (serveFuse pol env w (.open ino rdonly)).1
  read : ∀ env : Env, env.faults = [] → ∀ offset len,
    freshRead pol env w' ino offset len = freshRead pol env w ino offset len
  readdir : ∀ env : Env, env.faults = [] → ∀ kind,
    ListsAs pol env w' dir name kind ↔ ListsAs pol env w dir name kind

/-- None of them finds `name`. -/
structure GoneToObservers (pol : Policy) (w : World) (dir ino : UInt64) (name : Name) : Prop where
  stat : ∀ env : Env, env.faults = [] →
    (serveFuse pol env w (.lookup dir (.name name))).1 = .error .enoent
  «open» : ∀ env : Env, env.faults = [] →
    (serveFuse pol env w (.open ino rdonly)).1 = .error .enoent
  readdir : ∀ env : Env, env.faults = [] → ∀ kind, ¬ ListsAs pol env w dir name kind

/-- The two worlds differ in what the daemon knows, not in its objects. -/
structure SameOutside (w w' : World) : Prop where
  host : w'.host = w.host
  inodes : w'.inodes = w.inodes
  nextFh : w'.nextFh = w.nextFh
  objects : w'.objects = w.objects

section HostOpen

variable {pol : Policy} {w : World} {p : FsPath} {ino : UInt64}

/-- An open of a path that has no object is an open of the host's. -/
theorem open_host (env : Env) (hq : env.faults = []) (hino : w.inodes.getPath ino = some p)
    (hmode : pol.classify p = .copyOnWrite) (hwhite : isWhiteoutEntry (w.entry p) = false)
    (hobj : (w.entry p).bind (·.objectId) = none) :
    match w.host.openFile env.cred rdonly.options p with
    | .ok (i, _) => (serveFuse pol env w (.open ino rdonly)).1 = .opened w.nextFh ∧
        ∀ offset len, freshRead pol env w ino offset len = (w.host.readIno i offset len).toOption
    | .error errno => (serveFuse pol env w (.open ino rdonly)).1
          = .error (errToErrno (.ofErrno errno)) ∧
        ∀ offset len, freshRead pol env w ino offset len = none := by
  have hq₀ : ({ w with faults := env.faults } : World).faults = [] := hq
  obtain ⟨state, hload, haccess, hread, hentry, -⟩ := loadOpenState_reading pol env p hq₀
  have hdecide : decideOpen state = .openReal := by
    rw [decideOpen_rdonly state hread, hentry, haccess, hmode]
    rw [show World.entry { w with faults := env.faults } p = w.entry p from rfl, if_neg (by simp [hwhite]),
      hobj]
  cases hopen : w.host.openFile env.cred rdonly.options p with
  | ok r =>
    obtain ⟨i, host⟩ := r
    obtain ⟨rfl, -⟩ := FileSystem.openFile_existing rfl hopen
    have hfd : openHost env rdonly.options p { w with faults := env.faults }
        = .ok (fdOf rdonly.options (.host i)) { w with faults := env.faults } :=
      (run_bind_ok (onHost_ok hopen)).trans rfl
    have hrun : executeOpen env (decideOpen state) p rdonly
        (fileMetaNow env 0 (S_IFREG ||| 0o644) env.uid env.gid) { w with faults := env.faults }
          = .ok (.passthroughReal (fdOf rdonly.options (.host i))) { w with faults := env.faults } := by
      rw [hdecide]
      exact (run_bind_ok hfd).trans rfl
    refine ⟨?_, fun offset len => ?_⟩
    · exact congrArg Prod.fst (serveFuse_ok (.open ino rdonly) (open_quiet hq₀ hino hload hrun rfl))
    · rw [freshRead_opened hq hino hload hrun]
      exact toOption_readHost (fun fs => fs.readIno i offset len) _
  | error errno =>
    have hfd : openHost env rdonly.options p { w with faults := env.faults }
        = .error (.ofErrno errno) { w with faults := env.faults } := run_bind_error (onHost_error hopen)
    have hrun : executeOpen env (decideOpen state) p rdonly
        (fileMetaNow env 0 (S_IFREG ||| 0o644) env.uid env.gid) { w with faults := env.faults }
          = .error (.ofErrno errno) { w with faults := env.faults } := by
      rw [hdecide]
      exact run_bind_error hfd
    refine ⟨?_, freshRead_failed hq hino hload hrun⟩
    exact congrArg Prod.fst (serveFuse_error (.open ino rdonly) (open_failed hq₀ hino hload hrun))

end HostOpen

/-! ## §2. The entry is gone. -/

/-- The host has at the path what the entry shows, and lists it where the daemon does. -/
structure HostMatches (pol : Policy) (w : World) (d : FsPath) (name : Name) (e : FuseEntry) :
    Prop where
  shown : hostShown w.host (d ++ [name]) = entryShown e
  content : ∀ id, e.objectId = some id →
    w.objects.lookup (objectPath id) = (w.host.readFile (d ++ [name])).toOption
  listed : daemonListed w.daemon (d ++ [name]) ≠ none →
    pol.classify d ≠ .fuseOnly ∧ hostListed w.host d name ≠ none

section Erased

variable {pol : Policy} {w w' : World} {d : FsPath} {dir ino : UInt64} {name : Name} {s : Shown}
  {e : FuseEntry}

/-- Without an entry the daemon lists nothing. -/
theorem daemonListed_none {s : Server} {p : FsPath} (h : s.state.fuseMap.lookup p = none) :
    daemonListed s p = none := by
  unfold daemonListed
  split
  · exact h
  · rfl

variable (pol) in
/-- What a listing has once the entry is gone. -/
theorem listKind_erased (hgood : GoodStore w.daemon) (hgood' : GoodStore w'.daemon)
    (hhost : w'.host = w.host) (hroot : w.host.kindAt [] = some .dir)
    (hgone : w'.entry (d ++ [name]) = none) (he : w.entry (d ++ [name]) = some e) {kind : FileType}
    (hkind : kindFromEntry e = some kind)
    (hsame : (hostKind w.host (d ++ [name])).map .ofKind = some kind) :
    listKind pol w' d name = listKind pol w d name ↔
      (daemonListed w.daemon (d ++ [name]) ≠ none →
        pol.classify d ≠ .fuseOnly ∧ hostListed w.host d name ≠ none) := by
  have hwhite : e.entryType ≠ .whiteout := by
    rw [Ne, ← kindFromEntry_whiteout, hkind]
    exact nofun
  have hnone : daemonListed w'.daemon (d ++ [name]) = none := daemonListed_none hgone
  have hlisted : ∀ e', daemonListed w.daemon (d ++ [name]) = some e' → e' = e := by
    intro e' hl
    exact Option.some.inj ((daemonListed_entry hl).symm.trans he)
  rw [listKind_eq hgood', listKind_eq hgood, hnone, hhost]
  cases hl : daemonListed w.daemon (d ++ [name]) with
  | none => exact iff_of_true rfl fun h => absurd rfl h
  | some e' =>
    obtain rfl := hlisted e' hl
    rw [forall_prop_of_true nofun]
    cases pol.classify d with
    | passthrough =>
      show (hostListed w.host d name).map FileType.ofKind
        = (if e'.entryType = .whiteout then none else _) ↔ _
      rw [if_neg hwhite, hkind]
      -- the host's child comes first in the listing, before and after
      cases hostListed w.host d name <;> simp
    | copyOnWrite =>
      show (hostListed w.host d name).map FileType.ofKind = kindFromEntry e' ↔ _
      rw [hkind]
      rcases hostListed_eq hroot d name with heq | hunread
      · have hsome : hostKind w.host (d ++ [name]) ≠ none := fun h => by
          rw [h] at hsame
          cases hsame
        rw [heq]
        exact iff_of_true hsame ⟨nofun, hsome⟩
      · rw [hunread]
        exact iff_of_false nofun fun h => h.2 rfl
    | fuseOnly =>
      apply iff_of_false
      · intro h
        cases (show none = kindFromEntry e' from h).trans hkind
      · exact fun h => h.1 rfl

theorem shownAt_erased (hmode : pol.classify (d ++ [name]) = .copyOnWrite)
    (hhost : w'.host = w.host) (hgone : w'.entry (d ++ [name]) = none) :
    shownAt pol w' (d ++ [name]) = hostShown w.host (d ++ [name]) := by
  rw [shownAt_host (Or.inr ⟨hmode, hgone⟩), hhost]

/-- Two opens of a path that has no object in either world. -/
theorem open_same_host (hout : SameOutside w w')
    (hmode : pol.classify (d ++ [name]) = .copyOnWrite)
    (hino : w.inodes.getPath ino = some (d ++ [name]))
    (hwhite : isWhiteoutEntry (w.entry (d ++ [name])) = false)
    (hobj : (w.entry (d ++ [name])).bind (·.objectId) = none)
    (hgone : w'.entry (d ++ [name]) = none) (env : Env) (hq : env.faults = []) :
    (serveFuse pol env w' (.open ino rdonly)).1 = (serveFuse pol env w (.open ino rdonly)).1 ∧
      ∀ offset len, freshRead pol env w' ino offset len = freshRead pol env w ino offset len := by
  have hopen := open_host env hq hino hmode hwhite hobj
  have hino' : w'.inodes.getPath ino = some (d ++ [name]) := by
    rw [hout.inodes]
    exact hino
  have hopen' := open_host env hq hino' hmode (by rw [hgone]; rfl) (by rw [hgone]; rfl)
  rw [hout.host, hout.nextFh] at hopen'
  cases h : w.host.openFile env.cred rdonly.options (d ++ [name]) with
  | ok r =>
    rw [h] at hopen hopen'
    exact ⟨hopen'.1.trans hopen.1.symm, fun offset len =>
      (hopen'.2 offset len).trans (hopen.2 offset len).symm⟩
  | error errno =>
    rw [h] at hopen hopen'
    exact ⟨hopen'.1.trans hopen.1.symm, fun offset len =>
      (hopen'.2 offset len).trans (hopen.2 offset len).symm⟩

/-- An open of a regular file that has its content. -/
theorem open_found {p : FsPath} {data : Bytes} (hgood : GoodStore w.daemon)
    (hino : w.inodes.getPath ino = some p) (hs : shownAt pol w p = some s)
    (hk : s.kind = .regularFile) (hcontent : contentAt pol w p = some data) (env : Env)
    (hq : env.faults = []) : (serveFuse pol env w (.open ino rdonly)).1 = .opened w.nextFh := by
  have hq₀ : ({ w with faults := env.faults } : World).faults = [] := hq
  obtain ⟨state, hload⟩ : ∃ state, loadOpenState pol env p false false
      { w with faults := env.faults } = .ok state { w with faults := env.faults } :=
    ⟨_, loadOpenState_quiet hq₀ _ _⟩
  have hexec := executeOpen_found (w := { w with faults := env.faults }) hq₀ hgood hs hk
    (fileMetaNow env 0 (S_IFREG ||| 0o644) env.uid env.gid) hload
  rw [show contentAt pol { w with faults := env.faults } p = contentAt pol w p from rfl,
    hcontent] at hexec
  obtain ⟨file, hrun, -⟩ := hexec
  exact congrArg Prod.fst (serveFuse_ok (.open ino rdonly) (open_quiet hq₀ hino hload hrun rfl))

/-- What the host shows at the path of a regular file that it matches. -/
theorem contentAt_erased (hout : SameOutside w w')
    (hmode : pol.classify (d ++ [name]) = .copyOnWrite)
    (hgone : w'.entry (d ++ [name]) = none) (hs : hostShown w.host (d ++ [name]) = some s)
    (hk : s.kind = .regularFile) :
    ∃ data, (w.host.readFile (d ++ [name])).toOption = some data ∧
      contentAt pol w' (d ++ [name]) = some data := by
  obtain ⟨found, data, -, hfind, hdata⟩ := hostShown_regular hs hk
  refine ⟨data, ?_, ?_⟩
  · rw [readFile_of_find hfind hdata]
    rfl
  · apply (contentAt_host (Or.inr ⟨hmode, hgone⟩) (by rw [hgone]; rfl) _ hdata).2
    rw [hout.host]
    exact hfind

section Exact

variable (hout : SameOutside w w') (hgood : GoodStore w.daemon) (hgood' : GoodStore w'.daemon)
  (hroot : w.host.kindAt [] = some .dir) (hmode : pol.classify (d ++ [name]) = .copyOnWrite)
  (hdir : w.inodes.getPath dir = some d) (hino : w.inodes.getPath ino = some (d ++ [name]))
  (hs : shownAt pol w (d ++ [name]) = some s) (hk : s.kind = .regularFile ∨ s.kind = .symlink)
  (hgone : w'.entry (d ++ [name]) = none)

include hout hgood hgood' hdir

theorem readdir_same_iff : (∀ env : Env, env.faults = [] → ∀ kind,
    ListsAs pol env w' dir name kind ↔ ListsAs pol env w dir name kind) ↔
      listKind pol w' d name = listKind pol w d name := by
  have hdir' : w'.inodes.getPath dir = some d := by
    rw [hout.inodes]
    exact hdir
  rw [Option.ext_iff]
  constructor
  · intro h kind
    rw [← listsAs_iff pol (show Env.quiet.faults = [] from rfl) hdir' name hgood' kind,
      ← listsAs_iff pol (show Env.quiet.faults = [] from rfl) hdir name hgood kind]
    exact h Env.quiet rfl kind
  · intro h env hq kind
    rw [listsAs_iff pol hq hdir' name hgood' kind, listsAs_iff pol hq hdir name hgood kind]
    exact h kind

include hroot hmode hino hs hk hgone

theorem sameToObservers_matches {e : FuseEntry} (he : w.entry (d ++ [name]) = some e)
    (hmatch : HostMatches pol w d name e) : SameToObservers pol w w' d dir ino name := by
  have hse : entryShown e = some s := by
    rw [shownAt_entry (by rintro (h | ⟨-, h⟩) <;> simp_all), he] at hs
    exact hs
  have hkind : kindFromEntry e = some s.kind := by
    rw [← entryShown_kind, hse]
    rfl
  have hhost : hostShown w.host (d ++ [name]) = some s := hmatch.shown.trans hse
  have hhostKind : (hostKind w.host (d ++ [name])).map .ofKind = some s.kind := by
    rw [← hostShown_kind, hhost]
    rfl
  have hshown' : shownAt pol w' (d ++ [name]) = some s :=
    (shownAt_erased hmode hout.host hgone).trans hhost
  have hino' : w'.inodes.getPath ino = some (d ++ [name]) := by
    rw [hout.inodes]
    exact hino
  have hopens : ∀ env : Env, env.faults = [] →
      (serveFuse pol env w' (.open ino rdonly)).1 = (serveFuse pol env w (.open ino rdonly)).1 ∧
      ∀ offset len, freshRead pol env w' ino offset len = freshRead pol env w ino offset len := by
    rcases hk with hreg | hlink
    · -- the bytes of the object are those of the host
      obtain ⟨data, hread, hcontent'⟩ := contentAt_erased hout hmode hgone hhost hreg
      obtain ⟨ht, id, hid⟩ := entryShown_regular (hgood.entries _ e he) hse hreg
      have hcontent : contentAt pol w (d ++ [name]) = some data := by
        rw [(contentAt_entry (by rintro (h | ⟨-, h⟩) <;> simp_all) he ht hid).2,
          hmatch.content id hid, hread]
      intro env hq
      refine ⟨?_, fun offset len => ?_⟩
      · rw [open_found hgood' hino' hshown' hreg hcontent' env hq,
          open_found hgood hino hs hreg hcontent env hq, hout.nextFh]
      · rw [freshRead_eq env hq hgood' hino' hshown' hreg,
          freshRead_eq env hq hgood hino hs hreg, hcontent, hcontent']
    · -- a link has no object
      have ht : e.entryType = .symlink := by
        rw [hlink, kindFromEntry_symlink (hgood.entries _ e he)] at hkind
        exact hkind
      have hobj : (w.entry (d ++ [name])).bind (·.objectId) = none := by
        rw [he]
        exact (hgood.entries _ e he).noObject (by rw [ht]; exact nofun)
      apply open_same_host hout hmode hino _ hobj hgone
      rw [he]
      exact decide_eq_false (by rw [ht]; exact nofun)
  refine ⟨fun t => ?_, fun env hq => (hopens env hq).1, fun env hq => (hopens env hq).2, ?_⟩
  · rw [statReports_iff, statReports_iff, hshown', hs]
  · rw [readdir_same_iff hout hgood hgood' hdir,
      listKind_erased pol hgood hgood' hout.host hroot hgone he hkind hhostKind]
    exact hmatch.listed

/-- **Dropping an entry is noticed** unless the host has at the path what the entry shows. -/
theorem sameToObservers_iff : SameToObservers pol w w' d dir ino name ↔
    ∀ e, w.entry (d ++ [name]) = some e → HostMatches pol w d name e := by
  cases he : w.entry (d ++ [name]) with
  | none =>
    refine iff_of_true ⟨fun t => ?_, fun env hq => ?_, fun env hq => ?_, ?_⟩ nofun
    · rw [statReports_iff, statReports_iff, shownAt_erased hmode hout.host hgone,
        shownAt_host (Or.inr ⟨hmode, he⟩)]
    · exact (open_same_host hout hmode hino (by rw [he]; rfl) (by rw [he]; rfl) hgone env hq).1
    · exact (open_same_host hout hmode hino (by rw [he]; rfl) (by rw [he]; rfl) hgone env hq).2
    · rw [readdir_same_iff hout hgood hgood' hdir,
        listKind_eq hgood', listKind_eq hgood,
        daemonListed_none hgone, daemonListed_none he, hout.host]
  | some e =>
    constructor
    · intro h e' he'
      obtain rfl := Option.some.inj he'
      have hstat : ¬ StatsHost pol w (d ++ [name]) := by rintro (h | ⟨-, h⟩) <;> simp_all
      have hse : entryShown e = some s := by
        rw [shownAt_entry hstat, he] at hs
        exact hs
      have hhost : hostShown w.host (d ++ [name]) = some s := by
        rw [← shownAt_erased hmode hout.host hgone]
        exact statReports_iff.mp ((h.stat s).mpr (statReports_iff.mpr hs))
      have hkind : kindFromEntry e = some s.kind := by
        rw [← entryShown_kind, hse]
        rfl
      have hhostKind : (hostKind w.host (d ++ [name])).map .ofKind = some s.kind := by
        rw [← hostShown_kind, hhost]
        rfl
      refine ⟨hhost.trans hse.symm, fun id hid => ?_, ?_⟩
      · have ht : e.entryType = .file :=
          (hgood.entries _ e he).shape.1.mp (by rw [hid]; rfl)
        have hreg : s.kind = .regularFile := by
          rw [kindFromEntry_file (hgood.entries _ e he) ht] at hkind
          exact (Option.some.inj hkind).symm
        obtain ⟨data, hread, hcontent'⟩ := contentAt_erased hout hmode hgone hhost hreg
        have hino' : w'.inodes.getPath ino = some (d ++ [name]) := by
          rw [hout.inodes]
          exact hino
        have hshown' : shownAt pol w' (d ++ [name]) = some s :=
          (shownAt_erased hmode hout.host hgone).trans hhost
        have hsame : contentAt pol w' (d ++ [name]) = contentAt pol w (d ++ [name]) := by
          apply content_eq_of_reads
          intro offset len
          rw [← freshRead_eq Env.quiet rfl hgood' hino' hshown' hreg,
            ← freshRead_eq Env.quiet rfl hgood hino hs hreg]
          exact h.read Env.quiet rfl offset len
        rw [hread, ← hcontent', hsame, (contentAt_entry hstat he ht hid).2]
      · rw [← listKind_erased pol hgood hgood' hout.host hroot hgone he hkind hhostKind,
          ← readdir_same_iff hout hgood hgood' hdir]
        exact h.readdir
    · intro h
      exact sameToObservers_matches hout hgood hgood' hroot hmode hdir hino hs hk hgone he (h e rfl)

end Exact

end Erased

/-! ## §3. Nothing is found. -/

/-- The host has nothing at the path. -/
def HostGone (fs : FileSystem) (p : FsPath) : Prop := hostKind fs p = none ∧ HostMisses fs p

section Gone

variable {pol : Policy} {w w' : World} {d : FsPath} {dir ino : UInt64} {name : Name} {s : Shown}
  (hgood : GoodStore w.daemon) (hmode : pol.classify (d ++ [name]) = .copyOnWrite)
  (hdir : w.inodes.getPath dir = some d) (hino : w.inodes.getPath ino = some (d ++ [name]))

include hgood hmode hdir hino

theorem goneToObservers_whiteout (hwhite : w.entry (d ++ [name]) = some .whiteout)
    (hlisted : daemonListed w.daemon (d ++ [name]) = some .whiteout) :
    GoneToObservers pol w dir ino name := by
  have hstat : statKind pol w (d ++ [name]) = none := by
    unfold statKind
    rw [hmode, hwhite]
    rfl
  have hopen : OpenMisses pol w (d ++ [name]) := by
    apply Or.inl
    rw [hwhite]
    rfl
  have hlist : listKind pol w d name = none := by
    rw [listKind_eq hgood, hlisted]
    cases pol.classify d <;> rfl
  refine ⟨fun env hq => ?_, fun env hq => ?_, fun env hq kind => ?_⟩
  · exact (lookup_enoent_iff pol hq hdir name).mpr hstat
  · exact (open_enoent_iff pol hgood hq hino).mpr hopen
  · rw [listsAs_iff pol hq hdir name hgood kind, hlist]
    exact nofun

theorem goneToObservers_iff (hgone : w.entry (d ++ [name]) = none)
    (hroot : w.host.kindAt [] = some .dir) :
    GoneToObservers pol w dir ino name ↔ HostGone w.host (d ++ [name]) := by
  have hstat : statKind pol w (d ++ [name]) = none ↔ hostKind w.host (d ++ [name]) = none := by
    unfold statKind
    rw [hmode, hgone]
    exact Option.map_eq_none_iff
  have hopen : OpenMisses pol w (d ++ [name]) ↔ HostMisses w.host (d ++ [name]) := by
    unfold OpenMisses
    rw [hmode, hgone]
    simp [isWhiteoutEntry]
  constructor
  · intro h
    exact ⟨hstat.mp ((lookup_enoent_iff pol (show Env.quiet.faults = [] from rfl) hdir name).mp
      (h.stat Env.quiet rfl)), hopen.mp ((open_enoent_iff pol hgood rfl hino).mp
      (h.open Env.quiet rfl))⟩
  · intro h
    refine ⟨fun env hq => ?_, fun env hq => ?_, fun env hq kind => ?_⟩
    · exact (lookup_enoent_iff pol hq hdir name).mpr (hstat.mpr h.1)
    · exact (open_enoent_iff pol hgood hq hino).mpr (hopen.mpr h.2)
    · rw [listsAs_iff pol hq hdir name hgood kind, listKind_eq hgood,
        daemonListed_none hgone, hostListed_none hroot h.1]
      intro hlisted
      cases hd : pol.classify d <;> rw [hd] at hlisted <;> cases hlisted

end Gone

/-! ## §4. The two requests. -/

/-- The world after `DeleteFile`, before `PutWhiteout`. -/
def betweenUnlink (env : Env) (p : FsPath) (w : World) : World :=
  endState ((do connectDaemon; ignore (Client.deleteFile env p) : FuseM Unit)
    { w with faults := env.faults })

section Requests

variable {pol : Policy} {env : Env} {w : World} {p : FsPath} {parent : UInt64} {name : Component}

theorem connectDaemon_connected (h : env.fault 0 = none) :
    connectDaemon { w with faults := env.faults } = .ok () { w with faults := env.faults.tail } := by
  rw [Env.fault_zero] at h
  exact connectDaemon_arrives h

theorem connectDaemon_refused (h : env.fault 0 ≠ none) :
    ∃ err, connectDaemon { w with faults := env.faults }
      = .error err { w with faults := env.faults.tail } := by
  rw [Env.fault_zero] at h
  obtain ⟨fault, hf⟩ := Option.ne_none_iff_exists'.mp h
  exact connectDaemon_fails hf

theorem betweenUnlink_connected (h : env.fault 0 = none) :
    betweenUnlink env p w = { w with
      faults := env.faults.tail.tail
      daemon := if reaches (env.fault 1) then (w.daemon.deleteFile p).2 else w.daemon } := by
  unfold betweenUnlink
  rw [run_bind_ok (connectDaemon_connected h), run_ignore]
  show endState (call env (.deleteFile p) (takeUnit .deleteFile)
    { w with faults := env.faults.tail }) = _
  rw [endState_faulty]
  show ({ w with
    faults := env.faults.tail.tail
    daemon := if reaches env.faults.tail.head?.join then (w.daemon.deleteFile p).2
      else w.daemon } : World) = _
  rw [List.head?_tail]
  rfl

theorem betweenUnlink_refused (h : env.fault 0 ≠ none) :
    betweenUnlink env p w = { w with faults := env.faults.tail } := by
  obtain ⟨err, hrun⟩ := connectDaemon_refused (w := w) h
  unfold betweenUnlink
  rw [run_bind_error hrun]
  rfl

variable (pol) in
theorem unlink_refused (hname : w.namedPath parent name = some p) (h : env.fault 0 ≠ none) :
    (serveFuse pol env w (.unlink parent name)).2 = { w with faults := env.faults.tail } := by
  obtain ⟨err, hrun⟩ := connectDaemon_refused (w := w) h
  have hpath : getPath parent name { w with faults := env.faults }
      = .ok p { w with faults := env.faults } := getPath_ok hname
  have hunlink : unlink pol env parent name { w with faults := env.faults }
      = .error err { w with faults := env.faults.tail } := by
    unfold unlink
    rw [run_bind_ok hpath]
    exact run_bind_error hrun
  rw [serveFuse_error (.unlink parent name) hunlink]

/-- After `DeleteFile` an unlink sends `PutWhiteout`, whose error it returns. -/
theorem unlink_connected (hname : w.namedPath parent name = some p)
    (hmode : pol.classify p = .copyOnWrite) (h : env.fault 0 = none) :
    unlink pol env parent name { w with faults := env.faults }
      = (Client.putWhiteout env p >>= fun _ => pure .ok : FuseM Reply) (betweenUnlink env p w) := by
  have hpath : getPath parent name { w with faults := env.faults }
      = .ok p { w with faults := env.faults } := getPath_ok hname
  have hdelete : ignore (Client.deleteFile env p) { w with faults := env.faults.tail }
      = .ok () (betweenUnlink env p w) := by
    unfold betweenUnlink
    rw [run_bind_ok (connectDaemon_connected h)]
    rfl
  have hexec : executeUnlink env .whiteout p { w with faults := env.faults.tail }
      = Client.putWhiteout env p (betweenUnlink env p w) := run_bind_ok hdelete
  have hdecide : decideUnlink (loadUnlinkState pol p) = .whiteout := by
    unfold decideUnlink loadUnlinkState
    rw [hmode]
  unfold unlink
  rw [run_bind_ok hpath, run_bind_ok (connectDaemon_connected h), hdecide, run_bind, run_bind, hexec]

variable (env) in
/-- Where an unlink ends, and how it replies. -/
theorem unlink_ends (hname : w.namedPath parent name = some p)
    (hmode : pol.classify p = .copyOnWrite) (h : env.fault 0 = none) :
    (serveFuse pol env w (.unlink parent name)).2 = { betweenUnlink env p w with
      faults := env.faults.tail.tail.tail
      daemon := if reaches (env.fault 2)
        then ((betweenUnlink env p w).daemon.putEntry .putWhiteout p .whiteout).2
        else (betweenUnlink env p w).daemon } ∧
    ((∃ errno, (serveFuse pol env w (.unlink parent name)).1 = .error errno) ↔
      env.fault 2 ≠ none) := by
  have hfaults : (betweenUnlink env p w).faults = env.faults.tail.tail := by
    rw [betweenUnlink_connected h]
  have hfault : (betweenUnlink env p w).faults.head?.join = env.fault 2 := by
    rw [hfaults, List.head?_tail, List.getElem?_tail]
    rfl
  have hend : endState (Client.putWhiteout env p (betweenUnlink env p w)) = _ :=
    endState_faulty (.putWhiteout p) (takeUnit .putWhiteout)
  rw [hfault, hfaults] at hend
  have hrun := unlink_connected hname hmode h
  cases hf : env.fault 2 with
  | none =>
    have hput : Client.putWhiteout env p (betweenUnlink env p w) = .ok () _ :=
      run_bind_ok (sendRequest_arrives (.putWhiteout p) (hfault.trans hf))
    have hunlink : handle pol env (.unlink parent name) { w with faults := env.faults }
        = .ok .ok _ := hrun.trans (run_bind_ok hput)
    rw [hput, hf] at hend
    rw [serveFuse_ok _ hunlink]
    refine ⟨hend, iff_of_false ?_ (fun hc => hc rfl)⟩
    rintro ⟨errno, herr⟩
    cases herr
  | some fault =>
    obtain ⟨err, hsend⟩ := sendRequest_fails env (.putWhiteout p) (hfault.trans hf)
    have hput : Client.putWhiteout env p (betweenUnlink env p w) = .error (.syncingClient err) _ :=
      run_bind_error hsend
    have hunlink : handle pol env (.unlink parent name) { w with faults := env.faults }
        = .error (.syncingClient err) _ := hrun.trans (run_bind_error hput)
    rw [hput, hf] at hend
    rw [serveFuse_error _ hunlink]
    exact ⟨hend, iff_of_true ⟨_, rfl⟩ nofun⟩

end Requests

/-! ## §5. Unlink is atomic. -/

/-- Between the requests and after them the path shows what it showed or nothing; what it showed,
if the unlink fails. -/
structure UnlinkAtomic (pol : Policy) (env : Env) (w : World) (d : FsPath) (dir ino : UInt64)
    (name : Name) : Prop where
  between : SameToObservers pol w (betweenUnlink env (d ++ [name]) w) d dir ino name ∨
    GoneToObservers pol (betweenUnlink env (d ++ [name]) w) dir ino name
  after : SameToObservers pol w (serveFuse pol env w (.unlink dir (.name name))).2 d dir ino name ∨
    GoneToObservers pol (serveFuse pol env w (.unlink dir (.name name))).2 dir ino name
  failed : (∃ errno, (serveFuse pol env w (.unlink dir (.name name))).1 = .error errno) →
    SameToObservers pol w (serveFuse pol env w (.unlink dir (.name name))).2 d dir ino name

/-- The unlink does not connect; or the reply to `PutWhiteout` is not lost, and `DeleteFile` does
not arrive or uncovers nothing. -/
def UncoversNothing (pol : Policy) (env : Env) (w : World) (d : FsPath) (name : Name) : Prop :=
  env.fault 0 ≠ none ∨
    ((∀ err, env.fault 2 ≠ some (.lost err)) ∧
      (reaches (env.fault 1) = true → ∀ e, w.entry (d ++ [name]) = some e →
        HostMatches pol w d name e ∨ (HostGone w.host (d ++ [name]) ∧ env.fault 2 = none)))

section Atomic

variable {pol : Policy} {env : Env} {w : World} {d : FsPath} {dir ino : UInt64} {name : Name}
  {s : Shown}

/-- The faults of a past request are nobody's concern. -/
theorem sameToObservers_faults (faults : List (Option RpcFault)) :
    SameToObservers pol w { w with faults } d dir ino name :=
  ⟨fun _ => Iff.rfl, fun _ _ => rfl, fun _ _ _ _ => rfl, fun _ _ _ => Iff.rfl⟩

theorem daemonListed_whiteout {srv : Server} {S : Descriptive.tree Name} (h : srv.state.TreeRep S)
    (p : FsPath) : daemonListed (srv.putEntry .putWhiteout p .whiteout).2 p = some .whiteout := by
  have hcontains : (srv.state.publish p .whiteout).pathTree.contains p = true :=
    (PathTree.contains_iff (PathTree.rep_insert h p) p).mpr
      (PrefixTree.mem_insert.mpr (Or.inr List.prefix_rfl))
  exact (if_pos hcontains).trans (Finmap.lookup_insert _)

section Visible

variable (hw : Reachable pol w) (hroot : w.host.kindAt [] = some .dir)
  (hmode : pol.classify (d ++ [name]) = .copyOnWrite) (hdir : w.inodes.getPath dir = some d)
  (hino : w.inodes.getPath ino = some (d ++ [name])) (hs : StatReports pol w (d ++ [name]) s)

include hw

variable (env d name) in
theorem goodStore_between : GoodStore (betweenUnlink env (d ++ [name]) w).daemon := by
  by_cases h0 : env.fault 0 = none
  · rw [betweenUnlink_connected h0]
    show GoodStore (if reaches (env.fault 1) then _ else _)
    split
    · exact messages_goodStore.dispatch w (env.dispatchEnv w.host) (.deleteFile _) trivial
        hw.goodStore
    · exact hw.goodStore
  · rw [betweenUnlink_refused h0]
    exact hw.goodStore

include hmode hdir hino hs

/-- The whiteout hides the path, and so shows that the unlink has happened. -/
theorem unlink_served (h0 : env.fault 0 = none) (h2 : reaches (env.fault 2) = true) :
    GoneToObservers pol (serveFuse pol env w (.unlink dir (.name name))).2 dir ino name ∧
      ¬ SameToObservers pol w (serveFuse pol env w (.unlink dir (.name name))).2 d dir ino name := by
  have hname : w.namedPath dir (.name name) = some (d ++ [name]) := by
    unfold World.namedPath
    rw [hdir]
    rfl
  have hend := (unlink_ends env hname hmode h0).1
  rw [if_pos h2] at hend
  obtain ⟨S, hS⟩ := (goodStore_between env d name hw).table
  have hwhite : ((serveFuse pol env w (.unlink dir (.name name))).2).entry (d ++ [name])
      = some .whiteout := by
    rw [hend]
    exact Finmap.lookup_insert _
  constructor
  · apply goneToObservers_whiteout (hw.serve env _).goodStore hmode _ _ hwhite
    · rw [hend]
      exact daemonListed_whiteout hS _
    · rw [hend, betweenUnlink_connected h0]
      exact hdir
    · rw [hend, betweenUnlink_connected h0]
      exact hino
  · intro hsame
    have hafter := statReports_iff.mp ((hsame.stat s).mpr hs)
    rw [shownAt_entry (by rintro (h | ⟨-, h⟩) <;> simp_all), hwhite] at hafter
    cases hafter

/-- What happens to `PutWhiteout` decides, and what the path shows before it. -/
theorem unlinkAtomic_between_iff (h0 : env.fault 0 = none) :
    UnlinkAtomic pol env w d dir ino name ↔ (∀ err, env.fault 2 ≠ some (.lost err)) ∧
      (SameToObservers pol w (betweenUnlink env (d ++ [name]) w) d dir ino name ∨
        (GoneToObservers pol (betweenUnlink env (d ++ [name]) w) dir ino name ∧
          env.fault 2 = none)) := by
  have hname : w.namedPath dir (.name name) = some (d ++ [name]) := by
    unfold World.namedPath
    rw [hdir]
    rfl
  have hserved := unlink_served hw hmode hdir hino hs h0
  obtain ⟨hend, hreply⟩ := unlink_ends env hname hmode h0
  cases h2 : env.fault 2 with
  | none =>
    have hgone := (hserved (by rw [h2]; rfl)).1
    constructor
    · intro h
      exact ⟨nofun, h.between.imp_right fun hb => ⟨hb, rfl⟩⟩
    · rintro ⟨-, h⟩
      exact ⟨h.imp_right And.left, Or.inr hgone, fun herr => absurd h2 (hreply.mp herr)⟩
  | some fault =>
    have herr : ∃ errno, (serveFuse pol env w (.unlink dir (.name name))).1 = .error errno :=
      hreply.mpr (by rw [h2]; exact nofun)
    cases fault with
    | lost err =>
      apply iff_of_false
      · intro h
        exact (hserved (by rw [h2]; rfl)).2 (h.failed herr)
      · rintro ⟨h, -⟩
        exact h err rfl
    | unsent err =>
      -- the world stays as `DeleteFile` left it
      rw [h2] at hend
      have hsame : SameToObservers pol w (serveFuse pol env w (.unlink dir (.name name))).2 d dir
          ino name ↔ SameToObservers pol w (betweenUnlink env (d ++ [name]) w) d dir ino name := by
        rw [hend]
        exact ⟨fun h => ⟨h.stat, h.open, h.read, h.readdir⟩,
          fun h => ⟨h.stat, h.open, h.read, h.readdir⟩⟩
      constructor
      · intro h
        exact ⟨nofun, Or.inl (hsame.mp (h.failed herr))⟩
      · rintro ⟨-, h | ⟨-, hnone⟩⟩
        · exact ⟨Or.inl h, Or.inl (hsame.mpr h), fun _ => hsame.mpr h⟩
        · cases hnone

include hroot

/-- What the path shows between the requests. -/
theorem between_iff (hk : s.kind = .regularFile ∨ s.kind = .symlink) (h0 : env.fault 0 = none) :
    SameToObservers pol w (betweenUnlink env (d ++ [name]) w) d dir ino name ∨
      (GoneToObservers pol (betweenUnlink env (d ++ [name]) w) dir ino name ∧
        env.fault 2 = none) ↔
    (reaches (env.fault 1) = true → ∀ e, w.entry (d ++ [name]) = some e →
      HostMatches pol w d name e ∨ (HostGone w.host (d ++ [name]) ∧ env.fault 2 = none)) := by
  have hbetween := betweenUnlink_connected (w := w) (p := d ++ [name]) h0
  have hgood := goodStore_between env d name hw
  cases h1 : reaches (env.fault 1) with
  | false =>
    refine iff_of_true (Or.inl ?_) nofun
    rw [hbetween, h1]
    exact sameToObservers_faults _
  | true =>
    rw [h1] at hbetween
    have hout : SameOutside w (betweenUnlink env (d ++ [name]) w) := by
      rw [hbetween]
      exact ⟨rfl, rfl, rfl, rfl⟩
    have hgone : (betweenUnlink env (d ++ [name]) w).entry (d ++ [name]) = none := by
      rw [hbetween]
      exact Finmap.lookup_erase _ _
    have hhost : (betweenUnlink env (d ++ [name]) w).host = w.host := hout.host
    rw [sameToObservers_iff hout hw.goodStore hgood hroot hmode hdir hino (statReports_iff.mp hs) hk
      hgone, goneToObservers_iff hgood hmode (by rw [hout.inodes]; exact hdir)
      (by rw [hout.inodes]; exact hino) hgone (by rw [hhost]; exact hroot), hhost]
    constructor
    · rintro (h | h) - e he
      · exact Or.inl (h e he)
      · exact Or.inr h
    · intro h
      by_cases hh : HostGone w.host (d ++ [name]) ∧ env.fault 2 = none
      · exact Or.inr hh
      · exact Or.inl fun e he => (h rfl e he).resolve_right hh

/-- **Unlink is atomic** exactly when the reply to `PutWhiteout` is not lost and the entry covers
nothing on the host, or only what looks the same. -/
theorem unlink_atomic_iff (hk : s.kind = .regularFile ∨ s.kind = .symlink) :
    UnlinkAtomic pol env w d dir ino name ↔ UncoversNothing pol env w d name := by
  unfold UncoversNothing
  by_cases h0 : env.fault 0 = none
  · rw [or_iff_right (not_not_intro h0), unlinkAtomic_between_iff hw hmode hdir hino hs h0,
      between_iff hw hroot hmode hdir hino hs hk h0]
  · -- no connection
    have hname : w.namedPath dir (.name name) = some (d ++ [name]) := by
      unfold World.namedPath
      rw [hdir]
      rfl
    have hsame : SameToObservers pol w (serveFuse pol env w (.unlink dir (.name name))).2 d dir ino
        name := by
      rw [unlink_refused pol hname h0]
      exact sameToObservers_faults _
    refine iff_of_true ⟨Or.inl ?_, Or.inl hsame, fun _ => hsame⟩ (Or.inl h0)
    rw [betweenUnlink_refused h0]
    exact sameToObservers_faults _

end Visible

end Atomic

/-- An unlink of a file that only the daemon has. -/
theorem unlink_atomic_created : UnlinkAtomic allCopyOnWrite Env.quiet createdA [] 1 2 Name.a := by
  have hreach : Reachable allCopyOnWrite createdA := .serve (.mount emptyRoot "s") _ _
  apply (unlink_atomic_iff hreach (by decide) rfl (by decide) (by decide)
    (statReports_iff.mpr (show shownAt allCopyOnWrite createdA ([] ++ [Name.a])
      = some ⟨.regularFile, 0, 0o644, 0, 0⟩ by decide)) (Or.inl rfl)).mpr
  have hkind : hostKind createdA.host ([] ++ [Name.a]) = none := by decide
  have hmisses : createdA.host.names.lookup [Name.a] = none := by decide
  exact Or.inr ⟨nofun, fun _ e _ => Or.inr ⟨⟨hkind, hmisses⟩, rfl⟩⟩

/-- `/a` of the host has been looked up and opened for writing. -/
def copiedA : World :=
  (serveFuse allCopyOnWrite Env.quiet (serveFuse allCopyOnWrite Env.quiet
    (World.mount twoFiles (Server.init "s")) (.lookup 1 (.name Name.a))).2
      (.open 2 ⟨.rdwr, false, false⟩)).2

/-- Between the two requests the host's `/a` shows. -/
theorem not_unlink_atomic :
    ¬ ∀ (pol : Policy) (env : Env) (w : World), Reachable pol w → w.host.kindAt [] = some .dir →
      ∀ (d : FsPath) (name : Name) (dir ino : UInt64) (s : Shown),
      pol.classify (d ++ [name]) = .copyOnWrite → w.inodes.getPath dir = some d →
      w.inodes.getPath ino = some (d ++ [name]) → StatReports pol w (d ++ [name]) s →
      s.kind = .regularFile ∨ s.kind = .symlink → UnlinkAtomic pol env w d dir ino name := by
  intro h
  have hreach : Reachable allCopyOnWrite copiedA := .serve (.serve (.mount twoFiles "s") _ _) _ _
  have hroot : copiedA.host.kindAt [] = some .dir := by decide
  have hs : StatReports allCopyOnWrite copiedA ([] ++ [Name.a]) ⟨.regularFile, 0, 0o644, 0, 0⟩ :=
    statReports_iff.mpr (by decide)
  have hatomic := h allCopyOnWrite Env.quiet copiedA hreach hroot [] Name.a 1 2 _ rfl (by decide)
    (by decide) hs (Or.inl rfl)
  have hshows := ((unlinkAtomic_between_iff hreach rfl (by decide) (by decide) hs rfl).mp
    hatomic).2
  rw [between_iff hreach hroot rfl (by decide) (by decide) hs (Or.inl rfl) rfl] at hshows
  have hentry : (copiedA.entry ([] ++ [Name.a])).isSome = true := by decide
  obtain ⟨e, he⟩ := Option.isSome_iff_exists.mp hentry
  rcases hshows rfl e he with hmatch | ⟨⟨hkind, -⟩, -⟩
  · have hshown : (copiedA.entry ([] ++ [Name.a])).bind entryShown
        = hostShown copiedA.host ([] ++ [Name.a]) := by
      rw [he]
      exact hmatch.shown.symm
    exact absurd hshown (by decide)
  · exact absurd hkind (by decide)

end Cas.Fuse
