/-
  Cas.Fuse.Stat — the attributes that a stat reports.

  `shownAt` reads them off the host and the daemon's entries, for every
  access mode; `statPath_reports` says that `stat_path` reports them.
-/
import Cas.Fuse.View

namespace Cas.Fuse

open Cas.Lib Cas.Host Cas.Syncing

/-! ## §1. What there is to report. -/

/-- The attributes of a path, the inode number apart. -/
structure Shown where
  kind : FileType
  size : Nat
  perm : UInt32
  uid : UInt32
  gid : UInt32
  deriving DecidableEq

def FileAttr.shown (attr : FileAttr) : Shown := ⟨attr.kind, attr.size, attr.perm, attr.uid, attr.gid⟩

/-- The attributes that the host has at a path, links not followed. -/
def hostShown (fs : FileSystem) (p : FsPath) : Option Shown :=
  (fs.symlinkMetadata p).toOption.map fun inode => (attrFromMeta 0 inode).shown

def entryShown (e : FuseEntry) : Option Shown :=
  (kindFromEntry e).map fun kind => (attrFromDaemon 0 e.metadata kind).shown

/-- The attributes that a path has in its access mode. -/
def shownAt (pol : Policy) (w : World) (p : FsPath) : Option Shown :=
  match pol.classify p with
  | .passthrough => hostShown w.host p
  | .fuseOnly => (w.entry p).bind entryShown
  | .copyOnWrite =>
    match w.entry p with
    | none => hostShown w.host p
    | some e => entryShown e

/-- The result of a stat that finds `shown`. -/
def Reports (shown : Option Shown) (result : Except Error (FileType × FileAttr)) : Prop :=
  match shown with
  | none => result = .error (.ofErrno .enoent)
  | some s => ∃ attr : FileAttr, result = .ok (s.kind, attr) ∧ attr.shown = s

/-! ## §2. A stat reports it. -/

section Quiet

variable {pol : Policy} {env : Env} {w : World} {p : FsPath}

theorem statRealPath_reports {inode : Inode} (h : w.host.symlinkMetadata p = .ok inode) :
    Reports (hostShown w.host p) (outcome (statRealPath p w)) := by
  unfold statRealPath hostShown
  rw [run_bind_ok (readHost_ok h), h]
  exact ⟨_, rfl, rfl⟩

variable (hq : w.faults = [])

include hq

theorem loadStatState_quiet : loadStatState pol env p w
    = .ok ⟨pol.classify p, (w.host.symlinkMetadata p).isOk, w.entry p⟩ w := by
  unfold loadStatState
  rw [run_bind_ok (peekHost_eq _ w), run_bind_ok (getEntry_quiet hq)]
  rfl

theorem statFusePath_reports {e : FuseEntry} (he : w.entry p = some e) :
    Reports (entryShown e) (outcome (statFusePath env p w)) := by
  unfold statFusePath entryShown
  rw [run_bind_ok (getEntry_quiet hq), he]
  dsimp only
  cases kindFromEntry e with
  | none => rfl
  | some kind => exact ⟨_, rfl, rfl⟩

omit hq in
/-- The branch that reads the host. -/
theorem statHost_reports : Reports (hostShown w.host p) (outcome ((match
    (if (w.host.symlinkMetadata p).isOk then .useReal else .notFound : StatDecision) with
    | .useReal => statRealPath p
    | .useFuse => statFusePath env p
    | .notFound => throw (.ofErrno .enoent) : FuseM (FileType × FileAttr)) w)) := by
  cases hmeta : w.host.symlinkMetadata p with
  | ok inode => exact statRealPath_reports hmeta
  | error errno =>
    unfold hostShown
    rw [hmeta]
    rfl

/-- **stat** reports what there is, and ENOENT where there is nothing. -/
theorem statPath_reports : Reports (shownAt pol w p) (outcome (statPath pol env p w)) := by
  unfold statPath shownAt
  rw [run_bind_ok (connectDaemon_quiet hq), run_bind_ok (loadStatState_quiet hq)]
  cases pol.classify p with
  | passthrough => exact statHost_reports
  | fuseOnly =>
    cases he : w.entry p with
    | none => rfl
    | some e =>
      show Reports (entryShown e) _
      by_cases ht : e.entryType = .whiteout
      · have hdec : decideStat ⟨.fuseOnly, (w.host.symlinkMetadata p).isOk, some e⟩ = .notFound := by
          simp [decideStat, ht]
        unfold entryShown
        rw [hdec, kindFromEntry_whiteout.mpr ht]
        rfl
      · have hdec : decideStat ⟨.fuseOnly, (w.host.symlinkMetadata p).isOk, some e⟩ = .useFuse := by
          simp [decideStat, ht]
        rw [hdec]
        exact statFusePath_reports hq he
  | copyOnWrite =>
    cases he : w.entry p with
    | none => exact statHost_reports
    | some e =>
      show Reports (entryShown e) _
      rw [decideStat_cow_some]
      by_cases ht : e.entryType = .whiteout
      · unfold entryShown
        rw [if_pos ht, kindFromEntry_whiteout.mpr ht]
        rfl
      · rw [if_neg ht]
        exact statFusePath_reports hq he

omit hq in
/-- The view has the kind that stat reports. -/
theorem kind?_cowView (hmode : pol.classify p = .copyOnWrite) :
    (cowView w p).kind? = (shownAt pol w p).map (·.kind) := by
  unfold cowView shownAt
  rw [hmode]
  cases w.entry p with
  | none =>
    show (hostView w.host p).kind? = (hostShown w.host p).map _
    unfold hostView hostShown
    cases w.host.symlinkMetadata p with
    | error errno => rfl
    | ok inode =>
      show View.kind? _ = some (FileType.ofKind inode.content.kind)
      dsimp only
      cases inode.content <;> rfl
  | some e =>
    show (entryView w p e).kind? = (entryShown e).map _
    unfold entryView entryShown
    cases kindFromEntry e with
    | none => rfl
    | some kind => cases kind <;> rfl

/-- **stat** replies with the kind of the view, and with ENOENT where the view is empty. -/
theorem statPath_cowView (hmode : pol.classify p = .copyOnWrite) :
    ShowsKind (cowView w p) (outcome (statPath pol env p w)) := by
  have key : Reports (shownAt pol w p) (outcome (statPath pol env p w)) := statPath_reports hq
  unfold ShowsKind
  rw [kind?_cowView hmode]
  cases hshown : shownAt pol w p with
  | none =>
    rw [hshown] at key
    exact key
  | some s =>
    rw [hshown] at key
    obtain ⟨attr, hres, -⟩ := key
    exact ⟨attr, hres⟩

end Quiet

/-- Every stat reports `s`, as long as no message is lost. -/
def StatReports (pol : Policy) (w : World) (p : FsPath) (s : Shown) : Prop :=
  ∀ env : Env, env.faults = [] → ∃ attr : FileAttr,
    outcome (statPath pol env p { w with faults := env.faults }) = .ok (s.kind, attr) ∧
      attr.shown = s

theorem statReports_iff {pol : Policy} {w : World} {p : FsPath} {s : Shown} :
    StatReports pol w p s ↔ shownAt pol w p = some s := by
  have key : ∀ env : Env, env.faults = [] → Reports (shownAt pol w p)
      (outcome (statPath pol env p { w with faults := env.faults })) := fun env hq =>
    statPath_reports (w := { w with faults := env.faults }) hq
  constructor
  · intro h
    obtain ⟨attr, hres, hshown⟩ := h Env.quiet rfl
    have hrep := key Env.quiet rfl
    rw [hres] at hrep
    cases hs : shownAt pol w p with
    | none =>
      rw [hs] at hrep
      cases hrep
    | some t =>
      rw [hs] at hrep
      obtain ⟨attr', hok, ht⟩ := hrep
      have hattr : attr = attr' := congrArg Prod.snd (Except.ok.inj hok)
      rw [← ht, ← hattr, hshown]
  · intro hs env hq
    have hrep := key env hq
    rw [hs] at hrep
    exact hrep

end Cas.Fuse
