/-
  Cas.Syncing.RoundTrip — flush, then load.

  Only the rows of one of the three indices are written, in the order in
  which a hash map happens to be iterated, and all three indices are
  rebuilt from them.  The rebuilt table is not the same value, but it
  represents the same set: the two give the same answers now and after
  every further sequence of updates (`roundTrip_run`).
-/
import Cas.Syncing.Integrity
import Cas.Syncing.Coherence
import Cas.Syncing.PathSet

namespace Cas.Syncing

open Cas.Lib Descriptive

/-! ## §1. Tables that cannot be told apart. -/

/-- Two lists hold the same paths, each once. -/
def SameList (l l' : List FsPath) : Prop := l.Nodup ∧ l'.Nodup ∧ ∀ p, p ∈ l ↔ p ∈ l'

theorem sameList_of_enumerates {l l' : List FsPath} {P : FsPath → Prop} (h : Enumerates l P)
    (h' : Enumerates l' P) : SameList l l' :=
  ⟨h.1, h'.1, fun p => (h.2 p).trans (h'.2 p).symm⟩

/-- The two tables give the same answers for every path. -/
structure SameAnswers (t t' : PathTree) : Prop where
  contains : ∀ p, t.contains p = t'.contains p
  children : ∀ p, SameList (t.childrenOf p) (t'.childrenOf p)
  descendants : ∀ p, SameList (t.descendantsOf p) (t'.descendantsOf p)
  ancestors : ∀ p, SameList (t.ancestorsOf p) (t'.ancestorsOf p)
  subtree : ∀ p, SameList (t.subtreePaths p) (t'.subtreePaths p)
  removed : ∀ p, SameList (t.remove p).1 (t'.remove p).1

theorem sameAnswers_of_rep {t t' : PathTree} {S : tree Name} (h : t.Rep S) (h' : t'.Rep S) :
    SameAnswers t t' := by
  have ha := treeAnswers_of_rep h
  have ha' := treeAnswers_of_rep h'
  refine ⟨fun p => ?_, fun p => ?_, fun p => ?_, fun p => ?_, fun p => ?_, fun p => ?_⟩
  · rw [Bool.eq_iff_iff]
    exact (ha.contains p).trans (ha'.contains p).symm
  · exact sameList_of_enumerates (ha.children p) (ha'.children p)
  · exact sameList_of_enumerates (ha.descendants p) (ha'.descendants p)
  · exact sameList_of_enumerates (ha.ancestors p) (ha'.ancestors p)
  · exact sameList_of_enumerates (ha.subtree p) (ha'.subtree p)
  · exact sameList_of_enumerates (ha.removed p) (ha'.removed p)

/-- Tables of one set stay alike under updates. -/
theorem sameAnswers_foldl {t t' : PathTree} {S : tree Name} (h : t.Rep S) (h' : t'.Rep S)
    (updates : List TreeOp) :
    SameAnswers (updates.foldl TreeOp.apply t) (updates.foldl TreeOp.apply t') :=
  sameAnswers_of_rep (rep_foldl_apply updates h) (rep_foldl_apply updates h')

/-! ## §2. The states of a sandbox. -/

/-- Any request, and restarts, one thing at a time. -/
def Server.perform (s : Server) : Op → Option Server
  | .request env req => some (dispatch env s req).2
  | .restart order order' => s.restart order order'

/-- The supported version, and a table that represents some set. -/
structure Loadable (s : Server) : Prop where
  abi : s.state.abiVersion = SUPPORTED_ABI_VERSION
  tree : ∃ S, s.state.TreeRep S

theorem abiVersion_dispatch (env : DispatchEnv) (s : Server) (req : Request) :
    (dispatch env s req).2.state.abiVersion = s.state.abiVersion := by
  by_cases hreq : req = .flush
  · rw [hreq]
    exact congrArg ServerState.abiVersion (flushRequest_state s env.flushIo env.order)
  · exact (frames_dispatch env s hreq).abiVersion

theorem loadable_perform {s s' : Server} {op : Op} (h : Loadable s)
    (hp : s.perform op = some s') : Loadable s' := by
  obtain ⟨S, hrep⟩ := h.tree
  cases op with
  | request env req =>
    cases hp
    obtain ⟨S', hrep', -⟩ := keepsKeys_dispatch hrep env req
    exact ⟨(abiVersion_dispatch env s req).trans h.abi, S', hrep'⟩
  | restart order order' =>
    have hr : s.restart order order' = some s' := hp
    rw [restart_eq h.abi] at hr
    cases hr
    exact ⟨h.abi, S, PathTree.rep_fromRows hrep order⟩

theorem loadable_init (shmName : String) : Loadable (Server.init shmName) :=
  ⟨rfl, ⊥, PathTree.rep_new⟩

/-! ## §3. The round trip. -/

/-- What a flush of `s` wrote in the order `order`, read back in the order `order'`. -/
def Server.reload (s : Server) (order order' : IterOrder FsPath) :
    Except DiskError (SandboxMeta × FuseMap × PathTree) :=
  load (s.flushState .ok order).2.storage order'

/-- **Persistence round trip.** In every state of every run, a complete flush followed by a load
gives back metadata and map, and a table that answers like the old one now and after any further
updates, whatever the iteration orders. -/
theorem roundTrip_run {shmName : String} {ops : List Op} {s : Server}
    (hrun : run Server.perform (Server.init shmName) ops = some s)
    (order order' : IterOrder FsPath) :
    ∃ tree, s.reload order order' = .ok (s.state.snapshot, s.state.fuseMap, tree) ∧
      ∀ updates : List TreeOp,
        SameAnswers (updates.foldl TreeOp.apply s.state.pathTree)
          (updates.foldl TreeOp.apply tree) := by
  have hload : Loadable s := run_invariant (fun _ _ _ => loadable_perform) (loadable_init _) hrun
  obtain ⟨S, hrep⟩ := hload.tree
  refine ⟨PathTree.fromRows (s.state.pathTree.rows order), ?_, fun updates => ?_⟩
  · exact load_flush s.storage order order' s.state.snapshot s.state.fuseMap s.state.pathTree
      hload.abi
  · exact sameAnswers_foldl hrep (PathTree.rep_fromRows hrep order) updates

/-- A file two levels deep whose entry is deleted again: the table keeps its directory. -/
theorem roundTrip_run_example :
    let ops := [Request.putDir [.a] .zero, .ensureFileObject [.a, .b] .zero,
      .deleteFile [.a, .b]].map (Op.request .quiet)
    ∃ s tree, run Server.perform (Server.init "") ops = some s ∧
      s.reload .sorted .sorted = .ok (s.state.snapshot, s.state.fuseMap, tree) ∧
      SameAnswers s.state.pathTree tree := by
  intro ops
  have hrun : ∃ s, run Server.perform (Server.init "") ops = some s := ⟨_, rfl⟩
  obtain ⟨s, hs⟩ := hrun
  obtain ⟨tree, hload, hsame⟩ := roundTrip_run hs .sorted .sorted
  exact ⟨s, tree, hs, hload, hsame []⟩

end Cas.Syncing
