/-
  Cas.Cli.HandOver — what a daemon loads, and what the one before it has
  answered.

  Disk and memory agree only right after a flush.  `HandedOver` says that
  the state each daemon loaded is the present state of the daemon started
  before it: nothing it acknowledged is missing.  This holds in every run
  in which a daemon loads what its predecessor flushed last and has not
  changed since, and no daemon takes a change once its successor has
  loaded (`LoadsLatest`).
-/
import Cas.Cli.Lifecycle
import Cas.Syncing.Coherence

namespace Cas.Cli

open Cas.Lib Cas.Syncing Descriptive

/-! ## §1. Equal states. -/

/-- Equal metadata, equal maps, and tables of the same set of paths. -/
structure SameState (a b : ServerState) : Prop where
  snapshot : a.snapshot = b.snapshot
  fuseMap : a.fuseMap = b.fuseMap
  tree : ∃ S, a.TreeRep S ∧ b.TreeRep S

/-- What daemon `d + 1` loaded is the present state of daemon `d`. -/
def HandedOver (s : Life) : Prop :=
  ∀ d x y state loaded, s.daemons.lookup d = some x → x.state = some state →
    s.daemons.lookup (d + 1) = some y → y.loadedAs = some loaded → SameState state loaded

/-- The condition on one step.  A daemon other than the first loads when the last flush was its
predecessor's, which has taken no change since; and a daemon takes no change once its successor
has loaded. -/
def LoadsLatest (s : Life) : LifeAct → Prop
  | .daemon (d + 1) (.load _) =>
    s.lastFlusher = some d ∧ (s.daemons.lookup d).all (fun x => !x.dirty) = true
  | .daemon d (.request _ req) =>
    mutating req = true → (s.daemons.lookup (d + 1)).all (fun y => y.loadedAs.isNone) = true
  | _ => True

instance (s : Life) : ∀ act, Decidable (LoadsLatest s act)
  | .daemon (_ + 1) (.load _) => inferInstanceAs (Decidable (_ ∧ _))
  | .daemon 0 (.load _) => isTrue trivial
  | .daemon 0 (.request _ _) => inferInstanceAs (Decidable (_ → _))
  | .daemon (_ + 1) (.request _ _) => inferInstanceAs (Decidable (_ → _))
  | .daemon 0 .bind | .daemon 0 .ready | .daemon 0 .connect | .daemon 0 .accept
  | .daemon 0 (.poll _ _) | .daemon 0 (.finalFlush _) | .daemon 0 .exit => isTrue trivial
  | .daemon (_ + 1) .bind | .daemon (_ + 1) .ready | .daemon (_ + 1) .connect
  | .daemon (_ + 1) .accept | .daemon (_ + 1) (.poll _ _) | .daemon (_ + 1) (.finalFlush _)
  | .daemon (_ + 1) .exit => isTrue trivial
  | .proc _ _ => isTrue trivial

/-! ## §2. Disk and memory. -/

/-- A state that a flush can write and a load can read back. -/
structure WellFormed (state : ServerState) : Prop where
  tree : ∃ S, state.TreeRep S
  abi : state.abiVersion = SUPPORTED_ABI_VERSION

/-- The disk holds `state`, as some flush of it wrote it. -/
def OnDisk (storage : Storage) (state : ServerState) : Prop :=
  ∃ order : IterOrder FsPath,
    storage.metadataBin = some (.sandboxMeta state.snapshot) ∧
    storage.dataBin = some (.syncState state.fuseMap (state.pathTree.rows order))

theorem onDisk_flush (state : ServerState) (storage : Storage) (order : IterOrder FsPath) :
    OnDisk (flushAndRemoveSocket ⟨state, storage⟩ .ok order).storage state :=
  ⟨order, rfl, rfl⟩

/-- Loading what is on disk. -/
theorem load_onDisk {storage : Storage} {state loaded : ServerState} (hwf : WellFormed state)
    (hdisk : OnDisk storage state) {order : IterOrder FsPath}
    (hload : buildServerState storage order = .ok loaded) :
    WellFormed loaded ∧ SameState state loaded := by
  obtain ⟨order', hmeta, hdata⟩ := hdisk
  obtain ⟨S, hS⟩ := hwf.tree
  have hloaded : loaded
      = { state with pathTree := PathTree.fromRows (state.pathTree.rows order') } := by
    have hm : loadMeta storage = .ok state.snapshot := by
      unfold loadMeta
      rw [hmeta]
      exact if_neg (not_not_intro hwf.abi)
    have hd : loadMap storage order
        = .ok (state.fuseMap, PathTree.fromRows (state.pathTree.rows order')) := by
      unfold loadMap
      rw [hdata]
    have hl : load storage order = .ok (state.snapshot, state.fuseMap,
        PathTree.fromRows (state.pathTree.rows order')) := by
      unfold load
      rw [hm, hd]
      rfl
    unfold buildServerState at hload
    rw [hl] at hload
    cases hload
    rfl
  have hrep : loaded.TreeRep S := by
    rw [hloaded]
    exact PathTree.rep_fromRows hS order'
  rw [hloaded] at hrep ⊢
  exact ⟨⟨⟨S, hrep⟩, hwf.abi⟩, rfl, rfl, S, hS, hrep⟩

/-- A request that is not mutating leaves memory alone. -/
theorem dispatch_state_of_not_mutating (env : DispatchEnv) (s : Server) {req : Request}
    (h : mutating req = false) : (dispatch env s req).2.state = s.state := by
  cases req with
  | getObjectPath id =>
    show (s.getObjectPath id).2.state = _
    unfold Server.getObjectPath
    split <;> rfl
  | getFileMeta path => rfl
  | getEntry path => rfl
  | readDirAll path => rfl
  | listWhiteoutUnder path => rfl
  | logAccess path operation pid => rfl
  | flush => exact flushRequest_state s env.flushIo env.order
  | _ => cases h

theorem wellFormed_dispatch (env : DispatchEnv) {s : Server} (h : WellFormed s.state)
    (req : Request) : WellFormed (dispatch env s req).2.state := by
  by_cases hreq : req = .flush
  · rw [hreq, dispatch_state_of_not_mutating env s rfl]
    exact h
  · obtain ⟨S, hS⟩ := h.tree
    obtain ⟨S', hS', -⟩ := keepsKeys_dispatch hS env req
    exact ⟨⟨S', hS'⟩, (frames_dispatch env s hreq).abiVersion.trans h.abi⟩

/-! ## §3. The invariant. -/

/-- What is true of every daemon by itself. -/
structure DaemonOk (x : Daemon) : Prop where
  forked : x.phase = .forked → x.state = none ∧ x.dirty = false
  both : x.state.isSome = x.loadedAs.isSome
  wf : ∀ state, x.state = some state → WellFormed state
  wfLoaded : ∀ loaded, x.loadedAs = some loaded → WellFormed loaded

structure HandOverInv (s : Life) : Prop where
  daemons : ∀ d x, s.daemons.lookup d = some x → DaemonOk x ∧ d < s.forked
  /-- The disk holds some well-formed state: the last flusher's, unless it has changed since. -/
  disk : ∃ state, WellFormed state ∧ OnDisk s.storage state ∧
    ∀ d, s.lastFlusher = some d → ∃ x, s.daemons.lookup d = some x ∧ x.state.isSome = true ∧
      (x.dirty = false → x.state = some state)
  /-- A daemon has loaded only if its predecessor has. -/
  chain : ∀ d y, s.daemons.lookup (d + 1) = some y → y.loadedAs.isSome = true →
    ∃ x, s.daemons.lookup d = some x ∧ x.state.isSome = true
  handed : HandedOver s

theorem handOverInv_init (shmName : String) : HandOverInv (Life.init shmName) := by
  have hnone : ∀ d, (Life.init shmName).daemons.lookup d = none := fun d => Finmap.lookup_empty d
  constructor
  · intro d x hx
    rw [hnone] at hx
    cases hx
  · refine ⟨{ nextId := 1, fuseMap := ∅, pathTree := PathTree.new, shmName,
              abiVersion := SUPPORTED_ABI_VERSION }, ⟨⟨⊥, PathTree.rep_new⟩, rfl⟩,
      ⟨.sorted, rfl, rfl⟩, fun d hd => ?_⟩
    cases hd
  · intro d y hy
    rw [hnone] at hy
    cases hy
  · intro d x y state loaded hx
    rw [hnone] at hx
    cases hx

theorem daemonOk_new : DaemonOk Daemon.new where
  forked _ := ⟨rfl, rfl⟩
  both := rfl
  wf _ h := by cases h
  wfLoaded _ h := by cases h

/-- A fork adds a daemon that has not loaded yet. -/
theorem handOverInv_fork {s s' : Life} (h : HandOverInv s) (hstorage : s'.storage = s.storage)
    (hlast : s'.lastFlusher = s.lastFlusher) (hforked : s'.forked = s.forked + 1)
    (hdaemons : s'.daemons = s.daemons.insert s.forked Daemon.new) : HandOverInv s' := by
  have hold : ∀ d x, s'.daemons.lookup d = some x →
      (d = s.forked ∧ x = Daemon.new) ∨ s.daemons.lookup d = some x := by
    intro d x hx
    rw [hdaemons, lookup_insert_ite] at hx
    split at hx
    · next hd => exact Or.inl ⟨hd, (Option.some.inj hx).symm⟩
    · exact Or.inr hx
  have hkeep : ∀ d x, s.daemons.lookup d = some x → s'.daemons.lookup d = some x := by
    intro d x hx
    have hlt := (h.daemons d x hx).2
    rw [hdaemons, Finmap.lookup_insert_of_ne _ (by omega)]
    exact hx
  constructor
  · intro d x hx
    rw [hforked]
    rcases hold d x hx with ⟨hd, rfl⟩ | hx
    · exact ⟨daemonOk_new, by omega⟩
    · have hok := h.daemons d x hx
      exact ⟨hok.1, by omega⟩
  · obtain ⟨state, hwf, hdisk, hflusher⟩ := h.disk
    refine ⟨state, hwf, by rw [hstorage]; exact hdisk, fun d hd => ?_⟩
    rw [hlast] at hd
    obtain ⟨x, hx, hx'⟩ := hflusher d hd
    exact ⟨x, hkeep d x hx, hx'⟩
  · intro d y hy hloaded
    rcases hold (d + 1) y hy with ⟨-, rfl⟩ | hy
    · cases hloaded
    · obtain ⟨x, hx, hx'⟩ := h.chain d y hy hloaded
      exact ⟨x, hkeep d x hx, hx'⟩
  · intro d x y state loaded hx hstate hy hloaded
    rcases hold d x hx with ⟨-, rfl⟩ | hx
    · cases hstate
    · rcases hold (d + 1) y hy with ⟨-, rfl⟩ | hy
      · cases hloaded
      · exact h.handed d x y state loaded hx hstate hy hloaded

/-! ## §4. One step of a daemon. -/

section DaemonStep

variable {s s' : Life} {d : ℕ} {x x' : Daemon}
  (h : HandOverInv s) (hx : s.daemons.lookup d = some x)
  (hdaemons : s'.daemons = s.daemons.insert d x')

include hdaemons in
theorem lookup_after (e : ℕ) :
    s'.daemons.lookup e = if e = d then some x' else s.daemons.lookup e := by
  rw [hdaemons, lookup_insert_ite]

include hx hdaemons in
/-- Seen from outside, a step that keeps `state` and `loadedAs` of its daemon keeps those of all. -/
theorem before_of_after (hst : x'.state = x.state) (hld : x'.loadedAs = x.loadedAs) {e : ℕ}
    {y : Daemon} (hy : s'.daemons.lookup e = some y) :
    ∃ z, s.daemons.lookup e = some z ∧ y.state = z.state ∧ y.loadedAs = z.loadedAs := by
  rw [lookup_after hdaemons] at hy
  split at hy
  · next he =>
    cases hy
    exact ⟨x, by rw [he]; exact hx, hst, hld⟩
  · exact ⟨y, hy, rfl, rfl⟩

include h hx hdaemons in
/-- What the successor loaded and the predecessors' states only matter up to these two fields. -/
theorem handed_of_same (hst : x'.state = x.state) (hld : x'.loadedAs = x.loadedAs) :
    HandedOver s' := by
  intro e y z state loaded hy hstate hz hloaded
  obtain ⟨y₀, hy₀, hys, -⟩ := before_of_after hx hdaemons hst hld hy
  obtain ⟨z₀, hz₀, -, hzl⟩ := before_of_after hx hdaemons hst hld hz
  exact h.handed e y₀ z₀ state loaded hy₀ (hys ▸ hstate) hz₀ (hzl ▸ hloaded)

include h hx hdaemons in
theorem chain_of_same (hst : x'.state.isSome = x.state.isSome)
    (hld : x'.loadedAs = x.loadedAs) (e : ℕ) (y : Daemon)
    (hy : s'.daemons.lookup (e + 1) = some y) (hloaded : y.loadedAs.isSome = true) :
    ∃ z, s'.daemons.lookup e = some z ∧ z.state.isSome = true := by
  have hbefore : ∃ y₀, s.daemons.lookup (e + 1) = some y₀ ∧ y₀.loadedAs.isSome = true := by
    rw [lookup_after hdaemons] at hy
    split at hy
    · next he =>
      cases hy
      exact ⟨x, by rw [he]; exact hx, by rw [← hld]; exact hloaded⟩
    · exact ⟨y, hy, hloaded⟩
  obtain ⟨y₀, hy₀, hl₀⟩ := hbefore
  obtain ⟨z, hz, hzs⟩ := h.chain e y₀ hy₀ hl₀
  rw [lookup_after hdaemons]
  by_cases he : e = d
  · rw [if_pos he]
    rw [he, hx] at hz
    cases hz
    exact ⟨x', rfl, hst.trans hzs⟩
  · rw [if_neg he]
    exact ⟨z, hz, hzs⟩

include h hdaemons in
theorem daemonsOk_after (hforked : s'.forked = s.forked) (hd : d < s.forked) (hok : DaemonOk x') :
    ∀ e y, s'.daemons.lookup e = some y → DaemonOk y ∧ e < s'.forked := by
  intro e y hy
  rw [lookup_after hdaemons] at hy
  rw [hforked]
  split at hy
  · next he =>
    cases hy
    exact ⟨hok, by omega⟩
  · exact h.daemons e y hy

include h hx hdaemons in
/-- The disk is not written, and the daemon is no cleaner than before. -/
theorem disk_of_same (hmeta : s'.storage.metadataBin = s.storage.metadataBin)
    (hdata : s'.storage.dataBin = s.storage.dataBin) (hlast : s'.lastFlusher = s.lastFlusher)
    (hst : x.state.isSome = true → x'.state.isSome = true)
    (hclean : x'.dirty = false → x.state.isSome = true → x.dirty = false ∧ x'.state = x.state) :
    ∃ state, WellFormed state ∧ OnDisk s'.storage state ∧
      ∀ e, s'.lastFlusher = some e → ∃ y, s'.daemons.lookup e = some y ∧
        y.state.isSome = true ∧ (y.dirty = false → y.state = some state) := by
  obtain ⟨state, hwf, ⟨order, hm, hd⟩, hflusher⟩ := h.disk
  refine ⟨state, hwf, ⟨order, by rw [hmeta]; exact hm, by rw [hdata]; exact hd⟩, fun e he => ?_⟩
  rw [hlast] at he
  obtain ⟨y, hy, hys, hyc⟩ := hflusher e he
  rw [lookup_after hdaemons]
  by_cases hed : e = d
  · rw [if_pos hed]
    rw [hed, hx] at hy
    cases hy
    refine ⟨x', rfl, hst hys, fun hc => ?_⟩
    obtain ⟨hxc, hxs⟩ := hclean hc hys
    rw [hxs]
    exact hyc hxc
  · rw [if_neg hed]
    exact ⟨y, hy, hys, hyc⟩

include hdaemons in
/-- The daemon has just flushed. -/
theorem disk_of_flush {state : ServerState} (hwf : WellFormed state)
    (hdisk : OnDisk s'.storage state) (hlast : s'.lastFlusher = some d)
    (hst : x'.state = some state) :
    ∃ state, WellFormed state ∧ OnDisk s'.storage state ∧
      ∀ e, s'.lastFlusher = some e → ∃ y, s'.daemons.lookup e = some y ∧
        y.state.isSome = true ∧ (y.dirty = false → y.state = some state) := by
  refine ⟨state, hwf, hdisk, fun e he => ?_⟩
  rw [hlast] at he
  cases he
  refine ⟨x', ?_, by rw [hst]; rfl, fun _ => hst⟩
  rw [lookup_after hdaemons, if_pos rfl]

end DaemonStep

/-- A daemon loads: first of all, or what its predecessor flushed last. -/
theorem handOverInv_loads {s s' : Life} {d : ℕ} {x x' : Daemon} {order : IterOrder FsPath}
    {loaded : ServerState} (h : HandOverInv s) (hx : s.daemons.lookup d = some x)
    (hguard : LoadsLatest s (.daemon d (.load order))) (hphase : x.phase = .forked)
    (hload : buildServerState s.storage order = .ok loaded)
    (hx' : x' = { x with phase := .loaded, state := some loaded, loadedAs := some loaded })
    (hs' : s' = { s with daemons := s.daemons.insert d x' }) : HandOverInv s' := by
  have hdaemons : s'.daemons = s.daemons.insert d x' := by rw [hs']
  obtain ⟨hok, hlt⟩ := h.daemons d x hx
  obtain ⟨hnone, hclean⟩ := hok.forked hphase
  obtain ⟨disk, hwfd, hdisk, hflusher⟩ := h.disk
  have hwf : WellFormed loaded := (load_onDisk hwfd hdisk hload).1
  have hok' : DaemonOk x' := by
    subst hx'
    refine ⟨fun hf => (by cases hf), rfl, fun state he => ?_, fun state he => ?_⟩
    · cases he; exact hwf
    · cases he; exact hwf
  -- the successor of `d` cannot have loaded before it
  have hsucc : ∀ y, s.daemons.lookup (d + 1) = some y → y.loadedAs = none := by
    intro y hy
    cases hl : y.loadedAs with
    | none => rfl
    | some l =>
      obtain ⟨z, hz, hzs⟩ := h.chain d y hy (by rw [hl]; rfl)
      rw [hx] at hz
      cases hz
      rw [hnone] at hzs
      cases hzs
  constructor
  · exact daemonsOk_after h hdaemons (by rw [hs']) hlt hok'
  · refine disk_of_same h hx hdaemons (by rw [hs']) (by rw [hs']) (by rw [hs']) ?_ ?_
    · intro _
      rw [hx']
      rfl
    · intro _ hsome
      rw [hnone] at hsome
      cases hsome
  · intro e y hy hl
    rw [lookup_after hdaemons] at hy
    split at hy
    · next he =>
      -- `d` itself has a predecessor, which flushed last
      subst he
      obtain ⟨z, hz, hzs, -⟩ := hflusher e hguard.1
      refine ⟨z, ?_, hzs⟩
      rw [lookup_after hdaemons, if_neg (by omega)]
      exact hz
    · obtain ⟨z, hz, hzs⟩ := h.chain e y hy hl
      rw [lookup_after hdaemons]
      by_cases he : e = d
      · rw [if_pos he]
        exact ⟨x', rfl, by rw [hx']; rfl⟩
      · rw [if_neg he]
        exact ⟨z, hz, hzs⟩
  · intro e y z state l hy hstate hz hl
    rw [lookup_after hdaemons] at hy hz
    by_cases he1 : e + 1 = d
    · rw [if_pos he1] at hz
      rw [if_neg (by omega)] at hy
      cases hz
      subst he1
      rw [hx'] at hl
      cases hl
      obtain ⟨w, hw, -, hwc⟩ := hflusher e hguard.1
      rw [hy] at hw
      cases hw
      have hdirty : y.dirty = false := by
        have hall := hguard.2
        rw [hy] at hall
        simpa using hall
      have hsame : some state = some disk := hstate.symm.trans (hwc hdirty)
      cases hsame
      exact (load_onDisk hwfd hdisk hload).2
    · rw [if_neg he1] at hz
      by_cases he : e = d
      · rw [he] at hz
        rw [hsucc z hz] at hl
        cases hl
      · rw [if_neg he] at hy
        exact h.handed e y z state l hy hstate hz hl

/-- A daemon answers a request. -/
theorem handOverInv_answers {s s' : Life} {d : ℕ} {x x' : Daemon} {env : DispatchEnv}
    {req : Request} {state : ServerState} (h : HandOverInv s)
    (hx : s.daemons.lookup d = some x) (hguard : LoadsLatest s (.daemon d (.request env req)))
    (hstate : x.state = some state) (hio : env.flushIo = .ok)
    (hx' : x' = { x with
      state := some (dispatch env ⟨state, s.storage⟩ req).2.state
      dirty := if req = .flush then false else x.dirty || mutating req })
    (hs' : s' = { s with
      storage := (dispatch env ⟨state, s.storage⟩ req).2.storage
      lastFlusher := if req = .flush then some d else s.lastFlusher
      daemons := s.daemons.insert d x' }) : HandOverInv s' := by
  have hdaemons : s'.daemons = s.daemons.insert d x' := by rw [hs']
  have hld : x'.loadedAs = x.loadedAs := by rw [hx']
  have hsome : x'.state.isSome = x.state.isSome := by
    rw [hx', hstate]
    rfl
  obtain ⟨hok, hlt⟩ := h.daemons d x hx
  have hwf : WellFormed state := hok.wf state hstate
  have hok' : DaemonOk x' := by
    refine ⟨fun hf => ?_, by rw [hsome, hld]; exact hok.both, fun st he => ?_, fun st he => ?_⟩
    · have hnone := (hok.forked (by rw [hx'] at hf; exact hf)).1
      rw [hstate] at hnone
      cases hnone
    · rw [hx'] at he
      cases he
      exact wellFormed_dispatch env (s := ⟨state, s.storage⟩) hwf req
    · rw [hld] at he
      exact hok.wfLoaded st he
  have hsame : mutating req = false → x'.state = x.state := by
    intro hm
    rw [hx', hstate]
    exact congrArg some (dispatch_state_of_not_mutating env ⟨state, s.storage⟩ hm)
  constructor
  · exact daemonsOk_after h hdaemons (by rw [hs']) hlt hok'
  · by_cases hreq : req = .flush
    · have hstate' : x'.state = some state := (hsame (by rw [hreq]; rfl)).trans hstate
      refine disk_of_flush hdaemons hwf ?_ (by rw [hs']; exact if_pos hreq) hstate'
      rw [hs', hreq]
      refine ⟨env.order, ?_, ?_⟩
      · show (Server.flushRequest _ env.flushIo env.order).2.storage.metadataBin = _
        rw [hio]
        rfl
      · show (Server.flushRequest _ env.flushIo env.order).2.storage.dataBin = _
        rw [hio]
        rfl
    · have hframe := frames_dispatch env ⟨state, s.storage⟩ hreq
      refine disk_of_same h hx hdaemons (by rw [hs']; exact hframe.metadataBin)
        (by rw [hs']; exact hframe.dataBin) (by rw [hs']; exact if_neg hreq)
        (fun hs => by rw [hsome]; exact hs) fun hc _ => ?_
      have hc' : (x.dirty || mutating req) = false := by
        rw [hx'] at hc
        exact (if_neg hreq).symm.trans hc
      rw [Bool.or_eq_false_iff] at hc'
      exact ⟨hc'.1, hsame hc'.2⟩
  · exact chain_of_same h hx hdaemons hsome hld
  · cases hm : mutating req with
    | false => exact handed_of_same h hx hdaemons (hsame hm) hld
    | true =>
      -- a change: no successor has loaded
      intro e y z st l hy hst hz hl
      have hsucc : ∀ z, s.daemons.lookup (d + 1) = some z → z.loadedAs = none := by
        intro z hz
        have hg : mutating req = true →
            (s.daemons.lookup (d + 1)).all (fun y => y.loadedAs.isNone) = true := by
          cases d <;> exact hguard
        have hall := hg hm
        rw [hz] at hall
        simpa using hall
      have hz₀ : ∃ z₀, s.daemons.lookup (e + 1) = some z₀ ∧ z.loadedAs = z₀.loadedAs := by
        rw [lookup_after hdaemons] at hz
        split at hz
        · next he => cases hz; exact ⟨x, by rw [he]; exact hx, hld⟩
        · exact ⟨z, hz, rfl⟩
      obtain ⟨z₀, hz₀, hzl⟩ := hz₀
      rw [lookup_after hdaemons] at hy
      by_cases he : e = d
      · rw [he] at hz₀
        rw [hzl, hsucc z₀ hz₀] at hl
        cases hl
      · rw [if_neg he] at hy
        exact h.handed e y z₀ st l hy hst hz₀ (hzl ▸ hl)

/-- **One step.** -/
theorem handOverInv_step {s s' : Life} {act : LifeAct} (h : HandOverInv s)
    (hguard : LoadsLatest s act) (hstep : lifeStep s act = some s') : HandOverInv s' := by
  rcases lifeStep_cases hstep with ⟨p, pact, rfl, hp⟩ | ⟨d, dact, x, r, x', rfl, hx, heff, rfl⟩
  · obtain ⟨hstorage, hlast, ⟨hd, hf⟩ | ⟨rfl, -, hforked, hdaemons⟩⟩ := procStep_spec hp
    · obtain ⟨h1, h2, h3, h4⟩ := h
      constructor
      · rw [hd, hf]; exact h1
      · rw [hstorage, hlast, hd]; exact h2
      · rw [hd]; exact h3
      · unfold HandedOver
        rw [hd]
        exact h4
    · exact handOverInv_fork h hstorage hlast hforked hdaemons
  · obtain ⟨hok, hlt⟩ := h.daemons d x hx
    cases heff with
    | loads hphase hload hx' => exact handOverInv_loads h hx hguard hphase hload hx' rfl
    | answers hstate hio hs hx' =>
      refine handOverInv_answers h hx hguard hstate hio hx' ?_
      rw [hs]
    | flushes hstate hdisk hlast hx' hrest hphase =>
      obtain ⟨hst, hld, hclean⟩ := hx'
      have hwf := hok.wf _ hstate
      constructor
      · refine daemonsOk_after h rfl hrest.2 hlt ⟨fun hf => ?_, ?_, ?_, ?_⟩
        · rw [hf] at hphase
          cases hphase
        · rw [hst, hld]; exact hok.both
        · rw [hst]; exact hok.wf
        · rw [hld]; exact hok.wfLoaded
      · refine disk_of_flush rfl hwf ?_ hlast (hst.trans hstate)
        show OnDisk r.storage _
        rw [hdisk]
        exact onDisk_flush _ _ _
      · exact chain_of_same h hx rfl (by rw [hst]) hld
      · exact handed_of_same h hx rfl hst hld
    | idles hdisk hx' hrest hforked hphase =>
      obtain ⟨hst, hld, hdirty⟩ := hx'
      constructor
      · refine daemonsOk_after h rfl hrest.2 hlt ⟨fun hf => ?_, ?_, ?_, ?_⟩
        · rw [hst, hdirty]; exact hok.forked (hforked hf)
        · rw [hst, hld]; exact hok.both
        · rw [hst]; exact hok.wf
        · rw [hld]; exact hok.wfLoaded
      · refine disk_of_same h hx rfl ?_ ?_ hdisk.2 ?_ ?_
        · show r.storage.metadataBin = _
          rw [hdisk.1]
        · show r.storage.dataBin = _
          rw [hdisk.1]
        · rw [hst]; exact id
        · rw [hdirty]; exact fun hc _ => ⟨hc, hst⟩
      · exact chain_of_same h hx rfl (by rw [hst]) hld
      · exact handed_of_same h hx rfl hst hld

/-- **Session hand-over.** In every run that meets the condition, what each daemon loaded is, at
every moment from its load on, the state of the daemon started before it. -/
theorem handedOver_run (shmName : String) (acts : List LifeAct)
    (h : StepsMeet lifeStep LoadsLatest (Life.init shmName) acts) :
    AlwaysOn lifeStep HandedOver (Life.init shmName) acts := by
  have hinv : AlwaysOn lifeStep HandOverInv (Life.init shmName) acts :=
    steps_of_guarded (fun s act s' hI hC hs => handOverInv_step hI hC hs)
      (handOverInv_init shmName) h
  intro pre hpre t ht
  exact (hinv pre hpre t ht).handed

/-- A session that creates a directory and whose daemon stops, then a second session. -/
theorem handedOver_two_sessions :
    AlwaysOn lifeStep HandedOver (Life.init "")
      (startUp 0 0 ++ firstRequest 0 (.putDir [.a] .zero) ++ shutDown 0 0
        ++ [.daemon 0 (.finalFlush .sorted), .daemon 0 .exit] ++ startUp 1 1) :=
  handedOver_run "" _ (by decide)

/-- A session that creates a directory and ends; no connection follows, so its daemon does not
poll and never flushes.  The next session loads a state without the directory. -/
theorem not_handedOver_next_session :
    let acts := startUp 0 0 ++ firstRequest 0 (.putDir [.a] .zero)
      ++ [.proc 0 .leave, .proc 1 .enter, .daemon 1 (.load .sorted)]
    (run lifeStep (Life.init "") acts).map (fun s =>
        (((s.daemons.lookup 0).bind (·.state)).map (·.fuseMap.lookup [.a]),
          ((s.daemons.lookup 1).bind (·.loadedAs)).map (·.fuseMap.lookup [.a])))
      = some (some (some (.ofDir .zero)), some none)
    ∧ ¬ AlwaysOn lifeStep HandedOver (Life.init "") acts := by
  refine ⟨by decide, fun h => ?_⟩
  have hsame := h _ List.prefix_rfl _ rfl 0 _ _ _ _ rfl rfl rfl rfl
  have hlookup := congrArg (fun m : FuseMap => m.lookup [Name.a]) hsame.fuseMap
  exact absurd hlookup (by decide)

end Cas.Cli
