/-
  Cas.Cli.Successor — what a stopping daemon does to the next one.

  A daemon that decides to stop flushes and removes the socket path under
  the mutex, and both again right before it exits, without the mutex.  A
  process that enters in between starts a daemon, and the second cleanup
  hits that daemon's files and socket.  When every load comes after the
  last cleanup of every earlier daemon (`LoadsAfterCleanup`), no daemon
  disturbs a newer one, and while `socket_ready` is 1 the socket path is
  the newest daemon's.
-/
import Cas.Cli.Lifecycle

namespace Cas.Cli

open Cas.Lib Cas.Syncing

/-! ## §1. The properties. -/

/-- The steps of a daemon that write the state files or remove the socket path; `bind` removes
what is in its way. -/
def Disturbs (s : Life) : DaemonAct → Prop
  | .bind | .finalFlush _ => True
  | .poll early _ => early = false ∧ s.runningCount = 0
  | .request _ req => req = .flush
  | _ => False

/-- A newer daemon than `d` has loaded its state. -/
def Superseded (s : Life) (d : ℕ) : Prop :=
  ∃ e < s.forked, d < e ∧ (s.daemons.lookup e).any (·.loadedAs.isSome) = true

instance (s : Life) (d : ℕ) : Decidable (Superseded s d) :=
  inferInstanceAs (Decidable (∃ e < s.forked, _))

/-- The step, when it can be taken, is not one of an older daemon that disturbs a newer one. -/
def OlderQuiet (s : Life) (act : LifeAct) : Prop :=
  ∀ d dact s', act = .daemon d dact → lifeStep s act = some s' → Disturbs s dact → ¬ Superseded s d

/-- While `socket_ready` is 1 the socket path is bound by the daemon started last. -/
def SocketCurrent (s : Life) : Prop :=
  s.socketReady = true → ∃ d, s.forked = d + 1 ∧ s.socketOwner = some d

/-! ## §2. What one step does to the socket. -/

/-- A daemon that can no longer disturb anyone: it is past its last cleanup, or no connection is
pending or can be made. -/
def Harmless (s : Life) (e : ℕ) (x : Daemon) : Prop :=
  x.phase = .flushed ∨ x.phase = .exited ∨
    ((x.phase = .bound ∨ x.phase = .serving) ∧ x.backlog = 0 ∧ x.pollDue = false ∧
      s.socketOwner ≠ some e)

instance (s : Life) (e : ℕ) (x : Daemon) : Decidable (Harmless s e x) :=
  inferInstanceAs (Decidable (_ ∨ _ ∨ _))

/-- What a step of a process does to the mutex, the flag and the daemons. -/
inductive ProcEffect (s : Life) (p : ℕ) (s' : Life) : Prop
  | forks (hmutex : s.mutex = none)
      (hs : s'.mutex = some p ∧ s'.socketReady = false ∧ s'.socketOwner = s.socketOwner ∧
        s'.forked = s.forked + 1)
      (hdaemons : s'.daemons = s.daemons.insert s.forked Daemon.new)
      (hprocs : s'.procs = s.procs.insert p (.starting s.forked))
  | unlocks (d : ℕ) (hp : s.procs.lookup p = some (.starting d))
      (hprocs : ∀ q e, s'.procs.lookup q = some (.starting e) →
        q ≠ p ∧ s.procs.lookup q = some (.starting e))
      (hready : s'.socketReady = true →
        s.socketReady = true ∨ (s.daemons.lookup d).any (·.phase.readySent) = true)
      (hs : s'.socketOwner = s.socketOwner ∧ s'.forked = s.forked ∧ s'.daemons = s.daemons)
  | rests (hmutex : s'.mutex = s.mutex)
      (hprocs : ∀ q e, s'.procs.lookup q = some (.starting e) →
        s.procs.lookup q = some (.starting e))
      (hready : s'.socketReady = s.socketReady)
      (hs : s'.socketOwner = s.socketOwner ∧ s'.forked = s.forked ∧ s'.daemons = s.daemons)

/-- A process that is not starting a daemon after its step was not before, unless it is another. -/
theorem starting_insert {procs : FMap ℕ ProcPhase} {p : ℕ} {phase : ProcPhase}
    (hphase : ∀ e, phase ≠ .starting e) (q e : ℕ)
    (h : (procs.insert p phase).lookup q = some (.starting e)) :
    q ≠ p ∧ procs.lookup q = some (.starting e) := by
  rw [lookup_insert_ite] at h
  split at h
  · exact absurd (Option.some.inj h) (hphase e)
  · next hq => exact ⟨hq, h⟩

theorem starting_erase {procs : FMap ℕ ProcPhase} {p : ℕ} (q e : ℕ)
    (h : (procs.erase p).lookup q = some (.starting e)) :
    procs.lookup q = some (.starting e) := by
  rw [lookup_erase_ite] at h
  split at h
  · cases h
  · exact h

theorem procStep_effect {s s' : Life} {p : ℕ} {act : ProcAct} (h : procStep s p act = some s') :
    ProcEffect s p s' := by
  cases act with
  | enter =>
    simp only [procStep] at h
    split at h
    · next hc =>
      cases h
      unfold Life.enter
      by_cases h0 : s.runningCount = 0
      · rw [if_pos h0]
        exact .forks hc.1 ⟨rfl, rfl, rfl, rfl⟩ rfl rfl
      · rw [if_neg h0]
        exact .rests rfl (fun q e hq => (starting_insert (by simp) q e hq).2) rfl ⟨rfl, rfl, rfl⟩
    · cases h
  | commit =>
    simp only [procStep] at h
    split at h
    · next d hp =>
      split at h
      · next hready =>
        cases h
        exact .unlocks d hp (starting_insert (by simp)) (fun _ => Or.inr hready) ⟨rfl, rfl, rfl⟩
      · cases h
    · cases h
  | giveUp =>
    simp only [procStep] at h
    split at h
    · next d hp =>
      cases h
      exact .unlocks d hp (starting_insert (by simp)) Or.inl ⟨rfl, rfl, rfl⟩
    · cases h
  | observe =>
    simp only [procStep] at h
    split at h
    · cases h
      exact .rests rfl (fun q e hq => (starting_insert (by simp) q e hq).2) rfl ⟨rfl, rfl, rfl⟩
    · cases h
  | leave | rollback =>
    simp only [procStep] at h
    split at h
    · cases h
      exact .rests rfl starting_erase rfl ⟨rfl, rfl, rfl⟩
    · cases h

/-- What a step of a daemon does to the socket path, the flag and its own phase. -/
inductive SocketEffect (s : Life) (d : ℕ) (x : Daemon) : DaemonAct → Life → Daemon → Prop
  | loads {order s' x'} (hphase : x.phase = .forked)
      (hs : s'.socketOwner = s.socketOwner ∧ s'.socketReady = s.socketReady)
      (hx : x'.phase = .loaded ∨ x'.phase = .exited) : SocketEffect s d x (.load order) s' x'
  | binds {s' x'} (hphase : x.phase = .loaded) (hs : s'.socketOwner = some d)
      (hready : s'.socketReady = s.socketReady) (hx : x'.phase = .bound) :
      SocketEffect s d x .bind s' x'
  | runs {act s' x'} (hact : Disturbs s act → ∃ env, act = .request env .flush)
      (hs : s'.socketOwner = s.socketOwner ∧ s'.socketReady = s.socketReady)
      (hphase : x'.phase = x.phase ∨ (x.phase = .bound ∧ x'.phase = .serving))
      (hloaded : x'.loadedAs = x.loadedAs)
      (hidle : s.socketOwner ≠ some d → x.backlog = 0 → x.pollDue = false →
        x'.backlog = 0 ∧ x'.pollDue = false) : SocketEffect s d x act s' x'
  | decides {order s' x'} (hphase : x.phase = .serving) (hdue : x.pollDue = true)
      (hmutex : s.mutex = none) (hs : s'.socketOwner = none ∧ s'.socketReady = false)
      (hx : x'.phase = .decided) : SocketEffect s d x (.poll false order) s' x'
  | finishes {order s' x'} (hphase : x.phase = .decided)
      (hs : s'.socketOwner = none ∧ s'.socketReady = s.socketReady) (hx : x'.phase = .flushed) :
      SocketEffect s d x (.finalFlush order) s' x'
  | exits {s' x'} (hphase : x.phase = .flushed)
      (hs : s'.socketOwner = s.socketOwner ∧ s'.socketReady = s.socketReady)
      (hx : x'.phase = .exited) : SocketEffect s d x .exit s' x'

theorem daemonStep_socket {s s' : Life} {d : ℕ} {x x' : Daemon} {act : DaemonAct}
    (h : daemonStep s d x act = some (s', x')) :
    SocketEffect s d x act s' x' ∧ s'.procs = s.procs ∧ s'.mutex = s.mutex := by
  cases act with
  | load order =>
    simp only [daemonStep] at h
    split at h
    · next hphase =>
      split at h <;> cases h
      · exact ⟨.loads hphase ⟨rfl, rfl⟩ (Or.inl rfl), rfl, rfl⟩
      · exact ⟨.loads hphase ⟨rfl, rfl⟩ (Or.inr rfl), rfl, rfl⟩
    · cases h
  | bind =>
    simp only [daemonStep] at h
    split at h
    · next hphase => cases h; exact ⟨.binds hphase rfl rfl rfl, rfl, rfl⟩
    · cases h
  | ready =>
    simp only [daemonStep] at h
    split at h
    · next hphase =>
      cases h
      exact ⟨.runs False.elim ⟨rfl, rfl⟩ (Or.inr ⟨hphase, rfl⟩) rfl fun _ hb hp => ⟨hb, hp⟩, rfl, rfl⟩
    · cases h
  | connect =>
    simp only [daemonStep] at h
    split at h
    · next howner =>
      cases h
      exact ⟨.runs False.elim ⟨rfl, rfl⟩ (Or.inl rfl) rfl fun hne => absurd howner hne, rfl, rfl⟩
    · cases h
  | accept =>
    simp only [daemonStep] at h
    split at h
    · next hc =>
      cases h
      refine ⟨.runs False.elim ⟨rfl, rfl⟩ (Or.inl rfl) rfl fun _ hb => ?_, rfl, rfl⟩
      have := hc.2.1
      omega
    · cases h
  | poll early order =>
    simp only [daemonStep] at h
    split at h
    · next hc =>
      split at h
      · next hearly =>
        cases h
        refine ⟨.runs (fun hd => ?_) ⟨rfl, rfl⟩ (Or.inl rfl) rfl fun _ hb _ => ⟨hb, rfl⟩, rfl, rfl⟩
        rw [hearly] at hd
        cases hd.1
      · next hearly =>
        split at h
        · next hmutex =>
          split at h
          · obtain ⟨state, -, he⟩ := Option.map_eq_some_iff.mp h
            cases he
            obtain rfl : early = false := by simpa using hearly
            exact ⟨.decides hc.1 hc.2 hmutex ⟨rfl, rfl⟩ rfl, rfl, rfl⟩
          · next hcount =>
            cases h
            exact ⟨.runs (fun hd => absurd hd.2 hcount) ⟨rfl, rfl⟩ (Or.inl rfl) rfl
              fun _ hb _ => ⟨hb, rfl⟩, rfl, rfl⟩
        · cases h
    · cases h
  | request env req =>
    simp only [daemonStep] at h
    split at h
    · obtain ⟨state, -, he⟩ := Option.map_eq_some_iff.mp h
      cases he
      exact ⟨.runs (fun hd => ⟨env, congrArg _ hd⟩) ⟨rfl, rfl⟩ (Or.inl rfl) rfl
        fun _ hb hp => ⟨hb, hp⟩, rfl, rfl⟩
    · cases h
  | finalFlush order =>
    simp only [daemonStep] at h
    split at h
    · next hphase =>
      obtain ⟨state, -, he⟩ := Option.map_eq_some_iff.mp h
      cases he
      exact ⟨.finishes hphase ⟨rfl, rfl⟩ rfl, rfl, rfl⟩
    · cases h
  | exit =>
    simp only [daemonStep] at h
    split at h
    · next hphase => cases h; exact ⟨.exits hphase ⟨rfl, rfl⟩ rfl, rfl, rfl⟩
    · cases h

/-! ## §3. The condition and the invariant. -/

/-- The condition on one step.  A daemon loads when every older daemon is harmless; and no client
asks a superseded daemon to flush. -/
def LoadsAfterCleanup (s : Life) : LifeAct → Prop
  | .daemon d (.load _) =>
    ∀ e < d, (s.daemons.lookup e).all (fun x => decide (Harmless s e x)) = true
  | .daemon d (.request _ req) => req = .flush → ¬ Superseded s d
  | _ => True

instance (s : Life) : ∀ act, Decidable (LoadsAfterCleanup s act)
  | .daemon d (.load _) => inferInstanceAs (Decidable (∀ e < d, _))
  | .daemon _ (.request _ _) => inferInstanceAs (Decidable (_ → _))
  | .daemon _ .bind | .daemon _ .ready | .daemon _ .connect | .daemon _ .accept
  | .daemon _ (.poll _ _) | .daemon _ (.finalFlush _) | .daemon _ .exit => isTrue trivial
  | .proc _ _ => isTrue trivial

structure SuccessorInv (s : Life) : Prop where
  bounded : ∀ d x, s.daemons.lookup d = some x → d < s.forked
  unloaded : ∀ d x, s.daemons.lookup d = some x → x.phase = .forked → x.loadedAs = none
  /-- Once a daemon has gone on from its fork, the older ones are harmless. -/
  older : ∀ d e x y, s.daemons.lookup d = some y → y.phase ≠ .forked → e < d →
    s.daemons.lookup e = some x → Harmless s e x
  /-- The newest of the daemons that have gone on has the socket path. -/
  owner : ∀ d x, s.daemons.lookup d = some x → x.phase = .bound ∨ x.phase = .serving →
    (∀ e y, d < e → s.daemons.lookup e = some y → y.phase = .forked) → s.socketOwner = some d
  starting : ∀ p d, s.procs.lookup p = some (.starting d) → s.mutex = some p ∧
    s.forked = d + 1 ∧ ∀ x, s.daemons.lookup d = some x → x.phase ≠ .decided ∧ x.phase ≠ .flushed
  ready : s.socketReady = true →
    ∃ d x, s.forked = d + 1 ∧ s.daemons.lookup d = some x ∧ x.phase = .serving

theorem successorInv_init (shmName : String) : SuccessorInv (Life.init shmName) := by
  have hnone : ∀ d, (Life.init shmName).daemons.lookup d = none := fun d => Finmap.lookup_empty d
  have hprocs : ∀ p, (Life.init shmName).procs.lookup p = none := fun p => Finmap.lookup_empty p
  constructor
  · intro d x hx
    rw [hnone] at hx
    cases hx
  · intro d x hx
    rw [hnone] at hx
    cases hx
  · intro d e x y hy
    rw [hnone] at hy
    cases hy
  · intro d x hx
    rw [hnone] at hx
    cases hx
  · intro p d hp
    rw [hprocs] at hp
    cases hp
  · nofun

theorem SuccessorInv.socketCurrent {s : Life} (h : SuccessorInv s) : SocketCurrent s := by
  intro hready
  obtain ⟨d, x, hforked, hx, hserving⟩ := h.ready hready
  refine ⟨d, hforked, h.owner d x hx (Or.inr hserving) fun e y he hy => ?_⟩
  -- no daemon is newer
  have := h.bounded e y hy
  omega

/-- The phases in which a daemon is not harmless. -/
theorem Harmless.not_active {s : Life} {d : ℕ} {x : Daemon} (h : Harmless s d x) :
    x.phase ≠ .loaded ∧ x.phase ≠ .decided ∧ (x.phase = .serving → x.pollDue = false) := by
  rcases h with h | h | ⟨h, -, hdue, -⟩
  · rw [h]
    simp
  · rw [h]
    simp
  · rcases h with h | h <;> rw [h] <;> simp [hdue]

theorem SuccessorInv.olderQuiet {s : Life} {act : LifeAct} (h : SuccessorInv s)
    (hguard : LoadsAfterCleanup s act) : OlderQuiet s act := by
  rintro d dact s' rfl hstep hd hsup
  obtain ⟨x, hx, hr⟩ := Option.bind_eq_some_iff.mp hstep
  obtain ⟨⟨r, x'⟩, hdstep, -⟩ := Option.map_eq_some_iff.mp hr
  obtain ⟨e, -, hde, hloaded⟩ := hsup
  obtain ⟨y, hy, hyl⟩ := (Option.any_eq_true _ _).mp hloaded
  have hphase : y.phase ≠ .forked := by
    intro hf
    rw [h.unloaded e y hy hf] at hyl
    cases hyl
  obtain ⟨hnl, hnd, hidle⟩ := (h.older e d x y hy hphase hde hx).not_active
  cases (daemonStep_socket hdstep).1 with
  | loads hphase hs hx => exact hd
  | binds hphase hs hready hx => exact hnl hphase
  | runs hact hs hphase hl hi =>
    obtain ⟨env, rfl⟩ := hact hd
    exact hguard rfl ⟨e, h.bounded e y hy, hde, hloaded⟩
  | decides hphase hdue hmutex hs hx =>
    rw [hidle hphase] at hdue
    cases hdue
  | finishes hphase hs hx => exact hnd hphase
  | exits hphase hs hx => exact hd

/-! ## §4. One step. -/

theorem successorInv_proc {s s' : Life} {p : ℕ} (h : SuccessorInv s) (heff : ProcEffect s p s') :
    SuccessorInv s' := by
  cases heff with
  | forks hmutex hs hdaemons hprocs =>
    obtain ⟨hm, hready, howner, hforked⟩ := hs
    have hold : ∀ d x, s'.daemons.lookup d = some x →
        (d = s.forked ∧ x = Daemon.new) ∨ s.daemons.lookup d = some x := by
      intro d x hx
      rw [hdaemons, lookup_insert_ite] at hx
      split at hx
      · next hd => exact Or.inl ⟨hd, (Option.some.inj hx).symm⟩
      · exact Or.inr hx
    have hkeep : ∀ d x, s.daemons.lookup d = some x → s'.daemons.lookup d = some x := by
      intro d x hx
      have := h.bounded d x hx
      rw [hdaemons, Finmap.lookup_insert_of_ne _ (by omega)]
      exact hx
    constructor
    · intro d x hx
      rw [hforked]
      rcases hold d x hx with ⟨hd, -⟩ | hx
      · omega
      · have := h.bounded d x hx
        omega
    · intro d x hx hphase
      rcases hold d x hx with ⟨-, rfl⟩ | hx
      · rfl
      · exact h.unloaded d x hx hphase
    · intro d e x y hy hphase hed hx
      rcases hold d y hy with ⟨-, rfl⟩ | hy
      · exact absurd rfl hphase
      · have hd := h.bounded d y hy
        rcases hold e x hx with ⟨he, -⟩ | hx
        · omega
        · have hharm := h.older d e x y hy hphase hed hx
          unfold Harmless at hharm ⊢
          rw [howner]
          exact hharm
    · intro d x hx hphase hnewer
      rw [howner]
      rcases hold d x hx with ⟨-, rfl⟩ | hx
      · rcases hphase with hphase | hphase <;> cases hphase
      · exact h.owner d x hx hphase fun e y he hy => hnewer e y he (hkeep e y hy)
    · intro q d hq
      rw [hprocs, lookup_insert_ite] at hq
      split at hq
      · next hqp =>
        cases hq
        refine ⟨by rw [hm, hqp], hforked, fun x hx => ?_⟩
        rcases hold _ x hx with ⟨-, rfl⟩ | hx
        · exact ⟨nofun, nofun⟩
        · exact absurd (h.bounded _ x hx) (lt_irrefl _)
      · have hqm := (h.starting q d hq).1
        rw [hmutex] at hqm
        cases hqm
    · intro hr
      rw [hready] at hr
      cases hr
  | unlocks d hp hprocs hready hs =>
    obtain ⟨howner, hforked, hdaemons⟩ := hs
    obtain ⟨hpm, hlast, hphase⟩ := h.starting p d hp
    constructor
    · rw [hdaemons, hforked]
      exact h.bounded
    · rw [hdaemons]
      exact h.unloaded
    · rw [hdaemons]
      unfold Harmless
      rw [howner]
      exact h.older
    · rw [hdaemons, howner]
      exact h.owner
    · intro q e hq
      obtain ⟨hqp, hq⟩ := hprocs q e hq
      have hqm := (h.starting q e hq).1
      rw [hpm] at hqm
      exact absurd (Option.some.inj hqm).symm hqp
    · intro hr
      rw [hforked, hdaemons]
      rcases hready hr with hr | hsent
      · exact h.ready hr
      · -- the daemon that was started last has sent its byte and cannot have stopped
        obtain ⟨x, hx, hxs⟩ := (Option.any_eq_true _ _).mp hsent
        obtain ⟨hnd, hnf⟩ := hphase x hx
        refine ⟨d, x, hlast, hx, ?_⟩
        cases hx' : x.phase <;> rw [hx'] at hxs hnd hnf <;>
          first | exact absurd rfl hnd | exact absurd rfl hnf | rfl | cases hxs
  | rests hmutex hprocs hready hs =>
    obtain ⟨howner, hforked, hdaemons⟩ := hs
    constructor
    · rw [hdaemons, hforked]
      exact h.bounded
    · rw [hdaemons]
      exact h.unloaded
    · rw [hdaemons]
      unfold Harmless
      rw [howner]
      exact h.older
    · rw [hdaemons, howner]
      exact h.owner
    · intro q e hq
      rw [hmutex, hforked, hdaemons]
      exact h.starting q e (hprocs q e hq)
    · rw [hready, hforked, hdaemons]
      exact h.ready

section DaemonStep

variable {s s' : Life} {d : ℕ} {x x' : Daemon} {act : DaemonAct}
  (heff : SocketEffect s d x act s' x')

include heff

theorem SocketEffect.withDaemons (daemons : FMap ℕ Daemon) :
    SocketEffect s d x act { s' with daemons } x' := by
  cases heff with
  | loads hphase hs hx => exact .loads hphase hs hx
  | binds hphase hs hready hx => exact .binds hphase hs hready hx
  | runs hact hs hphase hl hi => exact .runs hact hs hphase hl hi
  | decides hphase hdue hmutex hs hx => exact .decides hphase hdue hmutex hs hx
  | finishes hphase hs hx => exact .finishes hphase hs hx
  | exits hphase hs hx => exact .exits hphase hs hx

/-- Where the socket path leads after the step. -/
theorem SocketEffect.owner : s'.socketOwner = s.socketOwner ∨
    (x.phase = .loaded ∧ x'.phase = .bound ∧ s'.socketOwner = some d) ∨
    ((x.phase = .decided ∨ (x.phase = .serving ∧ x.pollDue = true)) ∧
      (x'.phase = .decided ∨ x'.phase = .flushed) ∧ s'.socketOwner = none) := by
  cases heff with
  | loads hphase hs hx => exact Or.inl hs.1
  | binds hphase hs hready hx => exact Or.inr (Or.inl ⟨hphase, hx, hs⟩)
  | runs hact hs hphase hl hi => exact Or.inl hs.1
  | decides hphase hdue hmutex hs hx =>
    exact Or.inr (Or.inr ⟨Or.inr ⟨hphase, hdue⟩, Or.inl hx, hs.1⟩)
  | finishes hphase hs hx => exact Or.inr (Or.inr ⟨Or.inl hphase, Or.inr hx, hs.1⟩)
  | exits hphase hs hx => exact Or.inl hs.1

/-- No daemon goes back to its fork. -/
theorem SocketEffect.forked (h : x'.phase = .forked) :
    x.phase = .forked ∧ x'.loadedAs = x.loadedAs := by
  cases heff with
  | loads hphase hs hx => rcases hx with hx | hx <;> rw [hx] at h <;> cases h
  | binds hphase hs hready hx | decides hphase hdue hmutex hs hx | finishes hphase hs hx
  | exits hphase hs hx =>
    rw [hx] at h
    cases h
  | runs hact hs hphase hl hi =>
    rcases hphase with hphase | ⟨-, hphase⟩
    · exact ⟨hphase.symm.trans h, hl⟩
    · rw [hphase] at h
      cases h

/-- A step of another daemon leaves a harmless one harmless. -/
theorem SocketEffect.harmless_other {e : ℕ} (he : e ≠ d) {y : Daemon} (hy : Harmless s e y) :
    Harmless s' e y := by
  rcases hy with hy | hy | ⟨hphase, hback, hdue, howner⟩
  · exact Or.inl hy
  · exact Or.inr (Or.inl hy)
  · refine Or.inr (Or.inr ⟨hphase, hback, hdue, ?_⟩)
    rcases heff.owner with h | ⟨-, -, h⟩ | ⟨-, -, h⟩
    · rw [h]
      exact howner
    · rw [h]
      exact fun hc => he (Option.some.inj hc).symm
    · rw [h]
      exact nofun

/-- A harmless daemon stays harmless. -/
theorem SocketEffect.harmless_self (h : Harmless s d x) : Harmless s' d x' := by
  obtain ⟨hnl, hnd, hidle⟩ := h.not_active
  cases heff with
  | loads hphase hs hx => rcases h with h | h | ⟨h | h, -⟩ <;> rw [hphase] at h <;> cases h
  | binds hphase hs hready hx => exact absurd hphase hnl
  | decides hphase hdue hmutex hs hx =>
    rw [hidle hphase] at hdue
    cases hdue
  | finishes hphase hs hx => exact absurd hphase hnd
  | exits hphase hs hx => exact Or.inr (Or.inl hx)
  | runs hact hs hphase hl hi =>
    rcases h with h | h | ⟨hx, hback, hdue, howner⟩
    · rcases hphase with hphase | ⟨hphase, -⟩
      · exact Or.inl (hphase.trans h)
      · rw [hphase] at h
        cases h
    · rcases hphase with hphase | ⟨hphase, -⟩
      · exact Or.inr (Or.inl (hphase.trans h))
      · rw [hphase] at h
        cases h
    · refine Or.inr (Or.inr ⟨?_, (hi howner hback hdue).1, (hi howner hback hdue).2, ?_⟩)
      · rcases hphase with hphase | ⟨-, hphase⟩
        · rw [hphase]
          exact hx
        · exact Or.inr hphase
      · rw [hs.1]
        exact howner

/-- Only a poll that gets the mutex takes the decision, and only then the second cleanup comes. -/
theorem SocketEffect.stopped (h : x'.phase = .decided ∨ x'.phase = .flushed) :
    x.phase = .decided ∨ x.phase = .flushed ∨ s.mutex = none := by
  cases heff with
  | loads hphase hs hx => rcases hx with hx | hx <;> rw [hx] at h <;> rcases h with h | h <;> cases h
  | binds hphase hs hready hx => rw [hx] at h; rcases h with h | h <;> cases h
  | decides hphase hdue hmutex hs hx => exact Or.inr (Or.inr hmutex)
  | finishes hphase hs hx => exact Or.inl hphase
  | exits hphase hs hx => rw [hx] at h; rcases h with h | h <;> cases h
  | runs hact hs hphase hl hi =>
    rcases hphase with hphase | ⟨-, hphase⟩
    · rw [hphase] at h
      exact h.imp_right Or.inl
    · rw [hphase] at h
      rcases h with h | h <;> cases h

/-- While the flag stays up, a daemon that serves goes on serving. -/
theorem SocketEffect.serving (hready : s'.socketReady = true) :
    s.socketReady = true ∧ (x.phase = .serving → x'.phase = .serving) := by
  cases heff with
  | loads hphase hs hx =>
    refine ⟨hs.2 ▸ hready, fun h => ?_⟩
    rw [hphase] at h
    cases h
  | binds hphase hs hsame hx =>
    refine ⟨hsame ▸ hready, fun h => ?_⟩
    rw [hphase] at h
    cases h
  | decides hphase hdue hmutex hs hx =>
    rw [hs.2] at hready
    cases hready
  | finishes hphase hs hx =>
    refine ⟨hs.2 ▸ hready, fun h => ?_⟩
    rw [hphase] at h
    cases h
  | exits hphase hs hx =>
    refine ⟨hs.2 ▸ hready, fun h => ?_⟩
    rw [hphase] at h
    cases h
  | runs hact hs hphase hl hi =>
    refine ⟨hs.2 ▸ hready, fun h => ?_⟩
    rcases hphase with hphase | ⟨-, hphase⟩
    · exact hphase.trans h
    · exact hphase

omit heff in
/-- The condition on a load, or the invariant: once the daemon has gone on, the older ones are
harmless. -/
theorem older_harmless (h : SuccessorInv s) (hx : s.daemons.lookup d = some x)
    (heff : SocketEffect s d x act s' x') (hguard : LoadsAfterCleanup s (.daemon d act))
    (hphase : x'.phase ≠ .forked) {e : ℕ} (he : e < d) {y : Daemon}
    (hy : s.daemons.lookup e = some y) : Harmless s e y := by
  by_cases hf : x.phase = .forked
  · cases heff with
    | loads _ hs hx' =>
      have hall := hguard e he
      rw [hy] at hall
      exact of_decide_eq_true hall
    | binds hp hs hready hx' | decides hp hdue hmutex hs hx' | finishes hp hs hx'
    | exits hp hs hx' =>
      rw [hf] at hp
      cases hp
    | runs hact hs hp hl hi =>
      rcases hp with hp | ⟨hp, -⟩
      · exact absurd (hp.trans hf) hphase
      · rw [hf] at hp
        cases hp
  · exact h.older d e y x hx hf he hy

omit heff in
/-- The daemon itself, when no newer one has gone on. -/
theorem owner_self (h : SuccessorInv s) (hx : s.daemons.lookup d = some x)
    (heff : SocketEffect s d x act s' x') (hphase : x'.phase = .bound ∨ x'.phase = .serving)
    (hnewer : ∀ e y, d < e → s.daemons.lookup e = some y → y.phase = .forked) :
    s'.socketOwner = some d := by
  cases heff with
  | loads hp hs hx' =>
    rcases hx' with hx' | hx' <;> rw [hx'] at hphase <;> rcases hphase with hc | hc <;> cases hc
  | binds hp hs hready hx' => exact hs
  | decides hp hdue hmutex hs hx' | finishes hp hs hx' | exits hp hs hx' =>
    rw [hx'] at hphase
    rcases hphase with hc | hc <;> cases hc
  | runs hact hs hp hl hi =>
    rw [hs.1]
    refine h.owner d x hx ?_ hnewer
    rcases hp with hp | ⟨hp, -⟩
    · rw [← hp]
      exact hphase
    · exact Or.inl hp

omit heff in
theorem successorInv_daemon (h : SuccessorInv s) (hx : s.daemons.lookup d = some x)
    (heff : SocketEffect s d x act s' x') (hguard : LoadsAfterCleanup s (.daemon d act))
    (hprocs : s'.procs = s.procs) (hmutex : s'.mutex = s.mutex) (hforked : s'.forked = s.forked)
    (hdaemons : s'.daemons = s.daemons.insert d x') : SuccessorInv s' := by
  have hself : s'.daemons.lookup d = some x' := by
    rw [hdaemons]
    exact Finmap.lookup_insert _
  have hother : ∀ e, e ≠ d → s'.daemons.lookup e = s.daemons.lookup e := by
    intro e he
    rw [hdaemons]
    exact Finmap.lookup_insert_of_ne _ he
  constructor
  · intro e y hy
    rw [hforked]
    by_cases he : e = d
    · rw [he]
      exact h.bounded d x hx
    · rw [hother e he] at hy
      exact h.bounded e y hy
  · intro e y hy hphase
    by_cases he : e = d
    · rw [he, hself] at hy
      cases hy
      obtain ⟨hf, hl⟩ := heff.forked hphase
      rw [hl]
      exact h.unloaded d x hx hf
    · rw [hother e he] at hy
      exact h.unloaded e y hy hphase
  · intro a b y z hz hphase hba hy
    by_cases hb : b = d
    · rw [hb, hself] at hy
      cases hy
      rw [hother a (by omega)] at hz
      rw [hb]
      exact heff.harmless_self (h.older a d x z hz hphase (by omega) hx)
    · rw [hother b hb] at hy
      apply heff.harmless_other hb
      by_cases ha : a = d
      · rw [ha, hself] at hz
        cases hz
        exact older_harmless h hx heff hguard hphase (by omega) hy
      · rw [hother a ha] at hz
        exact h.older a b y z hz hphase hba hy
  · intro a y hy hphase hnewer
    by_cases ha : a = d
    · rw [ha, hself] at hy
      cases hy
      rw [ha]
      exact owner_self h hx heff hphase fun e z he hz =>
        hnewer e z (by omega) ((hother e (by omega)).trans hz)
    · rw [hother a ha] at hy
      have howner : s.socketOwner = some a := by
        apply h.owner a y hy hphase
        intro e z he hz
        by_cases hed : e = d
        · rw [hed, hx] at hz
          cases hz
          exact (heff.forked (hnewer d x' (hed ▸ he) hself)).1
        · exact hnewer e z he ((hother e hed).trans hz)
      -- a newer daemon would have gone on, an older one is harmless
      have hside : x'.phase = .forked ∨ Harmless s d x := by
        rcases Nat.lt_or_gt_of_ne ha with hlt | hgt
        · exact Or.inl (hnewer d x' hlt hself)
        · refine Or.inr (h.older a d x y hy ?_ hgt hx)
          rcases hphase with hphase | hphase <;> rw [hphase] <;> nofun
      rcases heff.owner with hsame | ⟨hp, hp', -⟩ | ⟨hp, hp', -⟩
      · rw [hsame]
        exact howner
      · rcases hside with hf | hharm
        · rw [hp'] at hf
          cases hf
        · exact absurd hp hharm.not_active.1
      · rcases hside with hf | hharm
        · rcases hp' with hp' | hp' <;> rw [hp'] at hf <;> cases hf
        · obtain ⟨-, hnd, hidle⟩ := hharm.not_active
          rcases hp with hp | ⟨hp, hdue⟩
          · exact absurd hp hnd
          · rw [hidle hp] at hdue
            cases hdue
  · intro p a hp
    rw [hprocs] at hp
    obtain ⟨hm, hlast, hdown⟩ := h.starting p a hp
    refine ⟨hmutex.trans hm, hforked.trans hlast, fun y hy => ?_⟩
    by_cases ha : a = d
    · rw [ha, hself] at hy
      cases hy
      obtain ⟨hnd, hnf⟩ := hdown x (ha ▸ hx)
      have hnot : ¬ (x'.phase = .decided ∨ x'.phase = .flushed) := by
        intro hs
        -- the mutex is held, so no poll can take the decision
        rcases heff.stopped hs with hd | hf | hfree
        · exact hnd hd
        · exact hnf hf
        · rw [hm] at hfree
          cases hfree
      exact not_or.mp hnot
    · rw [hother a ha] at hy
      exact hdown y hy
  · intro hready
    obtain ⟨hr, hserve⟩ := heff.serving hready
    obtain ⟨a, y, hlast, hy, hphase⟩ := h.ready hr
    by_cases ha : a = d
    · rw [ha, hx] at hy
      cases hy
      exact ⟨d, x', by rw [hforked, hlast, ha], hself, hserve hphase⟩
    · exact ⟨a, y, hforked.trans hlast, (hother a ha).trans hy, hphase⟩

end DaemonStep

/-- **One step.** -/
theorem successorInv_step {s s' : Life} {act : LifeAct} (h : SuccessorInv s)
    (hguard : LoadsAfterCleanup s act) (hstep : lifeStep s act = some s') : SuccessorInv s' := by
  cases act with
  | proc p pact => exact successorInv_proc h (procStep_effect hstep)
  | daemon d dact =>
    obtain ⟨x, hx, hr⟩ := Option.bind_eq_some_iff.mp hstep
    obtain ⟨⟨r, x'⟩, hdstep, rfl⟩ := Option.map_eq_some_iff.mp hr
    obtain ⟨heff, hprocs, hmutex⟩ := daemonStep_socket hdstep
    obtain ⟨hdaemons, hforked⟩ := (daemonStep_effect hdstep).rest
    exact successorInv_daemon h hx (heff.withDaemons _) hguard hprocs hmutex hforked
      (congrArg (·.insert d x') hdaemons)

/-- **A stopping daemon leaves its successor alone.** In every run in which each load comes after
the last cleanup of every older daemon, no step of an older daemon writes the state files or
removes the socket path once a newer one has loaded, and while `socket_ready` is 1 the socket path
is bound by the daemon started last. -/
theorem successor_run (shmName : String) (acts : List LifeAct)
    (h : StepsMeet lifeStep LoadsAfterCleanup (Life.init shmName) acts) :
    StepsMeet lifeStep OlderQuiet (Life.init shmName) acts ∧
      AlwaysOn lifeStep SocketCurrent (Life.init shmName) acts := by
  have hstep : ∀ s act s', SuccessorInv s → LoadsAfterCleanup s act →
      lifeStep s act = some s' → SuccessorInv s' :=
    fun s act s' hI hC hs => successorInv_step hI hC hs
  refine ⟨StepsMeet.imp_of_guarded hstep (fun s act hI hC => hI.olderQuiet hC)
    (successorInv_init shmName) h,
    fun pre hpre t ht => ?_⟩
  exact (steps_of_guarded hstep (successorInv_init shmName) h pre hpre t ht).socketCurrent

/-- A first session ends and its daemon is past its second cleanup when the next one starts. -/
theorem successor_two_sessions :
    let acts := startUp 0 0 ++ shutDown 0 0 ++ [.daemon 0 (.finalFlush .sorted)] ++ startUp 1 1
    StepsMeet lifeStep OlderQuiet (Life.init "") acts ∧
      AlwaysOn lifeStep SocketCurrent (Life.init "") acts :=
  successor_run "" _ (by decide)

/-- The second session starts between the two cleanups of the first daemon: the second one writes
the state files and removes the socket of the daemon that is serving. -/
theorem not_successor_second_cleanup :
    ¬ ∀ (shmName : String) (acts : List LifeAct),
      StepsMeet lifeStep OlderQuiet (Life.init shmName) acts ∧
        AlwaysOn lifeStep SocketCurrent (Life.init shmName) acts := by
  intro h
  have hcurrent := (h "" (startUp 0 0 ++ shutDown 0 0 ++ startUp 1 1
    ++ [.daemon 0 (.finalFlush .sorted)])).2 _ List.prefix_rfl _ rfl rfl
  obtain ⟨d, -, howner⟩ := hcurrent
  cases howner

end Cas.Cli
