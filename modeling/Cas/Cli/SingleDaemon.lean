/-
  Cas.Cli.SingleDaemon — how many daemons are live at a time.

  A process forks a daemon when it finds the running count at 0; a daemon
  stops when a poll finds it at 0, and it polls only after an accepted
  connection.  Between the last `leave` and the poll a new `enter` finds
  0 as well, and two daemons are live.  When every `enter` that finds 0
  comes after the shutdown decision of every earlier daemon, at most one
  is.
-/
import Cas.Cli.Lifecycle

namespace Cas.Cli

open Cas.Lib Cas.Syncing

/-- No two daemons have both finished loading without having decided to stop. -/
def AtMostOneLive (s : Life) : Prop :=
  ∀ d e x y, s.daemons.lookup d = some x → s.daemons.lookup e = some y →
    x.phase.live = true → y.phase.live = true → d = e

/-- The condition on one step: a process that finds the count at 0 enters after every daemon
forked so far has taken its shutdown decision. -/
def EntersAfterShutdown (s : Life) : LifeAct → Prop
  | .proc _ .enter => s.runningCount = 0 →
      ∀ d ∈ s.daemons.keys, (s.daemons.lookup d).any (·.phase.down) = true
  | _ => True

instance (s : Life) : ∀ act, Decidable (EntersAfterShutdown s act)
  | .proc _ .enter => inferInstanceAs (Decidable (_ → _))
  | .proc _ .commit | .proc _ .giveUp | .proc _ .observe | .proc _ .leave | .proc _ .rollback =>
    isTrue trivial
  | .daemon _ _ => isTrue trivial

/-- At most one daemon is still to take its decision; the next id is unused. -/
structure SoleDaemon (s : Life) : Prop where
  fresh : s.daemons.lookup s.forked = none
  bounded : ∀ d x, s.daemons.lookup d = some x → d < s.forked
  sole : ∀ d e x y, s.daemons.lookup d = some x → s.daemons.lookup e = some y →
    x.phase.down = false → y.phase.down = false → d = e

theorem soleDaemon_init (shmName : String) : SoleDaemon (Life.init shmName) where
  fresh := Finmap.lookup_empty _
  bounded d x h := by
    rw [show (Life.init shmName).daemons.lookup d = none from Finmap.lookup_empty _] at h
    cases h
  sole d e x y h := by
    rw [show (Life.init shmName).daemons.lookup d = none from Finmap.lookup_empty _] at h
    cases h

theorem not_down_of_live {phase : DaemonPhase} (h : phase.live = true) : phase.down = false := by
  cases phase <;> first | rfl | cases h

theorem SoleDaemon.atMostOneLive {s : Life} (h : SoleDaemon s) : AtMostOneLive s := by
  intro d e x y hx hy hlx hly
  exact h.sole d e x y hx hy (not_down_of_live hlx) (not_down_of_live hly)

/-- A fork, when every daemon so far is down. -/
theorem soleDaemon_fork {s s' : Life} (h : SoleDaemon s)
    (hdown : ∀ d x, s.daemons.lookup d = some x → x.phase.down = true)
    (hforked : s'.forked = s.forked + 1)
    (hdaemons : s'.daemons = s.daemons.insert s.forked Daemon.new) : SoleDaemon s' := by
  have hold : ∀ d x, s'.daemons.lookup d = some x → d = s.forked ∨ s.daemons.lookup d = some x := by
    intro d x hx
    rw [hdaemons, lookup_insert_ite] at hx
    split at hx
    · next hd => exact Or.inl hd
    · exact Or.inr hx
  have hbounded : ∀ d x, s'.daemons.lookup d = some x → d < s'.forked := by
    intro d x hx
    rw [hforked]
    rcases hold d x hx with hd | hx
    · omega
    · have := h.bounded d x hx
      omega
  refine ⟨?_, hbounded, ?_⟩
  · cases hx : s'.daemons.lookup s'.forked with
    | none => rfl
    | some x => exact absurd (hbounded _ x hx) (lt_irrefl _)
  · intro d e x y hx hy hnx hny
    rcases hold d x hx with hd | hx
    · rcases hold e y hy with he | hy
      · rw [hd, he]
      · rw [hdown e y hy] at hny
        cases hny
    · rw [hdown d x hx] at hnx
      cases hnx

/-- A step of a daemon, which may take its decision but never takes it back. -/
theorem soleDaemon_daemon {s s' : Life} (h : SoleDaemon s) {d : ℕ} {x x' : Daemon}
    (hx : s.daemons.lookup d = some x) (hdown : x.phase.down = true → x'.phase.down = true)
    (hforked : s'.forked = s.forked) (hdaemons : s'.daemons = s.daemons.insert d x') :
    SoleDaemon s' := by
  have hold : ∀ e y, s'.daemons.lookup e = some y →
      ∃ z, s.daemons.lookup e = some z ∧ (y.phase.down = false → z.phase.down = false) := by
    intro e y hy
    rw [hdaemons, lookup_insert_ite] at hy
    split at hy
    · next he =>
      cases hy
      refine ⟨x, by rw [he]; exact hx, fun hn => ?_⟩
      cases hz : x.phase.down with
      | false => rfl
      | true => rw [hdown hz] at hn; cases hn
    · exact ⟨y, hy, id⟩
  have hbounded : ∀ e y, s'.daemons.lookup e = some y → e < s'.forked := by
    intro e y hy
    obtain ⟨z, hz, -⟩ := hold e y hy
    rw [hforked]
    exact h.bounded e z hz
  refine ⟨?_, hbounded, ?_⟩
  · cases hy : s'.daemons.lookup s'.forked with
    | none => rfl
    | some y => exact absurd (hbounded _ y hy) (lt_irrefl _)
  · intro e f y z hy hz hny hnz
    obtain ⟨y₀, hy₀, hdy⟩ := hold e y hy
    obtain ⟨z₀, hz₀, hdz⟩ := hold f z hz
    exact h.sole e f y₀ z₀ hy₀ hz₀ (hdy hny) (hdz hnz)

/-- **One step.** -/
theorem soleDaemon_step {s s' : Life} {act : LifeAct} (h : SoleDaemon s)
    (hguard : EntersAfterShutdown s act) (hstep : lifeStep s act = some s') : SoleDaemon s' := by
  rcases lifeStep_cases hstep with ⟨p, pact, rfl, hp⟩ | ⟨d, dact, x, r, x', rfl, hx, heff, rfl⟩
  · obtain ⟨-, -, hsame | ⟨rfl, h0, hforked, hdaemons⟩⟩ := procStep_spec hp
    · constructor
      · rw [hsame.1, hsame.2]; exact h.fresh
      · rw [hsame.1, hsame.2]; exact h.bounded
      · rw [hsame.1]; exact h.sole
    · refine soleDaemon_fork h (fun d x hx => ?_) hforked hdaemons
      have hkey : d ∈ s.daemons.keys := Finmap.mem_keys.mpr (Finmap.mem_iff.mpr ⟨x, hx⟩)
      have hany := hguard h0 d hkey
      rw [hx] at hany
      exact hany
  · exact soleDaemon_daemon h hx heff.down heff.rest.2 rfl

/-- **At most one daemon.** In every run in which each `enter` that finds the count at 0 comes
after every earlier daemon's decision, at most one daemon is live at a time. -/
theorem atMostOneLive_run (shmName : String) (acts : List LifeAct)
    (h : StepsMeet lifeStep EntersAfterShutdown (Life.init shmName) acts) :
    AlwaysOn lifeStep AtMostOneLive (Life.init shmName) acts := by
  have hsole : AlwaysOn lifeStep SoleDaemon (Life.init shmName) acts :=
    steps_of_guarded (fun s act s' hI hC hs => soleDaemon_step hI hC hs)
      (soleDaemon_init shmName) h
  intro pre hpre t ht
  exact (hsole pre hpre t ht).atMostOneLive

/-- One session whose daemon stops, then a second one. -/
theorem atMostOneLive_two_sessions :
    AlwaysOn lifeStep AtMostOneLive (Life.init "") (startUp 0 0 ++ shutDown 0 0 ++ startUp 1 1) :=
  atMostOneLive_run "" _ (by decide)

/-- One session after the other: the first process leaves before its daemon has polled, so the
second finds the count at 0 and starts another daemon. -/
theorem two_daemons_live :
    let acts := startUp 0 0 ++ [.proc 0 .leave, .proc 1 .enter, .daemon 1 (.load .sorted)]
    (run lifeStep (Life.init "") acts).map
        (fun s => ((s.daemons.lookup 0).map (·.phase), (s.daemons.lookup 1).map (·.phase)))
      = some (some .serving, some .loaded)
    ∧ ¬ AlwaysOn lifeStep AtMostOneLive (Life.init "") acts := by
  refine ⟨by decide, fun h => ?_⟩
  have hsame : (0 : ℕ) = 1 := h _ List.prefix_rfl _ rfl 0 1 _ _ rfl rfl rfl rfl
  cases hsame

end Cas.Cli
