/-
  Cas.Cli.Stranded — sessions that wait for a daemon nobody starts.

  A process that finds the running count at 0 starts the daemon; the
  others wait for the ready flag.  When the start fails, the error path
  releases the mutex first and takes the mutex again to decrement the
  count.  A process that enters in between finds the count at 1, starts
  nothing, and waits without end.

  Main results:
    • `noneStranded_iff` — nobody is stranded exactly when no process
      enters while another has its failed start still counted.
-/
import Cas.Cli.Lifecycle

namespace Cas.Cli

open Cas.Lib Cas.Syncing

/-- A process waits only when the flag is set, or while another holds the mutex and starts a
daemon. -/
def NoneStranded (s : Life) : Prop :=
  ∀ p, s.procs.lookup p = some .waiting →
    s.socketReady = true ∨ ∃ q d, s.mutex = some q ∧ s.procs.lookup q = some (.starting d)

/-- The condition on one step: nobody who failed to start a daemon is still counted when a process
enters. -/
def EntersAfterRollback (s : Life) : LifeAct → Prop
  | .proc p .enter => s.mutex = none → s.procs.lookup p = none →
      ∀ q ∈ s.procs.keys, s.procs.lookup q ≠ some .rollback
  | _ => True

instance (s : Life) : ∀ act, Decidable (EntersAfterRollback s act)
  | .proc p .enter => inferInstanceAs (Decidable (s.mutex = none → s.procs.lookup p = none →
      ∀ q ∈ s.procs.keys, s.procs.lookup q ≠ some .rollback))
  | .proc _ .commit | .proc _ .giveUp | .proc _ .observe | .proc _ .leave | .proc _ .rollback =>
    isTrue trivial
  | .daemon _ _ => isTrue trivial

/-- The running count does not wrap. -/
def RoomToEnter (s : Life) : LifeAct → Prop
  | .proc _ .enter => s.runningCount.toNat + 1 < 2 ^ 32
  | _ => True

instance (s : Life) : ∀ act, Decidable (RoomToEnter s act)
  | .proc _ .enter => inferInstanceAs (Decidable (s.runningCount.toNat + 1 < 2 ^ 32))
  | .proc _ .commit | .proc _ .giveUp | .proc _ .observe | .proc _ .leave | .proc _ .rollback =>
    isTrue trivial
  | .daemon _ _ => isTrue trivial

/-! ## §1. The invariant. -/

/-- The count is the number of processes; one that starts a daemon holds the mutex and is alone;
the flag is set while anybody is inside, and not after a failed start. -/
structure Counted (s : Life) : Prop where
  count : s.runningCount.toNat = s.procs.keys.card
  mutex : ∀ p, s.mutex = some p → ∃ d, s.procs.lookup p = some (.starting d)
  starting : ∀ p d, s.procs.lookup p = some (.starting d) →
    s.mutex = some p ∧ s.socketReady = false ∧ ∀ q phase, s.procs.lookup q = some phase → q = p
  inside : ∀ p, s.procs.lookup p = some .inside → s.socketReady = true
  rollback : ∀ p, s.procs.lookup p = some .rollback → s.socketReady = false

theorem counted_init (shmName : String) : Counted (Life.init shmName) := by
  have hnone : ∀ p, (Life.init shmName).procs.lookup p = none := Finmap.lookup_empty
  refine ⟨rfl, nofun, ?_, ?_, ?_⟩
  · intro p d hp
    rw [hnone] at hp
    cases hp
  · intro p hp
    rw [hnone] at hp
    cases hp
  · intro p hp
    rw [hnone] at hp
    cases hp

theorem noneStranded_init (shmName : String) : NoneStranded (Life.init shmName) := by
  intro p hp
  rw [show (Life.init shmName).procs.lookup p = none from Finmap.lookup_empty p] at hp
  cases hp

section Steps

variable {s s' : Life} {p : ℕ}

theorem Counted.procs_empty (h : Counted s) (hzero : s.runningCount = 0) (q : ℕ) :
    s.procs.lookup q = none := by
  have hcard : s.procs.keys.card = 0 := by
    rw [← h.count, hzero]
    rfl
  rw [Finset.card_eq_zero] at hcard
  apply Finmap.lookup_eq_none.mpr
  rw [← Finmap.mem_keys, hcard]
  exact Finset.notMem_empty q

/-- With the mutex free nobody is starting a daemon. -/
theorem Counted.not_starting (h : Counted s) (hmutex : s.mutex = none) {q d : ℕ} :
    s.procs.lookup q ≠ some (.starting d) := by
  intro hq
  have hheld := (h.starting q d hq).1
  rw [hmutex] at hheld
  cases hheld

/-- With the mutex free whoever waits sees the flag. -/
theorem NoneStranded.ready (h : NoneStranded s) (hmutex : s.mutex = none) {q : ℕ}
    (hq : s.procs.lookup q = some .waiting) : s.socketReady = true := by
  obtain hready | ⟨r, d, hr, -⟩ := h q hq
  · exact hready
  · rw [hmutex] at hr
    cases hr

/-! ## §2. Entering. -/

theorem Counted.enter_first (h : Counted s) (hzero : s.runningCount = 0) :
    Counted (s.enter p) ∧ NoneStranded (s.enter p) := by
  have henter : s.enter p = { s with
      runningCount := s.runningCount + 1
      procs := s.procs.insert p (.starting s.forked)
      socketReady := false
      mutex := some p
      forked := s.forked + 1
      daemons := s.daemons.insert s.forked Daemon.new } := by
    unfold Life.enter
    rw [if_pos hzero]
    rfl
  have honly : ∀ q phase, (s.procs.insert p (.starting s.forked)).lookup q = some phase →
      q = p ∧ phase = .starting s.forked := by
    intro q phase hq
    rw [lookup_insert_ite] at hq
    split at hq
    · next heq => exact ⟨heq, (Option.some.inj hq).symm⟩
    · rw [h.procs_empty hzero q] at hq
      cases hq
  rw [henter]
  refine ⟨⟨?_, ?_, ?_, ?_, ?_⟩, ?_⟩
  · show (s.runningCount + 1).toNat = (s.procs.insert p _).keys.card
    have hcard := h.count
    have hfresh : p ∉ s.procs.keys := by
      rw [Finmap.mem_keys]
      exact Finmap.lookup_eq_none.mp (h.procs_empty hzero p)
    rw [keys_insert, Finset.card_insert_of_notMem hfresh, ← hcard, hzero]
    rfl
  · intro q hq
    obtain rfl : p = q := Option.some.inj hq
    exact ⟨s.forked, Finmap.lookup_insert _⟩
  · intro q d hq
    obtain ⟨rfl, -⟩ := honly q _ hq
    exact ⟨rfl, rfl, fun r phase hr => (honly r phase hr).1⟩
  · intro q hq
    cases (honly q _ hq).2
  · exact fun q hq => rfl
  · intro q hq
    cases (honly q _ hq).2

/-- A process that finds others waits with them. -/
theorem Counted.enter_next (h : Counted s) (hmutex : s.mutex = none)
    (hfresh : s.procs.lookup p = none) (hroom : s.runningCount.toNat + 1 < 2 ^ 32)
    (hcount : s.runningCount ≠ 0) :
    Counted (s.enter p) ∧ (s.enter p).procs = s.procs.insert p .waiting ∧
      (s.enter p).socketReady = s.socketReady ∧ (s.enter p).mutex = none := by
  have henter : s.enter p = { s with
      runningCount := s.runningCount + 1, procs := s.procs.insert p .waiting } := by
    unfold Life.enter
    rw [if_neg hcount]
    rfl
  have hold : ∀ q phase, (s.procs.insert p .waiting).lookup q = some phase →
      phase ≠ .waiting → s.procs.lookup q = some phase := by
    intro q phase hq hne
    rw [lookup_insert_ite] at hq
    split at hq
    · exact absurd (Option.some.inj hq).symm hne
    · exact hq
  rw [henter]
  refine ⟨⟨?_, ?_, ?_, ?_, ?_⟩, rfl, rfl, hmutex⟩
  · show (s.runningCount + 1).toNat = (s.procs.insert p _).keys.card
    have hnew : p ∉ s.procs.keys := by
      rw [Finmap.mem_keys]
      exact Finmap.lookup_eq_none.mp hfresh
    rw [keys_insert, Finset.card_insert_of_notMem hnew, ← h.count, UInt32.toNat_add]
    show (s.runningCount.toNat + 1) % 2 ^ 32 = _
    omega
  · intro q hq
    have hheld : s.mutex = some q := hq
    rw [hmutex] at hheld
    cases hheld
  · intro q d hq
    exact absurd (hold q _ hq nofun) (h.not_starting hmutex)
  · exact fun q hq => h.inside q (hold q _ hq nofun)
  · exact fun q hq => h.rollback q (hold q _ hq nofun)

/-- **enter** strands nobody exactly when no failed start is still counted. -/
theorem enter_strands_iff (h : Counted s) (hnone : NoneStranded s) (hmutex : s.mutex = none)
    (hfresh : s.procs.lookup p = none) (hroom : s.runningCount.toNat + 1 < 2 ^ 32) :
    (NoneStranded (s.enter p) ↔ ∀ q ∈ s.procs.keys, s.procs.lookup q ≠ some .rollback) ∧
      Counted (s.enter p) := by
  by_cases hzero : s.runningCount = 0
  · obtain ⟨hcounted, hstranded⟩ := h.enter_first (p := p) hzero
    refine ⟨iff_of_true hstranded fun q _ hq => ?_, hcounted⟩
    rw [h.procs_empty hzero q] at hq
    cases hq
  · obtain ⟨hcounted, hprocs, hready, hfree⟩ := h.enter_next hmutex hfresh hroom hzero
    refine ⟨⟨fun hafter q _ hq => ?_, fun hno => ?_⟩, hcounted⟩
    · -- the newcomer waits, and a failed start has left the flag unset
      have hwaits : (s.enter p).procs.lookup p = some .waiting := by
        rw [hprocs]
        exact Finmap.lookup_insert _
      have hset := hafter.ready hfree hwaits
      rw [hready, h.rollback q hq] at hset
      cases hset
    · -- somebody is there, and he sees the flag
      have hset : s.socketReady = true := by
        have hcard : 0 < s.procs.keys.card := by
          rw [← h.count, Nat.pos_iff_ne_zero]
          exact fun hc => hzero (UInt32.toNat_inj.mp hc)
        obtain ⟨q, hq⟩ := Finset.card_pos.mp hcard
        obtain ⟨phase, hphase⟩ := Finmap.mem_iff.mp (Finmap.mem_keys.mp hq)
        cases phase with
        | starting d => exact absurd hphase (h.not_starting hmutex)
        | waiting => exact hnone.ready hmutex hphase
        | inside => exact h.inside q hphase
        | rollback => exact absurd hphase (hno q hq)
      intro q _
      rw [hready]
      exact Or.inl hset

/-! ## §3. The other steps. -/

/-- A process goes from one phase to another. -/
theorem keys_setPhase {old : ProcPhase} (hp : s.procs.lookup p = some old) (phase : ProcPhase) :
    (s.procs.insert p phase).keys = s.procs.keys := by
  rw [keys_insert]
  exact Finset.insert_eq_of_mem (Finmap.mem_keys.mpr (Finmap.mem_of_lookup_eq_some hp))

/-- The start is over, well or badly, and its process is the only one. -/
theorem Counted.startEnds {d : ℕ} (h : Counted s) (hp : s.procs.lookup p = some (.starting d))
    {phase : ProcPhase} {ready : Bool} (hnext : phase = .waiting ∧ ready = true ∨
      phase = .rollback ∧ ready = s.socketReady) :
    let s' := { s with procs := s.procs.insert p phase, mutex := none, socketReady := ready }
    Counted s' ∧ NoneStranded s' := by
  obtain ⟨-, hready, halone⟩ := h.starting p d hp
  have honly : ∀ q phase', (s.procs.insert p phase).lookup q = some phase' → phase' = phase := by
    intro q phase' hq
    rw [lookup_insert_ite] at hq
    split at hq
    · exact (Option.some.inj hq).symm
    · next hne => exact absurd (halone q phase' hq) hne
  refine ⟨⟨?_, nofun, ?_, ?_, ?_⟩, ?_⟩
  · show s.runningCount.toNat = (s.procs.insert p phase).keys.card
    rw [keys_setPhase hp]
    exact h.count
  · intro q e hq
    obtain ⟨hphase, -⟩ | ⟨hphase, -⟩ := hnext <;> cases hphase ▸ honly q _ hq
  · intro q hq
    obtain ⟨hphase, -⟩ | ⟨hphase, -⟩ := hnext <;> cases hphase ▸ honly q _ hq
  · intro q hq
    obtain ⟨hphase, -⟩ | ⟨-, heq⟩ := hnext
    · cases hphase ▸ honly q _ hq
    · exact heq.trans hready
  · intro q hq
    obtain ⟨-, heq⟩ | ⟨hphase, -⟩ := hnext
    · exact Or.inl heq
    · cases hphase ▸ honly q _ hq

theorem Counted.observe (h : Counted s) (hmutex : s.mutex = none) (hready : s.socketReady = true)
    (hp : s.procs.lookup p = some .waiting) :
    Counted (s.setProc p .inside) ∧ NoneStranded (s.setProc p .inside) := by
  have hold : ∀ q phase, (s.procs.insert p .inside).lookup q = some phase → phase ≠ .inside →
      s.procs.lookup q = some phase := by
    intro q phase hq hne
    rw [lookup_insert_ite] at hq
    split at hq
    · exact absurd (Option.some.inj hq).symm hne
    · exact hq
  refine ⟨⟨?_, ?_, ?_, fun q hq => hready, ?_⟩, fun q hq => Or.inl hready⟩
  · show s.runningCount.toNat = (s.procs.insert p .inside).keys.card
    rw [keys_setPhase hp]
    exact h.count
  · intro q hq
    have hheld : s.mutex = some q := hq
    rw [hmutex] at hheld
    cases hheld
  · intro q d hq
    exact absurd (hold q _ hq nofun) (h.not_starting hmutex)
  · intro q hq
    exact h.rollback q (hold q _ hq nofun)

/-- A process takes itself out of the count. -/
theorem Counted.decrement {phase : ProcPhase} (h : Counted s) (hnone : NoneStranded s)
    (hmutex : s.mutex = none) (hp : s.procs.lookup p = some phase) :
    Counted (s.decrement p) ∧ NoneStranded (s.decrement p) := by
  have hold : ∀ q phase', (s.procs.erase p).lookup q = some phase' →
      s.procs.lookup q = some phase' := by
    intro q phase' hq
    rw [lookup_erase_ite] at hq
    split at hq
    · cases hq
    · exact hq
  refine ⟨⟨?_, ?_, ?_, fun q hq => h.inside q (hold q _ hq),
    fun q hq => h.rollback q (hold q _ hq)⟩, fun q hq => Or.inl (hnone.ready hmutex (hold q _ hq))⟩
  · show (s.runningCount - 1).toNat = (s.procs.erase p).keys.card
    have hmem : p ∈ s.procs.keys := Finmap.mem_keys.mpr (Finmap.mem_of_lookup_eq_some hp)
    have hpos := Finset.card_pos.mpr ⟨p, hmem⟩
    have hcount := h.count
    have hone : (1 : UInt32).toNat = 1 := rfl
    rw [Finmap.keys_erase, Finset.card_erase_of_mem hmem, UInt32.toNat_sub_of_le]
    · omega
    · rw [UInt32.le_iff_toNat_le]
      omega
  · intro q hq
    have hheld : s.mutex = some q := hq
    rw [hmutex] at hheld
    cases hheld
  · intro q d hq
    exact absurd (hold q _ hq) (h.not_starting hmutex)

/-- A daemon takes no part in the hand-over, except that one that stops clears the flag. -/
theorem daemonStep_shared {d : ℕ} {x x' : Daemon} {act : DaemonAct}
    (h : daemonStep s d x act = some (s', x')) :
    s'.runningCount = s.runningCount ∧ s'.procs = s.procs ∧ s'.mutex = s.mutex ∧
      (s'.socketReady = s.socketReady ∨ s.runningCount = 0) := by
  have hsame : s.runningCount = s.runningCount ∧ s.procs = s.procs ∧ s.mutex = s.mutex ∧
      (s.socketReady = s.socketReady ∨ s.runningCount = 0) := ⟨rfl, rfl, rfl, Or.inl rfl⟩
  cases act with
  | load order =>
    simp only [daemonStep] at h
    split at h
    · split at h <;> cases h <;> exact hsame
    · cases h
  | bind =>
    simp only [daemonStep] at h
    split at h <;> cases h
    exact hsame
  | ready =>
    simp only [daemonStep] at h
    split at h <;> cases h
    exact hsame
  | connect =>
    simp only [daemonStep] at h
    split at h <;> cases h
    exact hsame
  | accept =>
    simp only [daemonStep] at h
    split at h <;> cases h
    exact hsame
  | poll early order =>
    simp only [daemonStep] at h
    split at h
    · split at h
      · cases h; exact hsame
      · split at h
        · split at h
          · next hzero =>
            obtain ⟨state, -, he⟩ := Option.map_eq_some_iff.mp h
            cases he
            exact ⟨rfl, rfl, rfl, Or.inr hzero⟩
          · cases h; exact hsame
        · cases h
    · cases h
  | request env req =>
    simp only [daemonStep] at h
    split at h
    · obtain ⟨state, -, he⟩ := Option.map_eq_some_iff.mp h
      cases he
      exact hsame
    · cases h
  | finalFlush order =>
    simp only [daemonStep] at h
    split at h
    · obtain ⟨state, -, he⟩ := Option.map_eq_some_iff.mp h
      cases he
      exact hsame
    · cases h
  | exit =>
    simp only [daemonStep] at h
    split at h <;> cases h
    exact hsame

theorem Counted.daemon (h : Counted s) (hnone : NoneStranded s)
    (hcount : s'.runningCount = s.runningCount) (hprocs : s'.procs = s.procs)
    (hmutex : s'.mutex = s.mutex)
    (hready : s'.socketReady = s.socketReady ∨ s.runningCount = 0) :
    Counted s' ∧ NoneStranded s' := by
  -- the flag changes only when nobody is there
  have hflag : ∀ q phase, s.procs.lookup q = some phase → s'.socketReady = s.socketReady := by
    intro q phase hq
    obtain hready | hzero := hready
    · exact hready
    · rw [h.procs_empty hzero q] at hq
      cases hq
  refine ⟨⟨?_, ?_, ?_, ?_, ?_⟩, ?_⟩
  · rw [hcount, hprocs]
    exact h.count
  · rw [hmutex, hprocs]
    exact h.mutex
  · rw [hmutex, hprocs]
    intro q d hq
    rw [hflag q _ hq]
    exact h.starting q d hq
  · rw [hprocs]
    intro q hq
    rw [hflag q _ hq]
    exact h.inside q hq
  · rw [hprocs]
    intro q hq
    rw [hflag q _ hq]
    exact h.rollback q hq
  · intro q hq
    rw [hprocs] at hq
    rw [hprocs, hmutex, hflag q _ hq]
    exact hnone q hq

/-- Steps other than **enter** strand nobody. -/
theorem procStep_keeps {act : ProcAct} (h : Counted s) (hnone : NoneStranded s)
    (hact : act ≠ .enter) (hstep : procStep s p act = some s') : Counted s' ∧ NoneStranded s' := by
  cases act with
  | enter => exact absurd rfl hact
  | commit =>
    simp only [procStep] at hstep
    split at hstep
    · next d hp =>
      split at hstep <;> cases hstep
      exact h.startEnds hp (Or.inl ⟨rfl, rfl⟩)
    · cases hstep
  | giveUp =>
    simp only [procStep] at hstep
    split at hstep
    · next d hp =>
      cases hstep
      exact h.startEnds hp (Or.inr ⟨rfl, rfl⟩)
    · cases hstep
  | observe =>
    simp only [procStep] at hstep
    split at hstep
    · next hc =>
      cases hstep
      exact h.observe hc.2.1 hc.2.2 hc.1
    · cases hstep
  | leave =>
    simp only [procStep] at hstep
    split at hstep
    · next hc =>
      cases hstep
      exact h.decrement hnone hc.2 hc.1
    · cases hstep
  | rollback =>
    simp only [procStep] at hstep
    split at hstep
    · next hc =>
      cases hstep
      exact h.decrement hnone hc.2 hc.1
    · cases hstep

/-- **One step.** -/
theorem lifeStep_strands_iff {act : LifeAct} (h : Counted s) (hnone : NoneStranded s)
    (hroom : RoomToEnter s act) (hstep : lifeStep s act = some s') :
    (NoneStranded s' ↔ EntersAfterRollback s act) ∧ (NoneStranded s' → Counted s') := by
  cases act with
  | daemon d dact =>
    obtain ⟨x, -, hr⟩ := Option.bind_eq_some_iff.mp hstep
    obtain ⟨⟨r, x'⟩, hdaemon, rfl⟩ := Option.map_eq_some_iff.mp hr
    obtain ⟨hcount, hprocs, hmutex, hready⟩ := daemonStep_shared hdaemon
    have hkeeps : Counted { r with daemons := r.daemons.insert d x' } ∧
        NoneStranded { r with daemons := r.daemons.insert d x' } :=
      h.daemon hnone hcount hprocs hmutex hready
    exact ⟨iff_of_true hkeeps.2 trivial, fun _ => hkeeps.1⟩
  | proc p pact =>
    by_cases henter : pact = .enter
    · subst henter
      have hproc : procStep s p .enter = some s' := hstep
      simp only [procStep] at hproc
      split at hproc
      · next hc =>
        cases hproc
        obtain ⟨hiff, hcounted⟩ := enter_strands_iff h hnone hc.1 hc.2 hroom
        refine ⟨hiff.trans ⟨fun hno _ _ => hno, fun hno => hno hc.1 hc.2⟩, fun _ => hcounted⟩
      · cases hproc
    · obtain ⟨hcounted, hafter⟩ := procStep_keeps h hnone henter hstep
      refine ⟨iff_of_true hafter ?_, fun _ => hcounted⟩
      cases pact with
      | enter => exact absurd rfl henter
      | _ => exact trivial

end Steps

/-- **No stranded session**, in every run with fewer than 2³² processes at a time. -/
theorem noneStranded_iff (shmName : String) (acts : List LifeAct)
    (hroom : StepsMeet lifeStep RoomToEnter (Life.init shmName) acts) :
    AlwaysOn lifeStep NoneStranded (Life.init shmName) acts ↔
      StepsMeet lifeStep EntersAfterRollback (Life.init shmName) acts := by
  refine alwaysOn_iff_of_guarded (I := Counted) ?_ ?_ (counted_init shmName)
    (noneStranded_init shmName) hroom
  · intro s act _ hoff
    cases act with
    | daemon d dact => trivial
    | proc p pact =>
      cases pact with
      | enter =>
        intro hmutex hfresh
        have hproc : procStep s p .enter = none := hoff
        simp only [procStep] at hproc
        rw [if_pos ⟨hmutex, hfresh⟩] at hproc
        cases hproc
      | _ => trivial
  · exact fun s act s' hI hP hG hstep => lifeStep_strands_iff hI hP hG hstep

/-- The first start fails, the count goes back, and a second process starts a daemon. -/
theorem noneStranded_after_rollback :
    AlwaysOn lifeStep NoneStranded (Life.init "")
      ([.proc 0 .enter, .daemon 0 (.load .sorted), .proc 0 .giveUp, .proc 0 .rollback]
        ++ startUp 1 1 ++ [.proc 2 .enter, .proc 2 .observe, .proc 1 .leave, .proc 2 .leave]) :=
  (noneStranded_iff "" _ (by decide)).mpr (by decide)

/-- A second process enters before the count has gone back. -/
theorem not_noneStranded :
    let acts := [LifeAct.proc 0 .enter, .proc 0 .giveUp, .proc 1 .enter, .proc 0 .rollback]
    (run lifeStep (Life.init "") acts).map
        (fun s => (s.procs.lookup 1, s.socketReady, s.mutex, s.runningCount))
      = some (some .waiting, false, none, 1)
    ∧ ¬ AlwaysOn lifeStep NoneStranded (Life.init "") acts := by
  refine ⟨by decide, fun h => ?_⟩
  obtain hready | ⟨q, d, hmutex, -⟩ := h _ List.prefix_rfl _ rfl 1 rfl
  · cases hready
  · cases hmutex

end Cas.Cli
