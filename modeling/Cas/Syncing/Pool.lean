/-
  Cas.Syncing.Pool — `SyncClientPool` (`syncing/pool.rs`).

  Threads share a bounded pool of connections.  A checkout takes an idle
  client, or reserves a slot and connects outside the lock, or waits; a
  failed connect gives the slot back and wakes one waiter, and so does the
  drop of a client.  Each critical section is one step.

  A waiter that has been woken may find its client taken by a newcomer,
  and waits again.  No wake-up is lost all the same: while anybody sleeps,
  at least as many wake-ups are under way as there is free capacity
  (`PoolOk.awake`).

  Main results:
    • `pool_accounts` — the slots are accounted for, and no waiter sleeps
      beside free capacity with no wake-up under way,
    • `OnePlace.step` — a connection is in the pool or in one hand,
    • `SlotsKept.step` — and its slot is never given back.
-/
import Cas.Lib.FiniteMap
import Cas.Lib.Runs

namespace Cas.Syncing

open Cas.Lib

/-! ## §1. State. -/

/-- A connection: the how-manieth the pool opened. -/
abbrev Conn := ℕ

/-- What a checkout is doing, up to the drop of its client. -/
inductive CheckoutPhase
  | trying
  | connecting
  | failed (err : String)
  | asleep
  | woken (notified : Bool)
  | holding (conn : Conn)
  | errored (err : String)
  | dropped
  deriving DecidableEq

namespace CheckoutPhase

def isAsleep : CheckoutPhase → Bool
  | .asleep => true
  | _ => false

/-- Woken by `notify_one`, and not back in the critical section yet. -/
def isNotified : CheckoutPhase → Bool
  | .woken notified => notified
  | _ => false

def isHolding : CheckoutPhase → Bool
  | .holding _ => true
  | _ => false

/-- A slot is reserved for a connect, until a client is in hand or the slot is given back. -/
def isConnecting : CheckoutPhase → Bool
  | .connecting => true
  | .failed _ => true
  | _ => false

end CheckoutPhase

/-! Counts over all checkouts. -/

def held (threads : FMap ℕ CheckoutPhase) : ℕ := countIf CheckoutPhase.isHolding threads

def connects (threads : FMap ℕ CheckoutPhase) : ℕ := countIf CheckoutPhase.isConnecting threads

def sleeping (threads : FMap ℕ CheckoutPhase) : ℕ := countIf CheckoutPhase.isAsleep threads

def notified (threads : FMap ℕ CheckoutPhase) : ℕ := countIf CheckoutPhase.isNotified threads

/-- `PoolState`, the checkouts so far, and how many connections have been opened. -/
structure ClientPool where
  /-- The client pushed last comes first. -/
  idle : List Conn
  total : ℕ
  threads : FMap ℕ CheckoutPhase
  opened : ℕ
  deriving DecidableEq

namespace ClientPool

def new : ClientPool := ⟨[], 0, ∅, 0⟩

def setPhase (p : ClientPool) (i : ℕ) (phase : CheckoutPhase) : ClientPool :=
  { p with threads := p.threads.insert i phase }

/-! ## §2. Steps. -/

/-- The critical section of `checkout`: pop, or reserve a slot, or wait. -/
def criticalSection (p : ClientPool) (maxSize i : ℕ) : ClientPool :=
  match p.idle with
  | conn :: idle => { p with idle }.setPhase i (.holding conn)
  | [] =>
    if p.total < maxSize then { p with total := p.total + 1 }.setPhase i .connecting
    else p.setPhase i .asleep

/-- `notify_one` wakes a sleeper, any, if there is one. -/
def notifyOne (p : ClientPool) : Option ℕ → Option ClientPool
  | none => if sleeping p.threads = 0 then some p else none
  | some j =>
    match p.threads.lookup j with
    | some .asleep => some (p.setPhase j (.woken true))
    | _ => none

end ClientPool

inductive CheckoutAct
  | start (i : ℕ)
  | lock (i : ℕ)
  | connected (i : ℕ)
  | connectFails (i : ℕ) (err : String)
  | giveBack (i : ℕ) (wake : Option ℕ)
  | spurious (i : ℕ)
  | drop (i : ℕ) (wake : Option ℕ)

/-- One step; `none` when it is not enabled. -/
def checkoutStep (maxSize : ℕ) (p : ClientPool) : CheckoutAct → Option ClientPool
  | .start i =>
    match p.threads.lookup i with
    | some _ => none
    | none => some (p.setPhase i .trying)
  | .lock i =>
    match p.threads.lookup i with
    | some .trying => some (p.criticalSection maxSize i)
    | some (.woken _) => some (p.criticalSection maxSize i)
    | _ => none
  | .connected i =>
    match p.threads.lookup i with
    | some .connecting => some ({ p with opened := p.opened + 1 }.setPhase i (.holding p.opened))
    | _ => none
  | .connectFails i err =>
    match p.threads.lookup i with
    | some .connecting => some (p.setPhase i (.failed err))
    | _ => none
  | .giveBack i wake =>
    match p.threads.lookup i with
    | some (.failed err) => ({ p with total := p.total - 1 }.setPhase i (.errored err)).notifyOne wake
    | _ => none
  | .spurious i =>
    match p.threads.lookup i with
    | some .asleep => some (p.setPhase i (.woken false))
    | _ => none
  | .drop i wake =>
    match p.threads.lookup i with
    | some (.holding conn) =>
      ({ p with idle := conn :: p.idle }.setPhase i .dropped).notifyOne wake
    | _ => none

/-- `SyncClientPool::new`: room for one client at least. -/
def poolSize (maxSize : ℕ) : ℕ := max maxSize 1

section Cases

variable {maxSize : ℕ} {p p' : ClientPool}

/-- Everything that one step can be. -/
theorem checkoutStep_cases {act : CheckoutAct} (h : checkoutStep maxSize p act = some p') :
    (∃ i, act = .start i ∧ p.threads.lookup i = none ∧ p' = p.setPhase i .trying) ∨
    (∃ i phase, act = .lock i ∧ p.threads.lookup i = some phase ∧
      (phase = .trying ∨ ∃ notified, phase = .woken notified) ∧
      p' = p.criticalSection maxSize i) ∨
    (∃ i, act = .connected i ∧ p.threads.lookup i = some .connecting ∧
      p' = { p with opened := p.opened + 1 }.setPhase i (.holding p.opened)) ∨
    (∃ i err, act = .connectFails i err ∧ p.threads.lookup i = some .connecting ∧
      p' = p.setPhase i (.failed err)) ∨
    (∃ i err wake, act = .giveBack i wake ∧ p.threads.lookup i = some (.failed err) ∧
      ({ p with total := p.total - 1 }.setPhase i (.errored err)).notifyOne wake = some p') ∨
    (∃ i, act = .spurious i ∧ p.threads.lookup i = some .asleep ∧
      p' = p.setPhase i (.woken false)) ∨
    (∃ i conn wake, act = .drop i wake ∧ p.threads.lookup i = some (.holding conn) ∧
      ({ p with idle := conn :: p.idle }.setPhase i .dropped).notifyOne wake = some p') := by
  cases act with
  | start i =>
    unfold checkoutStep at h
    simp only at h
    split at h
    · cases h
    · next hi => cases h; exact Or.inl ⟨i, rfl, hi, rfl⟩
  | lock i =>
    unfold checkoutStep at h
    simp only at h
    refine Or.inr (Or.inl ?_)
    split at h
    · next hi => cases h; exact ⟨i, .trying, rfl, hi, Or.inl rfl, rfl⟩
    · next notified hi => cases h; exact ⟨i, .woken notified, rfl, hi, Or.inr ⟨_, rfl⟩, rfl⟩
    · cases h
  | connected i =>
    unfold checkoutStep at h
    simp only at h
    split at h
    · next hi => cases h; exact Or.inr (Or.inr (Or.inl ⟨i, rfl, hi, rfl⟩))
    · cases h
  | connectFails i err =>
    unfold checkoutStep at h
    simp only at h
    split at h
    · next hi => cases h; exact Or.inr (Or.inr (Or.inr (Or.inl ⟨i, err, rfl, hi, rfl⟩)))
    · cases h
  | giveBack i wake =>
    unfold checkoutStep at h
    simp only at h
    split at h
    · next err hi =>
      exact Or.inr (Or.inr (Or.inr (Or.inr (Or.inl ⟨i, err, wake, rfl, hi, h⟩))))
    · cases h
  | spurious i =>
    unfold checkoutStep at h
    simp only at h
    split at h
    · next hi => cases h; exact Or.inr (Or.inr (Or.inr (Or.inr (Or.inr (Or.inl ⟨i, rfl, hi, rfl⟩)))))
    · cases h
  | drop i wake =>
    unfold checkoutStep at h
    simp only at h
    split at h
    · next conn hi =>
      exact Or.inr (Or.inr (Or.inr (Or.inr (Or.inr (Or.inr ⟨i, conn, wake, rfl, hi, h⟩)))))
    · cases h

end Cases

/-! ## §3. Counting. -/

section Counts

variable {threads : FMap ℕ CheckoutPhase} {i : ℕ}

/-- A thread leaves one phase and enters another. -/
theorem counts_insert {old : CheckoutPhase} (h : threads.lookup i = some old)
    (phase : CheckoutPhase) :
    held (threads.insert i phase) + old.isHolding.toNat = held threads + phase.isHolding.toNat ∧
    connects (threads.insert i phase) + old.isConnecting.toNat
      = connects threads + phase.isConnecting.toNat ∧
    sleeping (threads.insert i phase) + old.isAsleep.toNat
      = sleeping threads + phase.isAsleep.toNat ∧
    notified (threads.insert i phase) + old.isNotified.toNat
      = notified threads + phase.isNotified.toNat := by
  have hcount : ∀ f : CheckoutPhase → Bool,
      countIf f (threads.insert i phase) + (f old).toNat
        = countIf f threads + (f phase).toNat := by
    intro f
    have hf := countIf_insert f threads i phase
    rw [h] at hf
    exact hf
  exact ⟨hcount _, hcount _, hcount _, hcount _⟩

/-- A new thread counts nowhere. -/
theorem counts_start (h : threads.lookup i = none) :
    held (threads.insert i .trying) = held threads ∧
    connects (threads.insert i .trying) = connects threads ∧
    sleeping (threads.insert i .trying) = sleeping threads ∧
    notified (threads.insert i .trying) = notified threads := by
  have hcount : ∀ f : CheckoutPhase → Bool, f .trying = false →
      countIf f (threads.insert i .trying) = countIf f threads := by
    intro f hf
    have hinsert := countIf_insert f threads i .trying
    rw [h, hf] at hinsert
    exact hinsert
  exact ⟨hcount _ rfl, hcount _ rfl, hcount _ rfl, hcount _ rfl⟩

/-- A wake-up: one sleeper becomes a notified one, or there is no sleeper. -/
theorem notifyOne_counts {p p' : ClientPool} {wake : Option ℕ} (h : p.notifyOne wake = some p') :
    p'.idle = p.idle ∧ p'.total = p.total ∧ held p'.threads = held p.threads ∧
    connects p'.threads = connects p.threads ∧
    (sleeping p'.threads = 0 ∨ sleeping p'.threads + 1 = sleeping p.threads ∧
      notified p'.threads = notified p.threads + 1) := by
  cases wake with
  | none =>
    unfold ClientPool.notifyOne at h
    simp only at h
    split at h
    · next hnobody => cases h; exact ⟨rfl, rfl, rfl, rfl, Or.inl hnobody⟩
    · cases h
  | some j =>
    unfold ClientPool.notifyOne at h
    simp only at h
    split at h
    · next hj =>
      cases h
      obtain ⟨hheld, hconnects, hsleeping, hnotified⟩ := counts_insert hj (.woken true)
      exact ⟨rfl, rfl, hheld, hconnects, Or.inr ⟨hsleeping, hnotified⟩⟩
    · cases h

end Counts

/-! ## §4. The invariant. -/

/-- Every slot is an idle client, a client held or a connect in progress; and while anybody
sleeps, the free capacity is covered by wake-ups under way. -/
structure PoolOk (maxSize : ℕ) (p : ClientPool) : Prop where
  accounted : p.total = p.idle.length + held p.threads + connects p.threads
  bounded : p.total ≤ maxSize
  awake : 0 < sleeping p.threads → p.idle.length + (maxSize - p.total) ≤ notified p.threads

theorem poolOk_new (maxSize : ℕ) : PoolOk maxSize .new where
  accounted := rfl
  bounded := Nat.zero_le _
  awake h := absurd h (Nat.lt_irrefl 0)

section Steps

variable {maxSize : ℕ} {p p' : ClientPool} {i : ℕ}

/-- More capacity, and a wake-up for it. -/
theorem poolOk_notifyOne {wake : Option ℕ}
    (haccounted : p.total = p.idle.length + held p.threads + connects p.threads)
    (hbounded : p.total ≤ maxSize)
    (hawake : 0 < sleeping p.threads →
      p.idle.length + (maxSize - p.total) ≤ notified p.threads + 1)
    (h : p.notifyOne wake = some p') : PoolOk maxSize p' := by
  obtain ⟨hidle, htotal, hheld, hconnects, hwake⟩ := notifyOne_counts h
  refine ⟨?_, ?_, ?_⟩
  · rw [hidle, htotal, hheld, hconnects]
    exact haccounted
  · rw [htotal]
    exact hbounded
  · rw [hidle, htotal]
    intro hpos
    obtain hnobody | ⟨hsleeping, hnotified⟩ := hwake
    · omega
    · have hcover := hawake (by omega)
      omega

theorem poolOk_lock {phase : CheckoutPhase} (h : PoolOk maxSize p)
    (hi : p.threads.lookup i = some phase)
    (hphase : phase = .trying ∨ ∃ notified, phase = .woken notified) :
    PoolOk maxSize (p.criticalSection maxSize i) := by
  obtain ⟨haccounted, hbounded, hawake⟩ := h
  -- a newcomer or a woken thread: it costs at most one notification
  have hcounts : ∀ new : CheckoutPhase,
      held (p.threads.insert i new) = held p.threads + new.isHolding.toNat ∧
      connects (p.threads.insert i new) = connects p.threads + new.isConnecting.toNat ∧
      sleeping (p.threads.insert i new) = sleeping p.threads + new.isAsleep.toNat ∧
      notified p.threads + new.isNotified.toNat ≤ notified (p.threads.insert i new) + 1 := by
    intro new
    obtain ⟨hheld, hconnects, hsleeping, hnotified⟩ := counts_insert hi new
    obtain rfl | ⟨notified, rfl⟩ := hphase
    · have hzero : CheckoutPhase.trying.isNotified.toNat = 0 := rfl
      exact ⟨hheld, hconnects, hsleeping, by omega⟩
    · refine ⟨hheld, hconnects, hsleeping, ?_⟩
      have hone := Bool.toNat_le (CheckoutPhase.woken notified).isNotified
      omega
  unfold ClientPool.criticalSection
  split
  · next conn idle hidle =>
    rw [hidle, List.length_cons] at haccounted hawake
    obtain ⟨hheld, hconnects, hsleeping, hnotified⟩ := hcounts (.holding conn)
    refine ⟨?_, hbounded, ?_⟩
    · show p.total = idle.length + held (p.threads.insert i _) + connects (p.threads.insert i _)
      rw [hheld, hconnects]
      show p.total = idle.length + (held p.threads + 1) + connects p.threads
      omega
    · show 0 < sleeping (p.threads.insert i _) → _ ≤ notified (p.threads.insert i _)
      rw [hsleeping]
      intro hpos
      have hcover := hawake hpos
      show idle.length + (maxSize - p.total) ≤ _
      omega
  · next hidle =>
    rw [hidle, List.length_nil] at haccounted hawake
    split
    · next hroom =>
      obtain ⟨hheld, hconnects, hsleeping, hnotified⟩ := hcounts .connecting
      refine ⟨?_, hroom, ?_⟩
      · show p.total + 1 = p.idle.length + held (p.threads.insert i _)
          + connects (p.threads.insert i _)
        rw [hheld, hconnects, hidle]
        show p.total + 1 = 0 + held p.threads + (connects p.threads + 1)
        omega
      · show 0 < sleeping (p.threads.insert i _) → _ ≤ notified (p.threads.insert i _)
        rw [hsleeping]
        intro hpos
        have hcover := hawake hpos
        show p.idle.length + (maxSize - (p.total + 1)) ≤ _
        rw [hidle, List.length_nil]
        omega
    · next hfull =>
      -- nothing is free, so nothing is to be covered
      obtain ⟨hheld, hconnects, -, -⟩ := hcounts .asleep
      refine ⟨?_, hbounded, ?_⟩
      · show p.total = p.idle.length + held (p.threads.insert i _)
          + connects (p.threads.insert i _)
        rw [hheld, hconnects, hidle]
        exact haccounted
      · intro _
        show p.idle.length + (maxSize - p.total) ≤ _
        rw [hidle, List.length_nil]
        omega

theorem poolOk_start (h : PoolOk maxSize p) (hi : p.threads.lookup i = none) :
    PoolOk maxSize (p.setPhase i .trying) := by
  obtain ⟨hheld, hconnects, hsleeping, hnotified⟩ := counts_start hi
  refine ⟨?_, h.bounded, ?_⟩
  · show p.total = p.idle.length + held (p.threads.insert i _) + connects (p.threads.insert i _)
    rw [hheld, hconnects]
    exact h.accounted
  · show 0 < sleeping (p.threads.insert i _) → _ ≤ notified (p.threads.insert i _)
    rw [hsleeping, hnotified]
    exact h.awake

theorem poolOk_connected (h : PoolOk maxSize p) (hi : p.threads.lookup i = some .connecting) :
    PoolOk maxSize ({ p with opened := p.opened + 1 }.setPhase i (.holding p.opened)) := by
  obtain ⟨hheld, hconnects, hsleeping, hnotified⟩ := counts_insert hi (.holding p.opened)
  change held _ + 0 = held _ + 1 at hheld
  change connects _ + 1 = connects _ + 0 at hconnects
  refine ⟨?_, h.bounded, ?_⟩
  · show p.total = p.idle.length + held (p.threads.insert i _) + connects (p.threads.insert i _)
    have haccounted := h.accounted
    omega
  · show 0 < sleeping (p.threads.insert i _) → _ ≤ notified (p.threads.insert i _)
    rw [show sleeping (p.threads.insert i _) = sleeping p.threads from hsleeping,
      show notified (p.threads.insert i _) = notified p.threads from hnotified]
    exact h.awake

theorem poolOk_connectFails (h : PoolOk maxSize p) (hi : p.threads.lookup i = some .connecting)
    (err : String) : PoolOk maxSize (p.setPhase i (.failed err)) := by
  obtain ⟨hheld, hconnects, hsleeping, hnotified⟩ := counts_insert hi (.failed err)
  change connects _ + 1 = connects _ + 1 at hconnects
  refine ⟨?_, h.bounded, ?_⟩
  · show p.total = p.idle.length + held (p.threads.insert i _) + connects (p.threads.insert i _)
    rw [show held (p.threads.insert i _) = held p.threads from hheld, Nat.add_right_cancel hconnects]
    exact h.accounted
  · show 0 < sleeping (p.threads.insert i _) → _ ≤ notified (p.threads.insert i _)
    rw [show sleeping (p.threads.insert i _) = sleeping p.threads from hsleeping,
      show notified (p.threads.insert i _) = notified p.threads from hnotified]
    exact h.awake

theorem poolOk_giveBack {err : String} {wake : Option ℕ} (h : PoolOk maxSize p)
    (hi : p.threads.lookup i = some (.failed err))
    (hwake : ({ p with total := p.total - 1 }.setPhase i (.errored err)).notifyOne wake = some p') :
    PoolOk maxSize p' := by
  obtain ⟨hheld, hconnects, hsleeping, hnotified⟩ := counts_insert hi (.errored err)
  change held _ = held _ at hheld
  change connects _ + 1 = connects _ at hconnects
  change sleeping _ = sleeping _ at hsleeping
  change notified _ = notified _ at hnotified
  obtain ⟨haccounted, hbounded, hawake⟩ := h
  refine poolOk_notifyOne ?_ ?_ ?_ hwake
  · show p.total - 1 = p.idle.length + held (p.threads.insert i _) + connects (p.threads.insert i _)
    omega
  · show p.total - 1 ≤ maxSize
    omega
  · show 0 < sleeping (p.threads.insert i _) →
      p.idle.length + (maxSize - (p.total - 1)) ≤ notified (p.threads.insert i _) + 1
    intro hpos
    have hcover := hawake (by omega)
    omega

theorem poolOk_spurious (h : PoolOk maxSize p) (hi : p.threads.lookup i = some .asleep) :
    PoolOk maxSize (p.setPhase i (.woken false)) := by
  obtain ⟨hheld, hconnects, hsleeping, hnotified⟩ := counts_insert hi (.woken false)
  change sleeping _ + 1 = sleeping _ at hsleeping
  refine ⟨?_, h.bounded, ?_⟩
  · show p.total = p.idle.length + held (p.threads.insert i _) + connects (p.threads.insert i _)
    rw [show held (p.threads.insert i _) = held p.threads from hheld,
      show connects (p.threads.insert i _) = connects p.threads from hconnects]
    exact h.accounted
  · show 0 < sleeping (p.threads.insert i _) → _ ≤ notified (p.threads.insert i _)
    rw [show notified (p.threads.insert i _) = notified p.threads from hnotified]
    exact fun hpos => h.awake (by omega)

theorem poolOk_drop {conn : Conn} {wake : Option ℕ} (h : PoolOk maxSize p)
    (hi : p.threads.lookup i = some (.holding conn))
    (hwake : ({ p with idle := conn :: p.idle }.setPhase i .dropped).notifyOne wake = some p') :
    PoolOk maxSize p' := by
  obtain ⟨hheld, hconnects, hsleeping, hnotified⟩ := counts_insert hi .dropped
  change held _ + 1 = held _ at hheld
  change connects _ = connects _ at hconnects
  change sleeping _ = sleeping _ at hsleeping
  change notified _ = notified _ at hnotified
  obtain ⟨haccounted, hbounded, hawake⟩ := h
  refine poolOk_notifyOne ?_ ?_ ?_ hwake
  · show p.total = p.idle.length + 1 + held (p.threads.insert i _)
      + connects (p.threads.insert i _)
    omega
  · exact hbounded
  · show 0 < sleeping (p.threads.insert i _) →
      p.idle.length + 1 + (maxSize - p.total) ≤ notified (p.threads.insert i _) + 1
    intro hpos
    have hcover := hawake (by omega)
    omega

/-- **One step** keeps the accounts. -/
theorem poolOk_step {act : CheckoutAct} (h : PoolOk maxSize p)
    (hstep : checkoutStep maxSize p act = some p') : PoolOk maxSize p' := by
  obtain ⟨i, -, hi, rfl⟩ | ⟨i, phase, -, hi, hphase, rfl⟩ | ⟨i, -, hi, rfl⟩ |
    ⟨i, err, -, hi, rfl⟩ | ⟨i, err, wake, -, hi, hwake⟩ | ⟨i, -, hi, rfl⟩ |
    ⟨i, conn, wake, -, hi, hwake⟩ := checkoutStep_cases hstep
  · exact poolOk_start h hi
  · exact poolOk_lock h hi hphase
  · exact poolOk_connected h hi
  · exact poolOk_connectFails h hi err
  · exact poolOk_giveBack h hi hwake
  · exact poolOk_spurious h hi
  · exact poolOk_drop h hi hwake

/-- **A run** keeps them. -/
theorem poolOk_run {acts : List CheckoutAct} (h : run (checkoutStep maxSize) .new acts = some p) :
    PoolOk maxSize p :=
  run_invariant (fun _ _ _ hok hstep => poolOk_step hok hstep) (poolOk_new maxSize) h

end Steps

/-! ## §5. No stranded waiter. -/

/-- The slots add up, and there are at most `maxSize`. -/
def SlotsAddUp (maxSize : ℕ) (p : ClientPool) : Prop :=
  p.total = p.idle.length + held p.threads + connects p.threads ∧ p.total ≤ maxSize

/-- A thread sleeps beside free capacity only while a wake-up is under way. -/
def NoStrandedWaiter (maxSize : ℕ) (p : ClientPool) : Prop :=
  (∃ i, p.threads.lookup i = some .asleep) → p.idle ≠ [] ∨ p.total < maxSize →
    ∃ j, p.threads.lookup j = some (.woken true)

theorem PoolOk.noStrandedWaiter {maxSize : ℕ} {p : ClientPool} (h : PoolOk maxSize p) :
    NoStrandedWaiter maxSize p := by
  intro hasleep hfree
  obtain ⟨i, hi⟩ := hasleep
  have hsleeping : 0 < sleeping p.threads := countIf_pos.mpr ⟨i, .asleep, hi, rfl⟩
  have hcover := h.awake hsleeping
  have hcapacity : 0 < p.idle.length + (maxSize - p.total) := by
    obtain hidle | hroom := hfree
    · have hlen := List.length_pos_of_ne_nil hidle
      omega
    · omega
  obtain ⟨j, phase, hj, hnotified⟩ := countIf_pos.mp (show 0 < notified p.threads by omega)
  cases phase with
  | woken notified =>
    obtain rfl : notified = true := hnotified
    exact ⟨j, hj⟩
  | _ => cases hnotified

/-- **SyncClientPool**: in every state of every run. -/
theorem pool_accounts (maxSize : ℕ) (acts : List CheckoutAct) :
    AlwaysOn (checkoutStep (poolSize maxSize))
      (fun p => SlotsAddUp (poolSize maxSize) p ∧ NoStrandedWaiter (poolSize maxSize) p)
      .new acts := by
  intro pre hpre p hp
  have hok := poolOk_run hp
  exact ⟨⟨hok.accounted, hok.bounded⟩, hok.noStrandedWaiter⟩

/-! ## §6. Where the connections are. -/

def ClientPool.Holds (p : ClientPool) (i : ℕ) (conn : Conn) : Prop :=
  p.threads.lookup i = some (.holding conn)

/-- How one step moves connections between the pool and the threads. -/
inductive Moves (p p' : ClientPool) : CheckoutAct → Prop
  | still {act : CheckoutAct} (idle : p'.idle = p.idle) (opened : p'.opened = p.opened)
      (holds : ∀ j d, p'.Holds j d → p.Holds j d) : Moves p p' act
  | pop {i : ℕ} {conn : Conn} (idle : p.idle = conn :: p'.idle) (opened : p'.opened = p.opened)
      (holds : ∀ j d, p'.Holds j d → (j = i ∧ d = conn) ∨ p.Holds j d) : Moves p p' (.lock i)
  | connect {i : ℕ} (idle : p'.idle = p.idle) (opened : p'.opened = p.opened + 1)
      (holds : ∀ j d, p'.Holds j d → (j = i ∧ d = p.opened) ∨ p.Holds j d) :
      Moves p p' (.connected i)
  | drop {i : ℕ} {conn : Conn} {wake : Option ℕ} (held : p.Holds i conn)
      (idle : p'.idle = conn :: p.idle) (opened : p'.opened = p.opened)
      (holds : ∀ j d, p'.Holds j d → j ≠ i ∧ p.Holds j d) : Moves p p' (.drop i wake)

section Moves

variable {maxSize : ℕ} {p p' : ClientPool} {i j : ℕ} {d : Conn}

theorem holds_setPhase {phase : CheckoutPhase} (h : (p.setPhase i phase).Holds j d) :
    (j = i ∧ phase = .holding d) ∨ (j ≠ i ∧ p.Holds j d) := by
  have hlookup : (p.threads.insert i phase).lookup j = some (.holding d) := h
  rw [lookup_insert_ite] at hlookup
  split at hlookup
  · next heq => exact Or.inl ⟨heq, Option.some.inj hlookup⟩
  · next hne => exact Or.inr ⟨hne, hlookup⟩

/-- Entering a phase without a client gives nobody a client. -/
theorem holds_of_setPhase {phase : CheckoutPhase} (hphase : phase.isHolding = false)
    (h : (p.setPhase i phase).Holds j d) : p.Holds j d := by
  obtain ⟨-, rfl⟩ | ⟨-, hold⟩ := holds_setPhase h
  · cases hphase
  · exact hold

theorem notifyOne_moves {wake : Option ℕ} (h : p.notifyOne wake = some p') :
    p'.idle = p.idle ∧ p'.opened = p.opened ∧ ∀ j d, p'.Holds j d → p.Holds j d := by
  cases wake with
  | none =>
    unfold ClientPool.notifyOne at h
    simp only at h
    split at h
    · cases h; exact ⟨rfl, rfl, fun _ _ hold => hold⟩
    · cases h
  | some k =>
    unfold ClientPool.notifyOne at h
    simp only at h
    split at h
    · cases h; exact ⟨rfl, rfl, fun _ _ hold => holds_of_setPhase rfl hold⟩
    · cases h

theorem moves_lock (maxSize : ℕ) (p : ClientPool) (i : ℕ) :
    Moves p (p.criticalSection maxSize i) (.lock i) := by
  unfold ClientPool.criticalSection
  split
  · next conn idle hidle =>
    refine .pop hidle rfl fun j d hold => ?_
    obtain ⟨hj, hd⟩ | ⟨-, hold⟩ := holds_setPhase hold
    · cases hd; exact Or.inl ⟨hj, rfl⟩
    · exact Or.inr hold
  · split
    · exact .still rfl rfl fun j d hold => holds_of_setPhase (p := { p with total := _ }) rfl hold
    · exact .still rfl rfl fun j d hold => holds_of_setPhase rfl hold

theorem checkoutStep_moves {act : CheckoutAct} (h : checkoutStep maxSize p act = some p') :
    Moves p p' act := by
  obtain ⟨i, rfl, -, rfl⟩ | ⟨i, phase, rfl, -, -, rfl⟩ | ⟨i, rfl, -, rfl⟩ |
    ⟨i, err, rfl, -, rfl⟩ | ⟨i, err, wake, rfl, -, hwake⟩ | ⟨i, rfl, -, rfl⟩ |
    ⟨i, conn, wake, rfl, hi, hwake⟩ := checkoutStep_cases h
  · exact .still rfl rfl fun j d hold => holds_of_setPhase rfl hold
  · exact moves_lock maxSize p i
  · refine .connect rfl rfl fun j d hold => ?_
    obtain ⟨hj, hd⟩ | ⟨-, hold⟩ := holds_setPhase hold
    · cases hd; exact Or.inl ⟨hj, rfl⟩
    · exact Or.inr hold
  · exact .still rfl rfl fun j d hold => holds_of_setPhase rfl hold
  · obtain ⟨hidle, hopened, hholds⟩ := notifyOne_moves hwake
    exact .still hidle hopened fun j d hold =>
      holds_of_setPhase (p := { p with total := _ }) rfl (hholds j d hold)
  · exact .still rfl rfl fun j d hold => holds_of_setPhase rfl hold
  · obtain ⟨hidle, hopened, hholds⟩ := notifyOne_moves hwake
    refine .drop hi hidle hopened fun j d hold => ?_
    obtain ⟨-, hd⟩ | hrest := holds_setPhase (hholds j d hold)
    · cases hd
    · exact hrest

end Moves

/-- Every connection ever opened still has its slot, in the pool or in a hand. -/
def SlotsKept (p : ClientPool) : Prop := p.opened = p.idle.length + held p.threads

theorem slotsKept_new : SlotsKept .new := rfl

theorem SlotsKept.step {maxSize : ℕ} {p p' : ClientPool} {act : CheckoutAct} (h : SlotsKept p)
    (hstep : checkoutStep maxSize p act = some p') : SlotsKept p' := by
  unfold SlotsKept at h ⊢
  obtain ⟨i, -, hi, rfl⟩ | ⟨i, phase, -, hi, hphase, rfl⟩ | ⟨i, -, hi, rfl⟩ |
    ⟨i, err, -, hi, rfl⟩ | ⟨i, err, wake, -, hi, hwake⟩ | ⟨i, -, hi, rfl⟩ |
    ⟨i, conn, wake, -, hi, hwake⟩ := checkoutStep_cases hstep
  · show p.opened = p.idle.length + held (p.threads.insert i _)
    rw [(counts_start hi).1]
    exact h
  · -- a client popped goes into the hand
    have hheld : ∀ new : CheckoutPhase,
        held (p.threads.insert i new) = held p.threads + new.isHolding.toNat := by
      intro new
      obtain ⟨hheld, -⟩ := counts_insert hi new
      obtain rfl | ⟨notified, rfl⟩ := hphase <;> exact hheld
    unfold ClientPool.criticalSection
    split
    · next conn idle hidle =>
      show p.opened = idle.length + held (p.threads.insert i (.holding conn))
      rw [hidle, List.length_cons] at h
      have hhand : held (p.threads.insert i (.holding conn)) = held p.threads + 1 := hheld _
      omega
    · split
      · show p.opened = p.idle.length + held (p.threads.insert i .connecting)
        rw [hheld]
        exact h
      · show p.opened = p.idle.length + held (p.threads.insert i .asleep)
        rw [hheld]
        exact h
  · obtain ⟨hheld, -⟩ := counts_insert hi (.holding p.opened)
    change held _ + 0 = held _ + 1 at hheld
    show p.opened + 1 = p.idle.length + held (p.threads.insert i _)
    omega
  · obtain ⟨hheld, -⟩ := counts_insert hi (.failed err)
    show p.opened = p.idle.length + held (p.threads.insert i _)
    rw [show held (p.threads.insert i _) = held p.threads from hheld]
    exact h
  · obtain ⟨hidle, -, hheld', -⟩ := notifyOne_counts hwake
    obtain ⟨-, hopened, -⟩ := notifyOne_moves hwake
    obtain ⟨hheld, -⟩ := counts_insert hi (.errored err)
    rw [hidle, hopened, hheld']
    show p.opened = p.idle.length + held (p.threads.insert i _)
    rw [show held (p.threads.insert i _) = held p.threads from hheld]
    exact h
  · obtain ⟨hheld, -⟩ := counts_insert hi (.woken false)
    show p.opened = p.idle.length + held (p.threads.insert i _)
    rw [show held (p.threads.insert i _) = held p.threads from hheld]
    exact h
  · -- a client dropped goes back into the pool
    obtain ⟨hidle, -, hheld', -⟩ := notifyOne_counts hwake
    obtain ⟨-, hopened, -⟩ := notifyOne_moves hwake
    obtain ⟨hheld, -⟩ := counts_insert hi .dropped
    change held _ + 1 = held _ at hheld
    rw [hidle, hopened, hheld']
    show p.opened = p.idle.length + 1 + held (p.threads.insert i .dropped)
    omega

/-- Every connection is in one place. -/
structure OnePlace (p : ClientPool) : Prop where
  nodup : p.idle.Nodup
  idle_lt : ∀ c ∈ p.idle, c < p.opened
  held_lt : ∀ i c, p.Holds i c → c < p.opened
  apart : ∀ i c, p.Holds i c → c ∉ p.idle
  sole : ∀ i j c, p.Holds i c → p.Holds j c → i = j

theorem onePlace_new : OnePlace .new where
  nodup := List.nodup_nil
  idle_lt := nofun
  held_lt i c h := by
    rw [ClientPool.Holds, show ClientPool.new.threads.lookup i = none from Finmap.lookup_empty i] at h
    cases h
  apart _ _ _ := List.not_mem_nil
  sole i j c h := by
    rw [ClientPool.Holds, show ClientPool.new.threads.lookup i = none from Finmap.lookup_empty i] at h
    cases h

theorem OnePlace.step {p p' : ClientPool} {act : CheckoutAct} (h : OnePlace p)
    (hmoves : Moves p p' act) : OnePlace p' := by
  cases hmoves with
  | still hidle hopened hholds =>
    refine ⟨?_, ?_, ?_, ?_, ?_⟩
    · rw [hidle]; exact h.nodup
    · rw [hidle, hopened]; exact h.idle_lt
    · rw [hopened]; exact fun i c hc => h.held_lt i c (hholds i c hc)
    · rw [hidle]; exact fun i c hc => h.apart i c (hholds i c hc)
    · exact fun i j c hi hj => h.sole i j c (hholds i c hi) (hholds j c hj)
  | @pop i conn hidle hopened hholds =>
    have hnodup := h.nodup
    rw [hidle, List.nodup_cons] at hnodup
    have hconn : conn ∈ p.idle := by rw [hidle]; exact List.mem_cons_self
    have hsub : ∀ c ∈ p'.idle, c ∈ p.idle := by
      intro c hc
      rw [hidle]
      exact List.mem_cons_of_mem _ hc
    refine ⟨hnodup.2, ?_, ?_, ?_, ?_⟩
    · rw [hopened]; exact fun c hc => h.idle_lt c (hsub c hc)
    · rw [hopened]
      intro j c hc
      obtain ⟨-, rfl⟩ | hold := hholds j c hc
      · exact h.idle_lt c hconn
      · exact h.held_lt j c hold
    · intro j c hc hmem
      obtain ⟨-, rfl⟩ | hold := hholds j c hc
      · exact hnodup.1 hmem
      · exact h.apart j c hold (hsub c hmem)
    · intro j k c hj hk
      obtain ⟨hji, hjc⟩ | hj := hholds j c hj <;> obtain ⟨hki, hkc⟩ | hk := hholds k c hk
      · rw [hji, hki]
      · exact absurd (hjc ▸ hconn) (h.apart k c hk)
      · exact absurd (hkc ▸ hconn) (h.apart j c hj)
      · exact h.sole j k c hj hk
  | @connect i hidle hopened hholds =>
    refine ⟨?_, ?_, ?_, ?_, ?_⟩
    · rw [hidle]; exact h.nodup
    · rw [hidle, hopened]; exact fun c hc => Nat.lt_succ_of_lt (h.idle_lt c hc)
    · rw [hopened]
      intro j c hc
      obtain ⟨-, rfl⟩ | hold := hholds j c hc
      · exact Nat.lt_succ_self _
      · exact Nat.lt_succ_of_lt (h.held_lt j c hold)
    · rw [hidle]
      intro j c hc hmem
      obtain ⟨-, rfl⟩ | hold := hholds j c hc
      · exact Nat.lt_irrefl _ (h.idle_lt _ hmem)
      · exact h.apart j c hold hmem
    · intro j k c hj hk
      obtain ⟨hji, hjc⟩ | hj := hholds j c hj <;> obtain ⟨hki, hkc⟩ | hk := hholds k c hk
      · rw [hji, hki]
      · exact absurd (h.held_lt k c hk) (Nat.not_lt.mpr (Nat.le_of_eq hjc.symm))
      · exact absurd (h.held_lt j c hj) (Nat.not_lt.mpr (Nat.le_of_eq hkc.symm))
      · exact h.sole j k c hj hk
  | @drop i conn wake hheld hidle hopened hholds =>
    refine ⟨?_, ?_, ?_, ?_, ?_⟩
    · rw [hidle]; exact List.nodup_cons.mpr ⟨h.apart i conn hheld, h.nodup⟩
    · rw [hidle, hopened]
      exact List.forall_mem_cons.mpr ⟨h.held_lt i conn hheld, h.idle_lt⟩
    · rw [hopened]; exact fun j c hc => h.held_lt j c (hholds j c hc).2
    · rw [hidle]
      intro j c hc hmem
      obtain ⟨hne, hold⟩ := hholds j c hc
      obtain rfl | hmem := List.mem_cons.mp hmem
      · exact hne (h.sole j i c hold hheld)
      · exact h.apart j c hold hmem
    · exact fun j k c hj hk => h.sole j k c (hholds j c hj).2 (hholds k c hk).2

end Cas.Syncing
