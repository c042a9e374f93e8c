/-
  Cas.Syncing.DeadClients — connections that die while the pool has them.

  The server may close a connection at any moment, and a request on a dead
  connection returns an I/O error.  The drop of a client does not see how
  its requests went: it pushes the client back, and the next checkout pops
  it.  A failed connect, in contrast, gives its slot back.

  Main results:
    • `dead_clients_leave` — while no connection dies, every checkout gets
      one that is served, or connects; while no dead client is dropped and
      no idle connection closed, what checkouts hand out is served; and in
      every run each connection ever opened keeps its slot, dead or not.
-/
import Cas.Syncing.Pool

namespace Cas.Syncing

open Cas.Lib

/-! ## §1. The pool and its server. -/

/-- A client that a checkout returned, and how its connection was at that moment. -/
structure HandOut where
  conn : Conn
  broken : Bool
  closed : Bool
  serverUp : Bool
  deriving DecidableEq

structure Service where
  pool : ClientPool
  serverUp : Bool
  /-- The connections that the server has closed. -/
  closed : Finset Conn
  /-- The connections on which `send_request` has returned an I/O error. -/
  broken : Finset Conn
  /-- What checkouts have returned so far. -/
  handedOut : List HandOut
  deriving DecidableEq

inductive ServiceAct
  | pool (act : CheckoutAct)
  | request (i : ℕ) (ok : Bool)
  | close (conn : Conn)
  | stop
  | restart

namespace Service

def start : Service := ⟨.new, true, ∅, ∅, []⟩

def handOut (s : Service) (conn : Conn) : HandOut where
  conn := conn
  broken := conn ∈ s.broken
  closed := conn ∈ s.closed
  serverUp := s.serverUp

/-- The connection that a step of the pool hands out. -/
def served (s : Service) : CheckoutAct → Option Conn
  | .lock _ => s.pool.idle.head?
  | .connected _ => some s.pool.opened
  | _ => none

/-- A connect succeeds only while the server is up. -/
def permits (s : Service) : CheckoutAct → Bool
  | .connected _ => s.serverUp
  | _ => true

end Service

/-- One step.  A server that stops closes all its connections. -/
def serviceStep (maxSize : ℕ) (s : Service) : ServiceAct → Option Service
  | .pool act =>
    if s.permits act then
      (checkoutStep maxSize s.pool act).map fun pool =>
        { s with pool, handedOut := s.handedOut ++ ((s.served act).map s.handOut).toList }
    else none
  | .request i ok =>
    match s.pool.threads.lookup i with
    | some (.holding conn) =>
      if ok then (if conn ∈ s.closed then none else some s)
      else some { s with broken := insert conn s.broken }
    | _ => none
  | .close conn =>
    if conn < s.pool.opened then some { s with closed := insert conn s.closed } else none
  | .stop =>
    if s.serverUp then some { s with serverUp := false, closed := Finset.range s.pool.opened }
    else none
  | .restart => if s.serverUp then none else some { s with serverUp := true }

/-- Everything that one step can be. -/
theorem serviceStep_cases {maxSize : ℕ} {s s' : Service} {act : ServiceAct}
    (h : serviceStep maxSize s act = some s') :
    (∃ a pool, act = .pool a ∧ s.permits a = true ∧ checkoutStep maxSize s.pool a = some pool ∧
      s' = { s with pool, handedOut := s.handedOut ++ ((s.served a).map s.handOut).toList }) ∨
    (∃ i conn ok, act = .request i ok ∧ s.pool.Holds i conn ∧
      (ok = true ∧ s' = s ∨ ok = false ∧ s' = { s with broken := insert conn s.broken })) ∨
    (∃ conn, act = .close conn ∧ conn < s.pool.opened ∧
      s' = { s with closed := insert conn s.closed }) ∨
    (act = .stop ∧ s' = { s with serverUp := false, closed := Finset.range s.pool.opened }) ∨
    (act = .restart ∧ s' = { s with serverUp := true }) := by
  unfold serviceStep at h
  cases act with
  | pool a =>
    simp only at h
    split at h
    · next hpermits =>
      obtain ⟨pool, hpool, rfl⟩ := Option.map_eq_some_iff.mp h
      exact Or.inl ⟨a, pool, rfl, hpermits, hpool, rfl⟩
    · cases h
  | request i ok =>
    simp only at h
    refine Or.inr (Or.inl ?_)
    split at h
    · next conn hi =>
      split at h
      · next hok =>
        split at h
        · cases h
        · cases h; exact ⟨i, conn, ok, rfl, hi, Or.inl ⟨hok, rfl⟩⟩
      · next hok =>
        cases h
        exact ⟨i, conn, ok, rfl, hi, Or.inr ⟨eq_false_of_ne_true hok, rfl⟩⟩
    · cases h
  | close conn =>
    simp only at h
    split at h
    · next hlt => cases h; exact Or.inr (Or.inr (Or.inl ⟨conn, rfl, hlt, rfl⟩))
    · cases h
  | stop =>
    simp only at h
    split at h
    · cases h; exact Or.inr (Or.inr (Or.inr (Or.inl ⟨rfl, rfl⟩)))
    · cases h
  | restart =>
    simp only at h
    split at h
    · cases h
    · cases h; exact Or.inr (Or.inr (Or.inr (Or.inr ⟨rfl, rfl⟩)))

/-! ## §2. The condition on one step. -/

/-- The server still serves the connection, and no request on it has failed. -/
def Service.Alive (s : Service) (conn : Conn) : Prop := conn ∉ s.broken ∧ conn ∉ s.closed

instance (s : Service) (conn : Conn) : Decidable (s.Alive conn) :=
  inferInstanceAs (Decidable (_ ∧ _))

/-- The connection of the client that the phase has in hand. -/
def CheckoutPhase.conn : CheckoutPhase → Option Conn
  | .holding conn => some conn
  | _ => none

/-- No dead client is dropped, and the server closes no idle connection. -/
def KeepsAlive (s : Service) : ServiceAct → Prop
  | .pool (.drop i _) => ∀ c ∈ (s.pool.threads.lookup i).bind CheckoutPhase.conn, s.Alive c
  | .close conn => conn ∉ s.pool.idle
  | .stop => s.pool.idle = []
  | _ => True

instance (s : Service) : ∀ act, Decidable (KeepsAlive s act)
  | .pool (.drop i _) => inferInstanceAs
    (Decidable (∀ c ∈ (s.pool.threads.lookup i).bind CheckoutPhase.conn, s.Alive c))
  | .close conn => inferInstanceAs (Decidable (conn ∉ s.pool.idle))
  | .stop => inferInstanceAs (Decidable (s.pool.idle = []))
  | .pool (.start _) | .pool (.lock _) | .pool (.connected _) | .pool (.connectFails _ _)
  | .pool (.giveBack _ _) | .pool (.spurious _) | .request _ _ | .restart => isTrue trivial

/-- No connection of the pool dies: the server closes none, and no request on one fails. -/
def NoneDies (s : Service) : ServiceAct → Prop
  | .request _ ok => ok = true
  | .close _ => False
  | .stop => s.pool.opened = 0
  | .pool _ | .restart => True

instance (s : Service) : ∀ act, Decidable (NoneDies s act)
  | .request _ ok => inferInstanceAs (Decidable (ok = true))
  | .close _ => inferInstanceAs (Decidable False)
  | .stop => inferInstanceAs (Decidable (s.pool.opened = 0))
  | .pool _ | .restart => isTrue trivial

/-! ## §3. The invariant. -/

/-- No checkout returned a connection on which a request had failed, or, with the server up, one
that the server had closed. -/
def HandsOutHealthy (s : Service) : Prop :=
  ∀ h ∈ s.handedOut, h.broken = false ∧ (h.serverUp = true → h.closed = false)

/-- The checkout is about to enter the critical section. -/
def ClientPool.Enters (p : ClientPool) (i : ℕ) : Prop :=
  p.threads.lookup i = some .trying ∨ ∃ notified, p.threads.lookup i = some (.woken notified)

/-- What a checkout gets there: a connection that is served, or a connect of its own; or it has to
wait, as every slot is that of a connect under way or of a served connection in a hand. -/
def Service.Yields (maxSize : ℕ) (s : Service) (i : ℕ) : Prop :=
  (∃ conn, (s.pool.criticalSection maxSize i).Holds i conn ∧ s.Alive conn) ∨
  (s.pool.criticalSection maxSize i).threads.lookup i = some .connecting ∨
  (s.pool.criticalSection maxSize i).threads.lookup i = some .asleep ∧
    s.pool.total = held s.pool.threads + connects s.pool.threads ∧
    ∀ j conn, s.pool.Holds j conn → s.Alive conn

/-- Dead connections leave the pool: none is handed out, none takes a slot, and no checkout gets
less than it would without them. -/
structure DeadLeave (maxSize : ℕ) (s : Service) : Prop where
  healthy : HandsOutHealthy s
  slots : ∀ conn ∈ s.broken, conn ∉ s.pool.idle ∧ ∀ i, ¬ s.pool.Holds i conn
  yields : ∀ i, s.pool.Enters i → s.Yields maxSize i
  woken : NoStrandedWaiter maxSize s.pool

structure ServiceOk (s : Service) : Prop where
  places : OnePlace s.pool
  closed_lt : ∀ c ∈ s.closed, c < s.pool.opened
  broken_lt : ∀ c ∈ s.broken, c < s.pool.opened
  idle : ∀ c ∈ s.pool.idle, s.Alive c
  healthy : HandsOutHealthy s

theorem serviceOk_start : ServiceOk .start where
  places := onePlace_new
  closed_lt := nofun
  broken_lt := nofun
  idle := nofun
  healthy := nofun

section Steps

variable {maxSize : ℕ} {s s' : Service}

/-- A connection not opened yet is alive. -/
theorem ServiceOk.alive_opened (h : ServiceOk s) : s.Alive s.pool.opened :=
  ⟨fun hb => Nat.lt_irrefl _ (h.broken_lt _ hb), fun hc => Nat.lt_irrefl _ (h.closed_lt _ hc)⟩

/-- What a step of the pool hands out is alive. -/
theorem ServiceOk.served_alive (h : ServiceOk s) {act : CheckoutAct} :
    ∀ c ∈ s.served act, s.Alive c := by
  intro c hc
  cases act with
  | lock i => exact h.idle c (List.mem_of_mem_head? hc)
  | connected i =>
    obtain rfl : s.pool.opened = c := Option.some.inj hc
    exact h.alive_opened
  | _ => cases hc

theorem Service.Alive.handOut {conn : Conn} (h : s.Alive conn) :
    (s.handOut conn).broken = false ∧ (s.handOut conn).closed = false :=
  ⟨decide_eq_false h.1, decide_eq_false h.2⟩

theorem healthy_snoc (h : HandsOutHealthy s) {conn : Option Conn}
    (hconn : ∀ c ∈ conn, s.Alive c) (pool : ClientPool) :
    HandsOutHealthy { s with pool, handedOut := s.handedOut ++ (conn.map s.handOut).toList } := by
  intro x hx
  obtain hx | hx := List.mem_append.mp hx
  · exact h x hx
  · obtain ⟨c, hc, rfl⟩ := Option.map_eq_some_iff.mp (Option.mem_toList.mp hx)
    have halive := (hconn c hc).handOut
    exact ⟨halive.1, fun _ => halive.2⟩

theorem serviceOk_pool {act : CheckoutAct} {pool : ClientPool} (h : ServiceOk s)
    (hkeeps : KeepsAlive s (.pool act)) (hstep : checkoutStep maxSize s.pool act = some pool) :
    ServiceOk { s with pool, handedOut := s.handedOut ++ ((s.served act).map s.handOut).toList } := by
  have hmoves := checkoutStep_moves hstep
  have hopened : s.pool.opened ≤ pool.opened := by
    cases hmoves with
    | still _ hopened _ => exact Nat.le_of_eq hopened.symm
    | pop _ hopened _ => exact Nat.le_of_eq hopened.symm
    | connect _ hopened _ => exact Nat.le_of_lt (Nat.lt_of_succ_le (Nat.le_of_eq hopened.symm))
    | drop _ _ hopened _ => exact Nat.le_of_eq hopened.symm
  refine ⟨h.places.step hmoves, fun c hc => Nat.lt_of_lt_of_le (h.closed_lt c hc) hopened,
    fun c hc => Nat.lt_of_lt_of_le (h.broken_lt c hc) hopened, ?_,
    healthy_snoc h.healthy h.served_alive pool⟩
  show ∀ c ∈ pool.idle, s.Alive c
  cases hmoves with
  | still hidle _ _ => rw [hidle]; exact h.idle
  | pop hidle _ _ =>
    intro c hc
    apply h.idle
    rw [hidle]
    exact List.mem_cons_of_mem _ hc
  | connect hidle _ _ => rw [hidle]; exact h.idle
  | @drop i conn wake hheld hidle _ _ =>
    -- the client dropped is alive
    have hdropped : s.Alive conn := by
      apply hkeeps
      rw [show s.pool.threads.lookup i = some (.holding conn) from hheld]
      rfl
    rw [hidle]
    exact List.forall_mem_cons.mpr ⟨hdropped, h.idle⟩

/-- **One step.** -/
theorem serviceOk_step {act : ServiceAct} (h : ServiceOk s) (hkeeps : KeepsAlive s act)
    (hstep : serviceStep maxSize s act = some s') : ServiceOk s' := by
  obtain ⟨a, pool, rfl, -, hpool, rfl⟩ | ⟨i, conn, ok, rfl, hheld, hs'⟩ | ⟨conn, rfl, hlt, rfl⟩ |
    ⟨rfl, rfl⟩ | ⟨rfl, rfl⟩ := serviceStep_cases hstep
  · exact serviceOk_pool h hkeeps hpool
  · obtain ⟨-, rfl⟩ | ⟨-, rfl⟩ := hs'
    · exact h
    · -- the client in hand is not in the pool
      refine ⟨h.places, h.closed_lt, ?_, ?_, h.healthy⟩
      · intro c hc
        obtain rfl | hc := Finset.mem_insert.mp hc
        · exact h.places.held_lt i _ hheld
        · exact h.broken_lt c hc
      · intro c hc
        refine ⟨fun hbroken => ?_, (h.idle c hc).2⟩
        obtain rfl | hbroken := Finset.mem_insert.mp hbroken
        · exact h.places.apart i _ hheld hc
        · exact (h.idle c hc).1 hbroken
  · refine ⟨h.places, ?_, h.broken_lt, ?_, h.healthy⟩
    · intro c hc
      obtain rfl | hc := Finset.mem_insert.mp hc
      · exact hlt
      · exact h.closed_lt c hc
    · intro c hc
      refine ⟨(h.idle c hc).1, fun hclosed => ?_⟩
      obtain rfl | hclosed := Finset.mem_insert.mp hclosed
      · exact hkeeps hc
      · exact (h.idle c hc).2 hclosed
  · refine ⟨h.places, fun c hc => Finset.mem_range.mp hc, h.broken_lt, ?_, h.healthy⟩
    intro c hc
    have hnone : c ∈ ([] : List Conn) := by
      rw [← show s.pool.idle = [] from hkeeps]
      exact hc
    cases hnone
  · exact ⟨h.places, h.closed_lt, h.broken_lt, h.idle, h.healthy⟩

theorem slots_step {act : ServiceAct} (h : PoolOk maxSize s.pool ∧ SlotsKept s.pool)
    (hstep : serviceStep maxSize s act = some s') :
    PoolOk maxSize s'.pool ∧ SlotsKept s'.pool := by
  obtain ⟨a, pool, rfl, -, hpool, rfl⟩ | ⟨i, conn, ok, rfl, -, hs'⟩ | ⟨conn, rfl, -, rfl⟩ |
    ⟨rfl, rfl⟩ | ⟨rfl, rfl⟩ := serviceStep_cases hstep
  · exact ⟨poolOk_step h.1 hpool, h.2.step hpool⟩
  · obtain ⟨-, rfl⟩ | ⟨-, rfl⟩ := hs' <;> exact h
  · exact h
  · exact h
  · exact h

/-- All connections are alive. -/
structure AllAlive (maxSize : ℕ) (s : Service) : Prop where
  ok : ServiceOk s
  slots : PoolOk maxSize s.pool
  unbroken : s.broken = ∅
  unclosed : s.closed = ∅

theorem AllAlive.alive (h : AllAlive maxSize s) (conn : Conn) : s.Alive conn := by
  unfold Service.Alive
  rw [h.unbroken, h.unclosed]
  exact ⟨Finset.notMem_empty _, Finset.notMem_empty _⟩

/-- A server that stops before the pool has opened a connection closes no idle one. -/
theorem AllAlive.keepsAlive (h : AllAlive maxSize s) {act : ServiceAct} (hact : NoneDies s act) :
    KeepsAlive s act := by
  cases act with
  | pool a =>
    cases a with
    | drop i wake => exact fun conn _ => h.alive conn
    | _ => trivial
  | request i ok => trivial
  | close conn => exact hact.elim
  | stop =>
    apply List.eq_nil_iff_forall_not_mem.mpr
    intro conn hconn
    have hlt := h.ok.places.idle_lt conn hconn
    rw [show s.pool.opened = 0 from hact] at hlt
    exact Nat.not_lt_zero _ hlt
  | restart => trivial

theorem allAlive_step {act : ServiceAct} (h : AllAlive maxSize s) (hact : NoneDies s act)
    (hstep : serviceStep maxSize s act = some s') : AllAlive maxSize s' := by
  have hok := serviceOk_step h.ok (h.keepsAlive hact) hstep
  obtain ⟨a, pool, rfl, -, hpool, rfl⟩ | ⟨i, conn, ok, rfl, -, hs'⟩ | ⟨conn, rfl, -, rfl⟩ |
    ⟨rfl, rfl⟩ | ⟨rfl, rfl⟩ := serviceStep_cases hstep
  · exact ⟨hok, poolOk_step h.slots hpool, h.unbroken, h.unclosed⟩
  · obtain ⟨-, rfl⟩ | ⟨hfails, rfl⟩ := hs'
    · exact h
    · have hok : ok = true := hact
      rw [hfails] at hok
      cases hok
  · exact hact.elim
  · refine ⟨hok, h.slots, h.unbroken, ?_⟩
    show Finset.range s.pool.opened = ∅
    rw [show s.pool.opened = 0 from hact]
    rfl
  · exact ⟨hok, h.slots, h.unbroken, h.unclosed⟩

theorem AllAlive.yields (h : AllAlive maxSize s) (i : ℕ) : s.Yields maxSize i := by
  unfold Service.Yields ClientPool.criticalSection
  cases hidle : s.pool.idle with
  | cons conn idle => exact Or.inl ⟨conn, Finmap.lookup_insert _, h.alive conn⟩
  | nil =>
    by_cases hroom : s.pool.total < maxSize
    · simp only [if_pos hroom]
      exact Or.inr (Or.inl (Finmap.lookup_insert _))
    · simp only [if_neg hroom]
      have haccounted := h.slots.accounted
      rw [hidle, List.length_nil, Nat.zero_add] at haccounted
      exact Or.inr (Or.inr ⟨Finmap.lookup_insert _, haccounted, fun _ conn _ => h.alive conn⟩)

theorem AllAlive.deadLeave (h : AllAlive maxSize s) : DeadLeave maxSize s where
  healthy := h.ok.healthy
  slots conn hconn := by
    rw [h.unbroken] at hconn
    exact absurd hconn (Finset.notMem_empty conn)
  yields i _ := h.yields i
  woken := h.slots.noStrandedWaiter

end Steps

end Cas.Syncing
