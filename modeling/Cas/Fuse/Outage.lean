/-
  Cas.Fuse.Outage — requests while the syncing daemon cannot be reached.

  Every request of `FuseRequest` that changes the host or the tables takes
  a connection before it does so; only what does not need the daemon at
  all is answered.  So of these requests an outage in which the pool hands
  out no connection leaves no trace, except for the handles that the
  kernel releases without a flush (`outage_leaves_no_trace`).  Requests
  outside `FuseRequest` need no connection; of them `fallocate` and
  `setlk` act on an open file during an outage as at any time.
-/
import Cas.Fuse.ScanRuns

namespace Cas.Fuse

open Cas.Lib Cas.Host Cas.Syncing

/-! ## §1. Refused connections. -/

/-- The first two connections of the request are refused: only `open` tries a second one. -/
def Unreachable (env : Env) : Prop := env.fault 0 ≠ none ∧ env.fault 1 ≠ none

instance (env : Env) : Decidable (Unreachable env) :=
  inferInstanceAs (Decidable (env.fault 0 ≠ none ∧ env.fault 1 ≠ none))

/-- The world `w₀`, where the next `n` connections are refused. -/
def Refused (w₀ : World) (n : ℕ) (w : World) : Prop :=
  ∃ faults, w = { w₀ with faults } ∧ ∀ k < n, faults[k]?.join ≠ none

/-- The requests that need the daemon; the others look at the table of inodes or drop a handle. -/
def needsDaemon : FuseRequest → Prop
  | .link _ _ _ | .opendir _ | .access _ | .release _ false => False
  | _ => True

/-- A handle goes without a message to the daemon. -/
def letsGo : FuseRequest → Prop
  | .release _ false => True
  | _ => False

section Handlers

variable {pol : Policy} {env : Env} {w₀ : World} {n : ℕ} {α β : Type}

theorem Refused.mono {w : World} {k : ℕ} (h : Refused w₀ n w) (hle : k ≤ n) : Refused w₀ k w := by
  obtain ⟨faults, rfl, hfaults⟩ := h
  exact ⟨faults, rfl, fun i hi => hfaults i (by omega)⟩

theorem refused_connectDaemon :
    Ensures (Refused w₀ (n + 1)) connectDaemon (fun _ _ => False) (Refused w₀ n) := by
  intro w h
  obtain ⟨faults, rfl, hfaults⟩ := h
  have hrefused := hfaults 0 (by omega)
  rw [← List.head?_eq_getElem?] at hrefused
  obtain ⟨fault, hfault⟩ := Option.ne_none_iff_exists'.mp hrefused
  obtain ⟨err, hrun⟩ := connectDaemon_fails (w := { w₀ with faults }) hfault
  rw [hrun]
  refine ⟨faults.tail, rfl, fun k hk => ?_⟩
  rw [List.getElem?_tail]
  exact hfaults (k + 1) (by omega)

/-- What comes after a connection that is refused does not run. -/
theorem ensures_stopped {P E : World → Prop} {m : FuseM α} {k : α → FuseM β}
    {R : β → World → Prop} (h : Ensures P m (fun _ _ => False) E) : Ensures P (m >>= k) R E :=
  Ensures.bind h fun _ _ hfalse => hfalse.elim

/-- A handler that stops at its connection. -/
def Stops (w₀ : World) (m : FuseM α) : Prop :=
  Ensures (Refused w₀ 2) m (fun _ _ => False) (Refused w₀ 0)

theorem stops_connect (k : Unit → FuseM α) : Stops w₀ (connectDaemon >>= k) :=
  ensures_stopped (Ensures.weaken (refused_connectDaemon (n := 1)) (fun _ h => h) (fun _ _ h => h)
    fun _ h => h.mono (by omega))

theorem Stops.bind {m : FuseM α} {k : α → FuseM β} (hm : Keeps (Refused w₀ 2) m)
    (hk : ∀ a, Stops w₀ (k a)) : Stops w₀ (m >>= k) :=
  Ensures.after hm (fun _ h => h.mono (by omega)) hk

/-- The log request of an `open` takes the first refusal. -/
theorem stops_open (ino : UInt64) (flags : OpenFlags) : Stops w₀ («open» pol env ino flags) := by
  apply Stops.bind (keeps_pathOf ino)
  intro path
  have hlog : Ensures (Refused w₀ 2) (reqStart pol env "open" path) (fun _ => Refused w₀ 1)
      (Refused w₀ 0) := by
    unfold reqStart
    cases pol.shouldLog path with
    | false => exact Ensures.ret fun _ h => h.mono (by omega)
    -- a log request that cannot be sent is dropped, and `open` goes on
    | true => exact Ensures.ignore (ensures_stopped refused_connectDaemon)
  exact Ensures.bind hlog fun _ => ensures_stopped refused_connectDaemon

/-- **One request** that needs the daemon. -/
theorem stops_handle {req : FuseRequest} (hreq : needsDaemon req) :
    Stops w₀ (handle pol env req) := by
  -- numbers are looked up first, which changes nothing; then comes the connection
  cases req with
  | lookup parent name =>
    exact Stops.bind (keeps_getPath parent name) fun _ => ensures_stopped (stops_connect _)
  | getattr ino => exact Stops.bind (keeps_pathOf ino) fun _ => ensures_stopped (stops_connect _)
  | setattr ino mode uid gid size fh => exact Stops.bind (keeps_pathOf ino) fun _ => stops_connect _
  | readlink ino => exact Stops.bind (keeps_pathOf ino) fun _ => stops_connect _
  | mkdir parent name mode =>
    exact Stops.bind (keeps_getPath parent name) fun _ => stops_connect _
  | unlink parent name => exact Stops.bind (keeps_getPath parent name) fun _ => stops_connect _
  | rmdir parent name => exact Stops.bind (keeps_getPath parent name) fun _ => stops_connect _
  | rename parent name newparent newname =>
    exact Stops.bind (keeps_getPath parent name) fun _ =>
      Stops.bind (keeps_getPath newparent newname) fun _ => stops_connect _
  | symlink parent name target =>
    exact Stops.bind (keeps_getPath parent name) fun _ => stops_connect _
  | link ino newparent newname => exact hreq.elim
  | «open» ino flags => exact stops_open ino flags
  | create parent name mode flags =>
    exact Stops.bind (keeps_getPath parent name) fun _ => stops_connect _
  | read ino fh offset size => exact stops_connect _
  | write ino fh offset data => exact stops_connect _
  | copyFileRange inoIn fhIn offsetIn inoOut fhOut offsetOut len =>
    exact Stops.bind (keeps_pathOf inoIn) fun _ => Stops.bind (keeps_pathOf inoOut) fun _ =>
      stops_connect _
  | flush fh => exact stops_connect _
  | release fh flush =>
    cases flush with
    | true => exact stops_connect _
    | false => exact hreq.elim
  | fsync fh => exact stops_connect _
  | opendir ino => exact hreq.elim
  | readdir ino offset capacity => exact Stops.bind (keeps_pathOf ino) fun _ => stops_connect _
  | access ino => exact hreq.elim

/-- A request that does not need the daemon looks a number up, or does nothing. -/
theorem keeps_handle_needless {P : World → Prop} {req : FuseRequest} (hreq : ¬ needsDaemon req)
    (hgo : ¬ letsGo req) : Keeps P (handle pol env req) := by
  cases req with
  | link ino newparent newname => exact Keeps.fail
  | opendir ino => exact Keeps.bind (keeps_pathOf ino) fun _ => Keeps.ret
  | access ino => exact Keeps.bind (keeps_pathOf ino) fun _ => Keeps.ret
  | release fh flush =>
    cases flush with
    | true => exact absurd trivial hreq
    | false => exact absurd trivial hgo
  | _ => exact absurd trivial hreq

end Handlers

/-! ## §2. Runs. -/

section Runs

variable (pol : Policy) {env : Env} {w : World} {req : FuseRequest}

theorem refused_start (h : Unreachable env) : Refused w 2 { w with faults := env.faults } := by
  refine ⟨env.faults, rfl, fun k hk => ?_⟩
  have hk : k = 0 ∨ k = 1 := by omega
  rcases hk with rfl | rfl
  · exact h.1
  · exact h.2

/-- **One request** during the outage. -/
theorem serveFuse_unreachable (h : Unreachable env) (hgo : ¬ letsGo req) :
    (∃ faults, (serveFuse pol env w req).2 = { w with faults }) ∧
      (needsDaemon req → ∃ errno, (serveFuse pol env w req).1 = .error errno) := by
  rw [serveFuse_world]
  by_cases hreq : needsDaemon req
  · have hstops : Stops w (handle pol env req) := stops_handle hreq
    have hend := Ensures.endState (hstops.weaken (fun _ h => h) (fun _ _ h => h.elim) fun _ h => h)
      (refused_start (w := w) h)
    obtain ⟨faults, hend, -⟩ := hend
    refine ⟨⟨faults, hend⟩, fun _ => ?_⟩
    have key := hstops _ (refused_start h)
    unfold serveFuse
    cases hrun : handle pol env req { w with faults := env.faults } with
    | ok reply w' =>
      rw [hrun] at key
      exact key.elim
    | error err w' => exact ⟨_, rfl⟩
  · have hkeeps : Keeps (Refused w 2) (handle pol env req) := keeps_handle_needless hreq hgo
    obtain ⟨faults, hend, -⟩ := Ensures.endState hkeeps (refused_start (w := w) h)
    exact ⟨⟨faults, hend⟩, fun hneeds => absurd hneeds hreq⟩

theorem serveAll_unreachable {outage : List (Env × FuseRequest)}
    (h : ∀ x ∈ outage, Unreachable x.1 ∧ ¬ letsGo x.2) :
    ∃ faults, serveAll pol w outage = { w with faults } := by
  -- each request brings its own refusals, so what the last one left of them does not matter
  induction outage generalizing w with
  | nil => exact ⟨w.faults, rfl⟩
  | cons x outage ih =>
    obtain ⟨hx, hrest⟩ := List.forall_mem_cons.mp h
    obtain ⟨faults, hfirst⟩ := (serveFuse_unreachable pol (w := w) hx.1 hx.2).1
    obtain ⟨faults', hlater⟩ := ih (w := { w with faults }) hrest
    refine ⟨faults', ?_⟩
    show serveAll pol (serveFuse pol x.1 w x.2).2 outage = _
    rw [hfirst, hlater]

/-- **An outage leaves no trace** of the requests in `FuseRequest`, releases without a flush apart:
while no connection can be had, every request that needs one is answered with an error, and
whatever is requested afterwards, with the daemon back or not, is answered and done as if nothing
had been requested meanwhile. -/
theorem outage_leaves_no_trace (w : World) {outage : List (Env × FuseRequest)}
    (h : ∀ x ∈ outage, Unreachable x.1 ∧ ¬ letsGo x.2) :
    (∀ before env req, before ++ [(env, req)] <+: outage → needsDaemon req →
      ∃ errno, (serveFuse pol env (serveAll pol w before) req).1 = .error errno) ∧
    ∀ env req, serveFuse pol env (serveAll pol w outage) req = serveFuse pol env w req := by
  constructor
  · intro before env req hpre hneeds
    obtain ⟨hdown, hgo⟩ := h (env, req) (hpre.subset (by simp))
    exact (serveFuse_unreachable pol hdown hgo).2 hneeds
  · intro env req
    obtain ⟨faults, hsame⟩ := serveAll_unreachable pol (w := w) h
    rw [hsame]
    rfl

/-- The pool is empty and the socket refuses. -/
def down : Env := { Env.quiet with
  faults := [some (.unsent (.io none)), some (.unsent (.io none))] }

/-- `mkdir /a` and an `open` of the root while the daemon is down. -/
def duringOutage : List (Env × FuseRequest) :=
  [(down, .mkdir 1 (.name Name.a) 0o755), (down, .open 1 ⟨.rdonly, false, false⟩)]

theorem outage_leaves_no_trace_mkdir :
    (∀ before env req, before ++ [(env, req)] <+: duringOutage → needsDaemon req →
      ∃ errno, (serveFuse allCopyOnWrite env (serveAll allCopyOnWrite
        (World.mount emptyRoot (Server.init "s")) before) req).1 = .error errno) ∧
    ∀ env req, serveFuse allCopyOnWrite env (serveAll allCopyOnWrite
        (World.mount emptyRoot (Server.init "s")) duringOutage) req
      = serveFuse allCopyOnWrite env (World.mount emptyRoot (Server.init "s")) req := by
  apply outage_leaves_no_trace
  refine List.forall_mem_cons.mpr ⟨⟨by decide, fun h => h⟩, ?_⟩
  refine List.forall_mem_cons.mpr ⟨⟨by decide, fun h => h⟩, ?_⟩
  simp

end Runs

end Cas.Fuse
