/-
  Cas.Cli.Lifecycle — `cas run` processes and the daemons they fork
  (`cli/run.rs`, `run_async` in `syncing/server.rs`).

  All processes of a sandbox share one mutex, a running count and a
  ready flag.  The process that raises the count from 0 forks a daemon
  and keeps the mutex until the daemon's ready byte.  A daemon polls for
  shutdown only after it has accepted a connection; once it has decided
  to stop it flushes twice, in the poll and right before it exits, and
  its open connections are served until then.

  Every action is one atomic step; a step that takes the mutex is not
  enabled while another process holds it.
-/
import Cas.Lib.Runs
import Cas.Syncing.Server

namespace Cas.Cli

open Cas.Lib Cas.Syncing

/-! ## §1. State. -/

/-- Where a `cas run` process is; a process outside the lifecycle has no phase. -/
inductive ProcPhase
  /-- Forked daemon `d` and holds the mutex until its ready byte. -/
  | starting (d : ℕ)
  /-- In `wait_for_daemon_ready`. -/
  | waiting
  /-- In `run_in_sandbox`. -/
  | inside
  /-- Its lease is still armed: the count has to be decremented. -/
  | rollback
  deriving DecidableEq

inductive DaemonPhase
  | forked
  | loaded
  | bound
  /-- The ready byte is written and the accept loop runs. -/
  | serving
  /-- `poll_shutdown` returned true. -/
  | decided
  /-- The second flush is done. -/
  | flushed
  | exited
  deriving DecidableEq

/-- Finished loading, and the shutdown decision not yet taken. -/
def DaemonPhase.live : DaemonPhase → Bool
  | .loaded | .bound | .serving => true
  | _ => false

/-- The shutdown decision is taken (or the process is gone). -/
def DaemonPhase.down : DaemonPhase → Bool
  | .decided | .flushed | .exited => true
  | _ => false

/-- The ready byte is in the socket pair. -/
def DaemonPhase.readySent : DaemonPhase → Bool
  | .serving | .decided | .flushed => true
  | _ => false

structure Daemon where
  phase : DaemonPhase
  /-- In memory, once loaded. -/
  state : Option ServerState
  /-- What it loaded. -/
  loadedAs : Option ServerState
  /-- It has answered a request that may change its state since it last flushed. -/
  dirty : Bool
  /-- Connections made but not accepted. -/
  backlog : ℕ
  /-- It has accepted a connection. -/
  connected : Bool
  /-- It has accepted a connection and not polled since. -/
  pollDue : Bool
  deriving DecidableEq

def Daemon.new : Daemon :=
  { phase := .forked, state := none, loadedAs := none, dirty := false, backlog := 0
    connected := false, pollDue := false }

/-- The sandbox and everything that runs on it. -/
structure Life where
  runningCount : UInt32
  socketReady : Bool
  mutex : Option ℕ
  /-- The daemon whose listener the socket path names. -/
  socketOwner : Option ℕ
  storage : Storage
  /-- The daemon that wrote the state files last. -/
  lastFlusher : Option ℕ
  procs : FMap ℕ ProcPhase
  /-- The daemons forked so far are `0 … forked - 1`, in this order. -/
  forked : ℕ
  daemons : FMap ℕ Daemon
  deriving DecidableEq

/-- A sandbox right after `init_sandbox`, with nothing running. -/
def Life.init (shmName : String) : Life where
  runningCount := 0
  socketReady := false
  mutex := none
  socketOwner := none
  storage := initSandbox shmName .sorted
  lastFlusher := none
  procs := ∅
  forked := 0
  daemons := ∅

/-! ## §2. Processes. -/

inductive ProcAct
  /-- `enter_run_lifecycle` up to the fork. -/
  | enter
  /-- The ready byte arrives: `on_ready`. -/
  | commit
  /-- The daemon died or the ready byte did not arrive in time. -/
  | giveUp
  /-- `wait_for_daemon_ready` sees the flag. -/
  | observe
  | leave
  /-- The armed lease is dropped. -/
  | rollback
  deriving DecidableEq

def Life.setProc (s : Life) (p : ℕ) (phase : ProcPhase) : Life :=
  { s with procs := s.procs.insert p phase }

/-- `decrement` under the mutex, and the process is gone. -/
def Life.decrement (s : Life) (p : ℕ) : Life :=
  { s with runningCount := s.runningCount - 1, procs := s.procs.erase p }

def Life.enter (s : Life) (p : ℕ) : Life :=
  let previous := s.runningCount
  let s := { s with runningCount := previous + 1 }
  if previous = 0 then
    { s.setProc p (.starting s.forked) with
      socketReady := false
      mutex := some p
      forked := s.forked + 1
      daemons := s.daemons.insert s.forked Daemon.new }
  else s.setProc p .waiting

def procStep (s : Life) (p : ℕ) : ProcAct → Option Life
  | .enter =>
    if s.mutex = none ∧ s.procs.lookup p = none then some (s.enter p) else none
  | .commit =>
    match s.procs.lookup p with
    | some (.starting d) =>
      if (s.daemons.lookup d).any (·.phase.readySent) then
        some { s.setProc p .waiting with socketReady := true, mutex := none }
      else none
    | _ => none
  | .giveUp =>
    match s.procs.lookup p with
    | some (.starting _) => some { s.setProc p .rollback with mutex := none }
    | _ => none
  | .observe =>
    if s.procs.lookup p = some .waiting ∧ s.mutex = none ∧ s.socketReady = true then
      some (s.setProc p .inside)
    else none
  | .leave =>
    if s.procs.lookup p = some .inside ∧ s.mutex = none then some (s.decrement p) else none
  | .rollback =>
    if s.procs.lookup p = some .rollback ∧ s.mutex = none then some (s.decrement p) else none

/-! ## §3. Daemons. -/

/-- The requests that may change the state of the server. -/
def mutating : Request → Bool
  | .getObjectPath _ | .getFileMeta _ | .getEntry _ | .readDirAll _ | .listWhiteoutUnder _
  | .logAccess _ _ _ | .flush => false
  | _ => true

inductive DaemonAct
  | load (order : IterOrder FsPath)
  | bind
  | ready
  /-- A client connects through the socket path. -/
  | connect
  | accept
  /-- `poll_shutdown`, after an accept; `early` when the last poll was less than a second ago. -/
  | poll (early : Bool) (order : IterOrder FsPath)
  | request (env : DispatchEnv) (req : Request)
  | finalFlush (order : IterOrder FsPath)
  /-- `process::exit` after the final flush. -/
  | exit

/-- Write the state of daemon `d` to disk and remove the socket path, whoever listens there. -/
def flushAndRemove (s : Life) (d : ℕ) (state : ServerState) (order : IterOrder FsPath) : Life :=
  { s with
    storage := (flushAndRemoveSocket ⟨state, s.storage⟩ .ok order).storage
    lastFlusher := some d
    socketOwner := none }

/-- One step of daemon `d`, whose record is `x`: the rest of the state and the new record.
Nothing fails on disk. -/
def daemonStep (s : Life) (d : ℕ) (x : Daemon) : DaemonAct → Option (Life × Daemon)
  | .load order =>
    if x.phase = .forked then
      match buildServerState s.storage order with
      | .ok state => some (s, { x with phase := .loaded, state := some state
                                       loadedAs := some state })
      | .error _ => some (s, { x with phase := .exited })
    else none
  | .bind =>
    if x.phase = .loaded then
      some ({ s with socketOwner := some d }, { x with phase := .bound })
    else none
  | .ready => if x.phase = .bound then some (s, { x with phase := .serving }) else none
  | .connect =>
    if s.socketOwner = some d then some (s, { x with backlog := x.backlog + 1 }) else none
  | .accept =>
    if x.phase = .serving ∧ 0 < x.backlog ∧ x.pollDue = false then
      some (s, { x with backlog := x.backlog - 1, connected := true, pollDue := true })
    else none
  | .poll early order =>
    if x.phase = .serving ∧ x.pollDue = true then
      if early then some (s, { x with pollDue := false })
      else if s.mutex = none then
        if s.runningCount = 0 then
          x.state.map fun state =>
            ({ flushAndRemove s d state order with socketReady := false },
              { x with phase := .decided, dirty := false, pollDue := false })
        else some (s, { x with pollDue := false })
      else none
    else none
  | .request env req =>
    if x.connected = true ∧ (x.phase.live = true ∨ x.phase = .decided ∨ x.phase = .flushed)
        ∧ env.flushIo = .ok then
      x.state.map fun state =>
        let server := (dispatch env ⟨state, s.storage⟩ req).2
        ({ s with
            storage := server.storage
            lastFlusher := if req = .flush then some d else s.lastFlusher },
          { x with
            state := some server.state
            dirty := if req = .flush then false else x.dirty || mutating req })
    else none
  | .finalFlush order =>
    if x.phase = .decided then
      x.state.map fun state =>
        (flushAndRemove s d state order, { x with phase := .flushed, dirty := false })
    else none
  | .exit => if x.phase = .flushed then some (s, { x with phase := .exited }) else none

/-! ## §4. The system. -/

inductive LifeAct
  | proc (p : ℕ) (act : ProcAct)
  | daemon (d : ℕ) (act : DaemonAct)

def lifeStep (s : Life) : LifeAct → Option Life
  | .proc p act => procStep s p act
  | .daemon d act =>
    (s.daemons.lookup d).bind fun x =>
      (daemonStep s d x act).map fun r => { r.1 with daemons := r.1.daemons.insert d r.2 }

/-! ## §5. What one step can do. -/

theorem enter_spec (s : Life) (p : ℕ) :
    (s.enter p).storage = s.storage ∧ (s.enter p).lastFlusher = s.lastFlusher ∧
      (((s.enter p).daemons = s.daemons ∧ (s.enter p).forked = s.forked) ∨
        (s.runningCount = 0 ∧ (s.enter p).forked = s.forked + 1 ∧
          (s.enter p).daemons = s.daemons.insert s.forked Daemon.new)) := by
  unfold Life.enter
  by_cases h0 : s.runningCount = 0
  · rw [if_pos h0]
    exact ⟨rfl, rfl, Or.inr ⟨h0, rfl, rfl⟩⟩
  · rw [if_neg h0]
    exact ⟨rfl, rfl, Or.inl ⟨rfl, rfl⟩⟩

/-- A step of a process never touches the disk; it leaves the daemons alone, or forks the next
one. -/
theorem procStep_spec {s s' : Life} {p : ℕ} {act : ProcAct} (h : procStep s p act = some s') :
    s'.storage = s.storage ∧ s'.lastFlusher = s.lastFlusher ∧
      ((s'.daemons = s.daemons ∧ s'.forked = s.forked) ∨
        (act = .enter ∧ s.runningCount = 0 ∧ s'.forked = s.forked + 1 ∧
          s'.daemons = s.daemons.insert s.forked Daemon.new)) := by
  cases act with
  | enter =>
    simp only [procStep] at h
    split at h
    · cases h
      obtain ⟨hdisk, hlast, hfork⟩ := enter_spec s p
      refine ⟨hdisk, hlast, ?_⟩
      rcases hfork with hsame | ⟨h0, hf, hd⟩
      · exact Or.inl hsame
      · exact Or.inr ⟨rfl, h0, hf, hd⟩
    · cases h
  | commit =>
    simp only [procStep] at h
    split at h
    · split at h
      · cases h; exact ⟨rfl, rfl, Or.inl ⟨rfl, rfl⟩⟩
      · cases h
    · cases h
  | giveUp =>
    simp only [procStep] at h
    split at h
    · cases h; exact ⟨rfl, rfl, Or.inl ⟨rfl, rfl⟩⟩
    · cases h
  | observe =>
    simp only [procStep] at h
    split at h
    · cases h; exact ⟨rfl, rfl, Or.inl ⟨rfl, rfl⟩⟩
    · cases h
  | leave =>
    simp only [procStep] at h
    split at h
    · cases h; exact ⟨rfl, rfl, Or.inl ⟨rfl, rfl⟩⟩
    · cases h
  | rollback =>
    simp only [procStep] at h
    split at h
    · cases h; exact ⟨rfl, rfl, Or.inl ⟨rfl, rfl⟩⟩
    · cases h

/-- What one step of a daemon can do, said once: it loads, it answers a request, it flushes, or
it leaves memory and disk as they are.  A daemon that is down stays down. -/
inductive DaemonEffect (s : Life) (d : ℕ) (x : Daemon) : DaemonAct → Life → Daemon → Prop
  | loads {order state x'} (hphase : x.phase = .forked)
      (hload : buildServerState s.storage order = .ok state)
      (hx : x' = { x with phase := .loaded, state := some state, loadedAs := some state }) :
      DaemonEffect s d x (.load order) s x'
  | answers {env req state s' x'} (hstate : x.state = some state) (hio : env.flushIo = .ok)
      (hs : s' = { s with
        storage := (dispatch env ⟨state, s.storage⟩ req).2.storage
        lastFlusher := if req = .flush then some d else s.lastFlusher })
      (hx : x' = { x with
        state := some (dispatch env ⟨state, s.storage⟩ req).2.state
        dirty := if req = .flush then false else x.dirty || mutating req }) :
      DaemonEffect s d x (.request env req) s' x'
  | flushes {act order state s' x'} (hstate : x.state = some state)
      (hdisk : s'.storage = (flushAndRemoveSocket ⟨state, s.storage⟩ .ok order).storage)
      (hlast : s'.lastFlusher = some d)
      (hx : x'.state = x.state ∧ x'.loadedAs = x.loadedAs ∧ x'.dirty = false)
      (hrest : s'.daemons = s.daemons ∧ s'.forked = s.forked)
      (hphase : x'.phase.down = true) : DaemonEffect s d x act s' x'
  | idles {act s' x'}
      (hdisk : s'.storage = s.storage ∧ s'.lastFlusher = s.lastFlusher)
      (hx : x'.state = x.state ∧ x'.loadedAs = x.loadedAs ∧ x'.dirty = x.dirty)
      (hrest : s'.daemons = s.daemons ∧ s'.forked = s.forked)
      (hforked : x'.phase = .forked → x.phase = .forked)
      (hphase : x.phase.down = true → x'.phase.down = true) : DaemonEffect s d x act s' x'

theorem daemonStep_effect {s s' : Life} {d : ℕ} {x x' : Daemon} {act : DaemonAct}
    (h : daemonStep s d x act = some (s', x')) : DaemonEffect s d x act s' x' := by
  cases act with
  | load order =>
    simp only [daemonStep] at h
    split at h
    · next hphase =>
      split at h
      · next state hload => cases h; exact .loads hphase hload rfl
      · cases h
        exact .idles ⟨rfl, rfl⟩ ⟨rfl, rfl, rfl⟩ ⟨rfl, rfl⟩ (fun hf => by cases hf) fun _ => rfl
    · cases h
  | bind =>
    simp only [daemonStep] at h
    split at h
    · next hphase =>
      cases h
      refine .idles ⟨rfl, rfl⟩ ⟨rfl, rfl, rfl⟩ ⟨rfl, rfl⟩ (fun hf => by cases hf) fun hd => ?_
      rw [hphase] at hd
      cases hd
    · cases h
  | ready =>
    simp only [daemonStep] at h
    split at h
    · next hphase =>
      cases h
      refine .idles ⟨rfl, rfl⟩ ⟨rfl, rfl, rfl⟩ ⟨rfl, rfl⟩ (fun hf => by cases hf) fun hd => ?_
      rw [hphase] at hd
      cases hd
    · cases h
  | connect =>
    simp only [daemonStep] at h
    split at h
    · cases h; exact .idles ⟨rfl, rfl⟩ ⟨rfl, rfl, rfl⟩ ⟨rfl, rfl⟩ id id
    · cases h
  | accept =>
    simp only [daemonStep] at h
    split at h
    · cases h; exact .idles ⟨rfl, rfl⟩ ⟨rfl, rfl, rfl⟩ ⟨rfl, rfl⟩ id id
    · cases h
  | poll early order =>
    simp only [daemonStep] at h
    split at h
    · split at h
      · cases h; exact .idles ⟨rfl, rfl⟩ ⟨rfl, rfl, rfl⟩ ⟨rfl, rfl⟩ id id
      · split at h
        · split at h
          · obtain ⟨state, hstate, he⟩ := Option.map_eq_some_iff.mp h
            cases he
            exact .flushes hstate rfl rfl ⟨rfl, rfl, rfl⟩ ⟨rfl, rfl⟩ rfl
          · cases h; exact .idles ⟨rfl, rfl⟩ ⟨rfl, rfl, rfl⟩ ⟨rfl, rfl⟩ id id
        · cases h
    · cases h
  | request env req =>
    simp only [daemonStep] at h
    split at h
    · next hc =>
      obtain ⟨state, hstate, he⟩ := Option.map_eq_some_iff.mp h
      cases he
      exact .answers hstate hc.2.2 rfl rfl
    · cases h
  | finalFlush order =>
    simp only [daemonStep] at h
    split at h
    · obtain ⟨state, hstate, he⟩ := Option.map_eq_some_iff.mp h
      cases he
      exact .flushes hstate rfl rfl ⟨rfl, rfl, rfl⟩ ⟨rfl, rfl⟩ rfl
    · cases h
  | exit =>
    simp only [daemonStep] at h
    split at h
    · cases h; exact .idles ⟨rfl, rfl⟩ ⟨rfl, rfl, rfl⟩ ⟨rfl, rfl⟩ (fun hf => by cases hf) fun _ => rfl
    · cases h

theorem DaemonEffect.rest {s s' : Life} {d : ℕ} {x x' : Daemon} {act : DaemonAct}
    (h : DaemonEffect s d x act s' x') : s'.daemons = s.daemons ∧ s'.forked = s.forked := by
  cases h with
  | loads hphase hload hx => exact ⟨rfl, rfl⟩
  | answers hstate hio hs hx => rw [hs]; exact ⟨rfl, rfl⟩
  | flushes hstate hdisk hlast hx hrest hphase => exact hrest
  | idles hdisk hx hrest hforked hphase => exact hrest

theorem DaemonEffect.down {s s' : Life} {d : ℕ} {x x' : Daemon} {act : DaemonAct}
    (h : DaemonEffect s d x act s' x') (hdown : x.phase.down = true) : x'.phase.down = true := by
  cases h with
  | loads hphase hload hx =>
    rw [hphase] at hdown
    cases hdown
  | answers hstate hio hs hx => rw [hx]; exact hdown
  | flushes hstate hdisk hlast hx hrest hphase => exact hphase
  | idles hdisk hx hrest hforked hphase => exact hphase hdown

/-- **One step of the system**, said once. -/
theorem lifeStep_cases {s s' : Life} {act : LifeAct} (h : lifeStep s act = some s') :
    (∃ p pact, act = .proc p pact ∧ procStep s p pact = some s') ∨
      ∃ d dact x r x', act = .daemon d dact ∧ s.daemons.lookup d = some x ∧
        DaemonEffect s d x dact r x' ∧ s' = { r with daemons := s.daemons.insert d x' } := by
  cases act with
  | proc p pact => exact Or.inl ⟨p, pact, rfl, h⟩
  | daemon d dact =>
    obtain ⟨x, hx, hr⟩ := Option.bind_eq_some_iff.mp h
    obtain ⟨⟨r, x'⟩, hstep, rfl⟩ := Option.map_eq_some_iff.mp hr
    have heff := daemonStep_effect hstep
    refine Or.inr ⟨d, dact, x, r, x', rfl, hx, heff, ?_⟩
    rw [heff.rest.1]

/-! ## §6. Pieces of concrete runs. -/

/-- A process starts a daemon and waits for it. -/
def startUp (p d : ℕ) : List LifeAct :=
  [.proc p .enter, .daemon d (.load .sorted), .daemon d .bind, .daemon d .ready, .proc p .commit,
    .proc p .observe]

/-- A first connection, one request over it. -/
def firstRequest (d : ℕ) (req : Request) : List LifeAct :=
  [.daemon d .connect, .daemon d .accept, .daemon d (.poll true .sorted),
    .daemon d (.request .quiet req)]

/-- A connection, accepted only after the process has left: the poll finds the count at 0. -/
def shutDown (p d : ℕ) : List LifeAct :=
  [.daemon d .connect, .proc p .leave, .daemon d .accept, .daemon d (.poll false .sorted)]

end Cas.Cli
