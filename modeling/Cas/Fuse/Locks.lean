/-
  Cas.Fuse.Locks — byte-range locks (`setlk` in `fuse/fs.rs`).

  The handler passes each request on to the host's `fcntl`, under the
  FUSE daemon's own process, and drops the lock owner.  To the host all
  owners are one holder, so their requests never conflict: `setlk_ok_iff`
  says what a reply depends on.  Owners therefore exclude each other
  exactly when none of them asks for what another holds
  (`exclusion_run_iff`).
-/
import Cas.Lib.RecordLocks
import Cas.Lib.Runs
import Cas.Fuse.Rename

namespace Cas.Fuse

open Cas.Lib Cas.Host Cas.Syncing

/-! ## §1. The host call. -/

/-- A lock in the host's table: of the FUSE daemon (`none`) or of another process. -/
abbrev HostLock := RecordLock (Option Nat) Backing Unit

inductive LockError
  | ebadf
  | einval
  | eoverflow
  | eagain
  /-- No call was made: the errno of whatever failed last. -/
  | stale
  deriving DecidableEq

inductive LockType
  | shared
  | exclusive
  | unlock
  deriving DecidableEq

/-- `F_RDLCK`, `F_WRLCK`, `F_UNLCK`. -/
def lockType (typ : Int16) : Option LockType :=
  if typ = 0 then some .shared
  else if typ = 1 then some .exclusive
  else if typ = 2 then some .unlock
  else none

/-- `struct flock`, relative to the start of the file. -/
structure Flock where
  type : Int16
  start : Int
  len : Int
  deriving DecidableEq

/-- What `setlk` makes of a request; the last byte is part of the range. -/
def flockOf (start stop : UInt64) (typ : Int32) : Flock where
  type := typ.toInt16
  start := start.toInt64.toInt
  len := if stop = UInt64.ofNat (2 ^ 64 - 1) then 0
    else ((if start ≤ stop then stop - start else 0) + 1).toInt64.toInt

/-- The largest offset of a file. -/
def OFFSET_MAX : Int := 2 ^ 63 - 1

/-- The first and the last byte that the host locks: a negative length counts backwards, and zero
means up to the end. -/
def Flock.range (f : Flock) : Except LockError (Nat × Nat) :=
  if f.start < 0 then .error .einval
  else if 0 < f.len then
    if OFFSET_MAX - f.start < f.len - 1 then .error .eoverflow
    else .ok (f.start.toNat, (f.start + f.len - 1).toNat)
  else if f.len < 0 then
    if f.start + f.len < 0 then .error .einval
    else .ok ((f.start + f.len).toNat, (f.start - 1).toNat)
  else .ok (f.start.toNat, OFFSET_MAX.toNat)

/-- Take a lock, or wait for it; `none` while `F_SETLKW` sleeps. -/
def takeLock (locks : List HostLock) (l : HostLock) (sleep : Bool) :
    Option (Except LockError (List HostLock)) :=
  match setLock locks l with
  | some locks => some (.ok locks)
  | none => if sleep then none else some (.error .eagain)

/-- `F_SETLK` and `F_SETLKW` of the FUSE daemon on one of its descriptors, all of which are open
for reading. -/
def fcntlSetlk (locks : List HostLock) (fd : Fd) (flock : Flock) (sleep : Bool) :
    Option (Except LockError (List HostLock)) :=
  match flock.range, lockType flock.type with
  | .error err, _ => some (.error err)
  | .ok _, none => some (.error .einval)
  | .ok (first, last), some .unlock => some (.ok (unlock locks none fd.backing first last))
  | .ok (first, last), some type =>
    if type = .exclusive ∧ fd.writable = false then some (.error .ebadf)
    else takeLock locks ⟨none, fd.backing, first, last, decide (type = .exclusive), ()⟩ sleep

/-! ## §2. The handler. -/

/-- A `setlk` request; the owner and the pid in it are not used. -/
structure SetlkRequest where
  fh : UInt64
  lockOwner : UInt64
  start : UInt64
  stop : UInt64
  typ : Int32
  pid : UInt32
  sleep : Bool
  deriving DecidableEq

def SetlkRequest.flock (req : SetlkRequest) : Flock := flockOf req.start req.stop req.typ

def setlkReply (locks : List HostLock) :
    Except LockError (List HostLock) → Except LockError Unit × List HostLock
  | .ok locks => (.ok (), locks)
  | .error err => (.error err, locks)

/-- The reply and the host's table after it; `none` while the handler sleeps. -/
def setlk (openFiles : FMap UInt64 OpenFile) (locks : List HostLock) (req : SetlkRequest) :
    Option (Except LockError Unit × List HostLock) :=
  match openFiles.lookup req.fh with
  | none => some (.error .stale, locks)
  | some file =>
    (fcntlSetlk locks file.file req.flock req.sleep).map (setlkReply locks)

/-- A lock as its owner sees it: `tag` is the handle it was asked for through. -/
abbrev Grant := RecordLock UInt64 Backing UInt64

/-- What the request asks for, when it is well-formed: a descriptor of the right mode, a range and
a type that the host takes. -/
def SetlkRequest.wants (openFiles : FMap UInt64 OpenFile) (req : SetlkRequest) :
    Option (LockType × Grant) :=
  match openFiles.lookup req.fh, req.flock.range, lockType req.flock.type with
  | some file, .ok (first, last), some type =>
    if type = .exclusive ∧ file.file.writable = false then none
    else some (type, { holder := req.lockOwner, file := file.file.backing, first, last
                       exclusive := decide (type = .exclusive), tag := req.fh })
  | _, _, _ => none

/-- The same lock in the name of the FUSE daemon. -/
def Grant.host (g : Grant) : HostLock :=
  { holder := none, file := g.file, first := g.first, last := g.last, exclusive := g.exclusive
    tag := () }

/-- What a `setlk` comes to. -/
inductive SetlkOutcome (openFiles : FMap UInt64 OpenFile) (locks : List HostLock)
    (req : SetlkRequest) : Option (Except LockError Unit × List HostLock) → Prop
  | refused (err : LockError) (hwants : req.wants openFiles = none) :
    SetlkOutcome openFiles locks req (some (.error err, locks))
  | unlocked (g : Grant) (hwants : req.wants openFiles = some (.unlock, g)) :
    SetlkOutcome openFiles locks req (some (.ok (), unlock locks none g.file g.first g.last))
  | granted (type : LockType) (g : Grant) (hwants : req.wants openFiles = some (type, g))
    (htype : type ≠ .unlock) (hfree : ∀ l ∈ locks, ¬ Conflicts l g.host) :
    SetlkOutcome openFiles locks req (some (.ok (), place locks g.host))
  | blocked (type : LockType) (g : Grant) (hwants : req.wants openFiles = some (type, g))
    (htype : type ≠ .unlock) (hheld : ∃ l ∈ locks, Conflicts l g.host) (reply)
    (hreply : ∀ r ∈ reply, r = (.error .eagain, locks)) :
    SetlkOutcome openFiles locks req reply

/-- A lock that is asked for in the right way: taken, or in the way of another process's. -/
theorem setlk_lock {openFiles : FMap UInt64 OpenFile} (locks : List HostLock) {req : SetlkRequest}
    {type : LockType} {g : Grant} (hwants : req.wants openFiles = some (type, g))
    (htype : type ≠ .unlock) :
    SetlkOutcome openFiles locks req
      ((takeLock locks g.host req.sleep).map (setlkReply locks)) := by
  have hiff : (setLock locks g.host).isSome = true ↔ ∀ l ∈ locks, ¬ Conflicts l g.host :=
    setLock_isSome_iff
  unfold takeLock
  unfold setLock at hiff ⊢
  by_cases hheld : ∃ l ∈ locks, Conflicts l g.host
  · rw [if_pos hheld]
    refine .blocked type g hwants htype hheld _ fun r hr => ?_
    cases hs : req.sleep with
    | true =>
      rw [hs] at hr
      cases hr
    | false =>
      rw [hs] at hr
      exact (Option.some.inj hr).symm
  · rw [if_neg hheld] at hiff ⊢
    exact .granted type g hwants htype (hiff.mp rfl)

theorem setlk_outcome (openFiles : FMap UInt64 OpenFile) (locks : List HostLock)
    (req : SetlkRequest) : SetlkOutcome openFiles locks req (setlk openFiles locks req) := by
  unfold setlk
  cases hfile : openFiles.lookup req.fh with
  | none =>
    refine .refused .stale ?_
    unfold SetlkRequest.wants
    rw [hfile]
  | some file =>
    show SetlkOutcome openFiles locks req
      ((fcntlSetlk locks file.file req.flock req.sleep).map (setlkReply locks))
    unfold fcntlSetlk
    cases hrange : req.flock.range with
    | error err =>
      refine .refused err ?_
      unfold SetlkRequest.wants
      rw [hfile, hrange]
    | ok range =>
      obtain ⟨first, last⟩ := range
      cases htype : lockType req.flock.type with
      | none =>
        refine .refused .einval ?_
        unfold SetlkRequest.wants
        rw [hfile, hrange, htype]
      | some type =>
        have hwants : req.wants openFiles = if type = .exclusive ∧ file.file.writable = false
            then none
            else some (type, { holder := req.lockOwner, file := file.file.backing, first, last
                               exclusive := decide (type = .exclusive), tag := req.fh }) := by
          unfold SetlkRequest.wants
          rw [hfile, hrange, htype]
        cases type with
        | unlock => exact .unlocked _ hwants
        | shared => exact setlk_lock locks hwants nofun
        | exclusive =>
          show SetlkOutcome openFiles locks req ((if LockType.exclusive = .exclusive ∧
            file.file.writable = false then _ else _ : Option _).map (setlkReply locks))
          by_cases hmode : LockType.exclusive = .exclusive ∧ file.file.writable = false
          · rw [if_pos hmode] at hwants ⊢
            exact .refused .ebadf hwants
          · rw [if_neg hmode] at hwants ⊢
            exact setlk_lock locks hwants nofun

/-- **When `setlk` replies OK**: the request is well-formed, and unless it unlocks, no lock of
another process is in the way.  What the sandbox holds plays no part. -/
theorem setlk_ok_iff (openFiles : FMap UInt64 OpenFile) (locks : List HostLock)
    (req : SetlkRequest) :
    (∃ locks', setlk openFiles locks req = some (.ok (), locks')) ↔
      ∃ type g, req.wants openFiles = some (type, g) ∧
        (type ≠ .unlock → ∀ l ∈ locks, l.holder ≠ none → ¬ Conflicts l g.host) := by
  have key := setlk_outcome openFiles locks req
  generalize setlk openFiles locks req = outcome at key ⊢
  have hown : ∀ {g : Grant} {l : HostLock}, Conflicts l g.host → l.holder ≠ none :=
    fun hc hn => hc.1 hn
  cases key with
  | refused err hwants =>
    refine iff_of_false nofun ?_
    rintro ⟨type, g, hw, -⟩
    rw [hwants] at hw
    cases hw
  | unlocked g hwants => exact iff_of_true ⟨_, rfl⟩ ⟨.unlock, g, hwants, fun h => absurd rfl h⟩
  | granted type g hwants htype hfree =>
    exact iff_of_true ⟨_, rfl⟩ ⟨type, g, hwants, fun _ l hl _ => hfree l hl⟩
  | blocked type g hwants htype hheld reply hreply =>
    refine iff_of_false ?_ ?_
    · rintro ⟨locks', h⟩
      have he := hreply _ h
      cases he
    · rintro ⟨type', g', hw, hfree⟩
      rw [hwants] at hw
      cases hw
      obtain ⟨l, hl, hc⟩ := hheld
      exact hfree htype l hl (hown hc) hc

/-! ## §3. Runs. -/

/-- The FUSE daemon, the host's locks, and the locks that owners have been granted. -/
structure LockState where
  world : World
  locks : List HostLock
  granted : List Grant

/-- What another process does to its own locks. -/
inductive OtherAct
  | lock (file : Backing) (first last : Nat) (exclusive : Bool)
  | unlock (file : Backing) (first last : Nat)
  | close (file : Backing)

inductive LockAct
  | open (env : Env) (ino : UInt64) (flags : OpenFlags)
  | setlk (req : SetlkRequest)
  | release (env : Env) (fh : UInt64) (flush : Bool)
  /-- The FUSE daemon closes some other descriptor of the file, such as that of an `fs::copy`. -/
  | closes (file : Backing)
  | other (pid : Nat) (act : OtherAct)

/-- A process is refused a lock that is in the way of another's. -/
def otherStep (locks : List HostLock) (pid : Nat) : OtherAct → List HostLock
  | .lock file first last exclusive =>
    (setLock locks ⟨some pid, file, first, last, exclusive, ()⟩).getD locks
  | .unlock file first last => unlock locks (some pid) file first last
  | .close file => closeFile locks (some pid) file

/-- What the owners hold after a `setlk` that replied OK: a new lock takes the place of what its
owner had in the range. -/
def grantedAfter (granted : List Grant) : LockType × Grant → List Grant
  | (.unlock, g) => unlock granted g.holder g.file g.first g.last
  | (_, g) => place granted g

/-- A reply to a `setlk`, or none while it sleeps: then the request is still there. -/
def serveSetlk (s : LockState) (req : SetlkRequest) : LockState :=
  match setlk s.world.openFiles s.locks req with
  | none => s
  | some (.error _, locks) => { s with locks }
  | some (.ok (), locks) =>
    let granted := (req.wants s.world.openFiles).map (grantedAfter s.granted)
    { s with locks, granted := granted.getD s.granted }

/-- The host drops the daemon's locks on the file when the handle's descriptor is closed; the
owner has given up what it took through the handle. -/
def serveRelease (pol : Policy) (s : LockState) (env : Env) (fh : UInt64) (flush : Bool) :
    LockState :=
  let world := (serveFuse pol env s.world (.release fh flush)).2
  { world
    locks := match s.world.openFiles.lookup fh with
      | some file =>
        if (world.openFiles.lookup fh).isNone then closeFile s.locks none file.file.backing
        else s.locks
      | none => s.locks
    granted := s.granted.filter fun g => decide (g.tag ≠ fh) }

def lockStep (pol : Policy) (s : LockState) : LockAct → Option LockState
  | .open env ino flags =>
    some { s with world := (serveFuse pol env s.world (.open ino flags)).2 }
  | .setlk req => some (serveSetlk s req)
  | .release env fh flush => some (serveRelease pol s env fh flush)
  | .closes file => some { s with locks := closeFile s.locks none file }
  | .other pid act => some { s with locks := otherStep s.locks pid act }

/-- A request for a lock that nothing but another owner's lock stands against does not meet one. -/
def Unopposed (s : LockState) : LockAct → Prop
  | .setlk req => ∀ type g, req.wants s.world.openFiles = some (type, g) → type ≠ .unlock →
      (∀ l ∈ s.locks, l.holder ≠ none → ¬ Conflicts l g.host) → ∀ k ∈ s.granted, ¬ Conflicts k g
  | _ => True

/-- One `setlk` keeps the grants compatible exactly when the request is unopposed. -/
theorem compatible_serveSetlk_iff {s : LockState} (h : Compatible s.granted) (req : SetlkRequest) :
    Compatible (serveSetlk s req).granted ↔ Unopposed s (.setlk req) := by
  have key := setlk_outcome s.world.openFiles s.locks req
  have hguard : Unopposed s (.setlk req) ↔ ∀ type g,
      req.wants s.world.openFiles = some (type, g) → type ≠ .unlock →
      (∀ l ∈ s.locks, l.holder ≠ none → ¬ Conflicts l g.host) →
      ∀ k ∈ s.granted, ¬ Conflicts k g := Iff.rfl
  rw [hguard]
  unfold serveSetlk
  generalize setlk s.world.openFiles s.locks req = outcome at key ⊢
  cases key with
  | refused err hwants =>
    rw [hwants]
    exact iff_of_true h nofun
  | unlocked g hwants =>
    rw [hwants]
    refine iff_of_true (h.unlock g.holder g.file g.first g.last) fun type g' he hne => ?_
    cases he
    exact absurd rfl hne
  | granted type g hwants htype hfree =>
    rw [hwants]
    have hplace : grantedAfter s.granted (type, g) = place s.granted g := by
      cases type with
      | unlock => exact absurd rfl htype
      | _ => rfl
    show Compatible (grantedAfter s.granted (type, g)) ↔ _
    rw [hplace, compatible_place_iff h]
    constructor
    · intro hnew type' g' he _ _
      cases he
      exact hnew
    · exact fun hall => hall type g rfl htype fun l hl _ => hfree l hl
  | blocked type g hwants htype hheld reply hreply =>
    rw [hwants]
    refine iff_of_true ?_ fun type' g' he _ hfree => ?_
    · cases hr : outcome with
      | none => exact h
      | some r =>
        rw [hreply r hr]
        exact h
    · cases he
      obtain ⟨l, hl, hc⟩ := hheld
      exact absurd hc (hfree l hl fun hn => hc.1 hn)

/-- **Owners exclude each other** along a run exactly when no request for a lock, acceptable to
the host, meets a conflicting lock that another owner has been granted and still holds. -/
theorem exclusion_run_iff (pol : Policy) (w : World) (locks : List HostLock)
    (acts : List LockAct) :
    AlwaysOn (lockStep pol) (fun s => Compatible s.granted) ⟨w, locks, []⟩ acts ↔
      StepsMeet (lockStep pol) Unopposed ⟨w, locks, []⟩ acts := by
  apply alwaysOn_iff_stepsMeet (I := fun _ => True)
  · exact fun _ _ _ _ _ => trivial
  · intro s act _
    cases act <;> exact ⟨_, rfl⟩
  · intro s act s' _ h hs
    cases act with
    | setlk req =>
      cases hs
      exact compatible_serveSetlk_iff h req
    | release env fh flush =>
      cases hs
      exact iff_of_true (h.filter _) trivial
    | _ =>
      cases hs
      exact iff_of_true h trivial
  · trivial
  · exact nofun

/-- `/a` is a host file, and its number is 2. -/
def lookedUpA : World :=
  (serveFuse aPassthrough Env.quiet (World.mount twoFiles (Server.init "s"))
    (.lookup 1 (.name Name.a))).2

/-- A request for an exclusive lock. -/
def writeLock (fh lockOwner start stop : UInt64) : SetlkRequest :=
  { fh, lockOwner, start, stop, typ := 1, pid := 1, sleep := false }

/-- Two owners open `/a`, and both are granted an exclusive lock on its first bytes. -/
theorem not_exclusion_two_owners :
    ¬ ∀ (pol : Policy) (w : World), Reachable pol w → ∀ (locks : List HostLock)
      (acts : List LockAct),
      AlwaysOn (lockStep pol) (fun s => Compatible s.granted) ⟨w, locks, []⟩ acts := by
  intro h
  have key := h aPassthrough lookedUpA (.serve (.mount twoFiles "s") _ _) []
    [.open Env.quiet 2 ⟨.rdwr, false, false⟩, .open Env.quiet 2 ⟨.rdwr, false, false⟩,
      .setlk (writeLock 1 10 0 9), .setlk (writeLock 2 11 5 7)] _ List.prefix_rfl _ rfl
  revert key
  decide

end Cas.Fuse
