/-
  Cas.Fuse.LockRanges — the ranges of locks on their way to the host and
  back (`setlk` and `getlk` in `fuse/fs.rs`).

  The protocol gives the last byte of a range, `fcntl` its length, and
  each has a value of its own for "up to the end of the file".  The
  request is turned into a length (`flock_exact_iff`); the answer is
  passed on as it is (`getlk_range_iff`).
-/
import Cas.Fuse.Locks

namespace Cas.Fuse

open Cas.Lib Cas.Host

/-! ## §1. The request. -/

/-- A `getlk` request; the owner in it is not used. -/
structure GetlkRequest where
  fh : UInt64
  lockOwner : UInt64
  start : UInt64
  stop : UInt64
  typ : Int32
  pid : UInt32
  deriving DecidableEq

/-- `struct flock` with its pid. -/
structure PidFlock extends Flock where
  pid : Int32
  deriving DecidableEq

def GetlkRequest.flock (req : GetlkRequest) : PidFlock :=
  { flockOf req.start req.stop req.typ with pid := req.pid.toInt32 }

/-- The largest last byte: `i64::MAX`, which the protocol uses for the end of the file. -/
def LAST_BYTE : UInt64 := UInt64.ofNat (2 ^ 63 - 1)

def U64_MAX : UInt64 := UInt64.ofNat (2 ^ 64 - 1)

/-- The ranges that a request may ask for. -/
def Requestable (start stop : UInt64) : Prop := start ≤ stop ∧ (stop ≤ LAST_BYTE ∨ stop = U64_MAX)

instance (start stop : UInt64) : Decidable (Requestable start stop) :=
  inferInstanceAs (Decidable (_ ∧ _))

/-- The `flock` denotes the bytes `start … stop`, and no value on the way to it wraps. -/
def Exact (f : Flock) (start stop : UInt64) : Prop :=
  f.start = start.toNat ∧ 0 ≤ f.len ∧
    ((f.len = 0 ∧ (stop = LAST_BYTE ∨ stop = U64_MAX)) ∨ f.start + f.len - 1 = stop.toNat) ∧
    (f.len ≠ 0 → f.len = stop.toNat - start.toNat + 1)

theorem toInt64_toInt (x : UInt64) : x.toInt64.toInt
    = if x.toNat < 2 ^ 63 then (x.toNat : Int) else x.toNat - 2 ^ 64 := by
  show x.toBitVec.toInt = _
  rw [BitVec.toInt_eq_toNat_cond]
  show (if 2 * x.toNat < 2 ^ 64 then _ else _) = _
  by_cases hx : x.toNat < 2 ^ 63
  · rw [if_pos hx, if_pos (by omega)]
    rfl
  · rw [if_neg hx, if_neg (by omega)]
    rfl

theorem toNat_LAST_BYTE : LAST_BYTE.toNat = 2 ^ 63 - 1 := by decide

theorem toNat_U64_MAX : U64_MAX.toNat = 2 ^ 64 - 1 := by decide

/-- The length of a range with a last byte; it is a `u64` before it is an `i64`. -/
theorem flockOf_len {start stop : UInt64} (hle : start ≤ stop) (hstop : stop ≤ LAST_BYTE)
    (typ : Int32) : (flockOf start stop typ).len
      = if stop.toNat - start.toNat + 1 < 2 ^ 63 then ((stop.toNat - start.toNat + 1 : ℕ) : Int)
        else -2 ^ 63 := by
  have hle' : start.toNat ≤ stop.toNat := UInt64.le_iff_toNat_le.mp hle
  have hstop' : stop.toNat ≤ 2 ^ 63 - 1 := by
    rw [← toNat_LAST_BYTE]
    exact UInt64.le_iff_toNat_le.mp hstop
  have hne : stop ≠ UInt64.ofNat (2 ^ 64 - 1) := by
    intro he
    have hmax : stop.toNat = 2 ^ 64 - 1 := (congrArg UInt64.toNat he).trans toNat_U64_MAX
    omega
  have hlen : ((stop - start) + 1).toNat = stop.toNat - start.toNat + 1 := by
    rw [UInt64.toNat_add, UInt64.toNat_sub_of_le _ _ hle]
    exact Nat.mod_eq_of_lt (show stop.toNat - start.toNat + 1 < 2 ^ 64 by omega)
  have hvalue : (flockOf start stop typ).len = ((stop - start) + 1).toInt64.toInt := by
    show (if _ then _ else ((if start ≤ stop then _ else _) + 1 : UInt64).toInt64.toInt) = _
    rw [if_neg hne, if_pos hle]
  rw [hvalue, toInt64_toInt, hlen]
  split
  · rfl
  · omega

theorem flockOf_len_max (start : UInt64) (typ : Int32) : (flockOf start U64_MAX typ).len = 0 := by
  have hmax : U64_MAX = UInt64.ofNat (2 ^ 64 - 1) := rfl
  unfold flockOf
  rw [if_pos hmax]

theorem flockOf_start (start stop : UInt64) (typ : Int32) : (flockOf start stop typ).start
    = if start.toNat < 2 ^ 63 then (start.toNat : Int) else start.toNat - 2 ^ 64 :=
  toInt64_toInt start

theorem exact_flockOf_iff {start stop : UInt64} (h : Requestable start stop) (typ : Int32) :
    Exact (flockOf start stop typ) start stop ↔
      start ≤ LAST_BYTE ∧ ¬ (start = 0 ∧ stop = LAST_BYTE) := by
  obtain ⟨hle, hstop⟩ := h
  have hle' : start.toNat ≤ stop.toNat := UInt64.le_iff_toNat_le.mp hle
  have hlast : start ≤ LAST_BYTE ↔ start.toNat < 2 ^ 63 := by
    rw [UInt64.le_iff_toNat_le, toNat_LAST_BYTE]
    omega
  have hzero : start = 0 ↔ start.toNat = 0 := UInt64.toNat_inj.symm
  have hbyte : stop = LAST_BYTE ↔ stop.toNat = 2 ^ 63 - 1 := by
    rw [← UInt64.toNat_inj, toNat_LAST_BYTE]
  have hmax : stop = U64_MAX ↔ stop.toNat = 2 ^ 64 - 1 := by
    rw [← UInt64.toNat_inj, toNat_U64_MAX]
  unfold Exact
  rw [flockOf_start, hlast, hzero, hbyte]
  rcases hstop with hstop | rfl
  · -- a last byte
    have hstop' : stop.toNat < 2 ^ 63 := by
      have := UInt64.le_iff_toNat_le.mp hstop
      rw [toNat_LAST_BYTE] at this
      omega
    rw [flockOf_len hle hstop, if_pos (show start.toNat < 2 ^ 63 by omega)]
    by_cases hlen : stop.toNat - start.toNat + 1 < 2 ^ 63
    · rw [if_pos hlen]
      refine iff_of_true ⟨rfl, by omega, Or.inr (by omega), fun _ => by omega⟩ ⟨by omega, by omega⟩
    · rw [if_neg hlen]
      refine iff_of_false (fun hexact => ?_) (by omega)
      exact absurd hexact.2.1 (by omega)
  · -- up to the end
    rw [flockOf_len_max]
    have hstop' := toNat_U64_MAX
    constructor
    · rintro ⟨hstart, -⟩
      split at hstart
      · next hlt => exact ⟨hlt, by omega⟩
      · omega
    · rintro ⟨hlt, -⟩
      rw [if_pos hlt]
      exact ⟨rfl, Int.le_refl 0, Or.inl ⟨rfl, Or.inr rfl⟩, fun hne => absurd rfl hne⟩

/-- **Lock ranges are passed on exactly** by `setlk` and `getlk`, except the lock on the whole file
and locks that begin past the last byte. -/
theorem flock_exact_iff {start stop : UInt64} (h : Requestable start stop) :
    (∀ req : SetlkRequest, req.start = start → req.stop = stop →
      (Exact req.flock start stop ↔ start ≤ LAST_BYTE ∧ ¬ (start = 0 ∧ stop = LAST_BYTE))) ∧
    (∀ req : GetlkRequest, req.start = start → req.stop = stop →
      (Exact req.flock.toFlock start stop ↔
        start ≤ LAST_BYTE ∧ ¬ (start = 0 ∧ stop = LAST_BYTE))) := by
  constructor
  · rintro req rfl rfl
    exact exact_flockOf_iff h req.typ
  · rintro req rfl rfl
    exact exact_flockOf_iff h req.typ

/-- The bytes 1 to 9. -/
theorem flock_exact_some_bytes :
    Exact (writeLock 1 10 1 9).flock 1 9 ∧
      ∀ req : GetlkRequest, req.start = 1 → req.stop = 9 → Exact req.flock.toFlock 1 9 := by
  have hrequest : Requestable 1 9 := by decide
  have hexact := flock_exact_iff hrequest
  exact ⟨(hexact.1 (writeLock 1 10 1 9) rfl rfl).mpr (by decide),
    fun req hstart hstop => (hexact.2 req hstart hstop).mpr (by decide)⟩

/-- The lock on the whole file has a negative length. -/
theorem not_flock_exact_whole_file :
    ¬ ∀ start stop, Requestable start stop →
      (∀ req : SetlkRequest, req.start = start → req.stop = stop → Exact req.flock start stop) ∧
      ∀ req : GetlkRequest, req.start = start → req.stop = stop →
        Exact req.flock.toFlock start stop := by
  intro h
  have hlen := ((h 0 LAST_BYTE (by decide)).1 (writeLock 1 10 0 LAST_BYTE) rfl rfl).2.1
  revert hlen
  decide

/-! ## §2. The answer. -/

/-- `F_GETLK`: the first lock of another process that is in the way, or `F_UNLCK` and nothing else
changed. -/
def fcntlGetlk (locks : List HostLock) (fd : Fd) (flock : PidFlock) : Except LockError PidFlock :=
  match lockType flock.type, flock.range with
  | none, _ => .error .einval
  | some .unlock, _ => .error .einval
  | some _, .error err => .error err
  | some type, .ok (first, last) =>
    match locks.find? fun l =>
      decide (Conflicts l ⟨none, fd.backing, first, last, decide (type = .exclusive), ()⟩) with
    | none => .ok { flock with type := 2 }
    | some l => .ok
      { type := if l.exclusive then 1 else 0
        start := l.first
        len := if OFFSET_MAX ≤ l.last then 0 else l.last - l.first + 1
        pid := Int32.ofNat (l.holder.getD 0) }

/-- What `ReplyLock::locked` is given. -/
structure LockReply where
  start : UInt64
  stop : UInt64
  typ : Int32
  pid : UInt32
  deriving DecidableEq

/-- An `i64` as a `u64`. -/
def asU64 (x : Int) : UInt64 := (Int64.ofInt x).toUInt64

def getlk (openFiles : FMap UInt64 OpenFile) (locks : List HostLock) (req : GetlkRequest) :
    Except LockError LockReply :=
  match openFiles.lookup req.fh with
  | none => .error .stale
  | some file =>
    (fcntlGetlk locks file.file req.flock).map fun flock =>
      { start := asU64 flock.start, stop := asU64 flock.len, typ := flock.type.toInt32
        pid := flock.pid.toUInt32 }

/-- The first lock that conflicts with the bytes `start … stop` of the request; an end past the
last byte is the end of the file. -/
def GetlkRequest.meets (openFiles : FMap UInt64 OpenFile) (locks : List HostLock)
    (req : GetlkRequest) : Option HostLock :=
  match openFiles.lookup req.fh, lockType req.typ.toInt16 with
  | some _, some .unlock => none
  | some file, some type => locks.find? fun l =>
      decide (Conflicts l ⟨none, file.file.backing, req.start.toNat,
        min req.stop.toNat LAST_BYTE.toNat, decide (type = .exclusive), ()⟩)
  | _, _ => none

/-- A range of bytes that a file can have. -/
def HostLock.Fits (l : HostLock) : Prop := l.first ≤ l.last ∧ (l.last : Int) ≤ OFFSET_MAX

instance (l : HostLock) : Decidable l.Fits := inferInstanceAs (Decidable (_ ∧ _))

/-- The reply carries the range of `l`; the last byte of an unbounded lock is that of the protocol's
end of the file. -/
def LockReply.Names (reply : LockReply) (l : HostLock) : Prop :=
  reply.start.toNat = l.first ∧ reply.stop.toNat = l.last

instance (reply : LockReply) (l : HostLock) : Decidable (reply.Names l) :=
  inferInstanceAs (Decidable (_ ∧ _))

theorem toNat_asU64 {n : ℕ} (h : n < 2 ^ 63) : (asU64 n).toNat = n := by
  unfold asU64
  show (BitVec.ofInt 64 n).toNat = n
  rw [BitVec.ofInt_natCast, BitVec.toNat_ofNat]
  exact Nat.mod_eq_of_lt (by omega)

/-- The host sees the bytes of a range that is passed on exactly. -/
theorem range_flockOf {start stop : UInt64} (h : Requestable start stop) (hstart : start ≤ LAST_BYTE)
    (hwhole : ¬ (start = 0 ∧ stop = LAST_BYTE)) (typ : Int32) :
    (flockOf start stop typ).range = .ok (start.toNat, min stop.toNat LAST_BYTE.toNat) := by
  obtain ⟨hfirst, hlen, hlast, -⟩ := (exact_flockOf_iff h typ).mpr ⟨hstart, hwhole⟩
  have hle : start.toNat ≤ stop.toNat := UInt64.le_iff_toNat_le.mp h.1
  have hstart' : start.toNat ≤ LAST_BYTE.toNat := UInt64.le_iff_toNat_le.mp hstart
  have hmax : OFFSET_MAX = LAST_BYTE.toNat := by decide
  unfold Flock.range
  rw [if_neg (by omega)]
  rcases hlast with ⟨hzero, hend⟩ | hlast
  · -- up to the end of the file
    have hstop : LAST_BYTE.toNat ≤ stop.toNat := by
      rcases hend with rfl | rfl
      · exact Nat.le_refl _
      · decide
    rw [if_neg (by omega), if_neg (by omega), hfirst, hmax, Nat.min_eq_right hstop]
    rfl
  · have hstop : stop.toNat ≤ LAST_BYTE.toNat := by
      rcases h.2 with hstop | rfl
      · exact UInt64.le_iff_toNat_le.mp hstop
      · rw [flockOf_len_max, hfirst, toNat_U64_MAX] at hlast
        rw [toNat_LAST_BYTE] at hstart'
        omega
    rw [if_pos (by omega), if_neg (by omega), Nat.min_eq_left hstop, hlast, hfirst]
    rfl

theorem range_flockOf_whole (typ : Int32) : (flockOf 0 LAST_BYTE typ).range = .error .einval := by
  have hlen := flockOf_len (UInt64.zero_le : 0 ≤ LAST_BYTE) (UInt64.le_refl _) typ
  rw [if_neg (by decide)] at hlen
  unfold Flock.range
  rw [flockOf_start, hlen]
  rfl

theorem getlk_error {openFiles : FMap UInt64 OpenFile} {locks : List HostLock} {req : GetlkRequest}
    {err : LockError} (hrange : req.flock.range = .error err) :
    ∃ err, getlk openFiles locks req = .error err := by
  unfold getlk fcntlGetlk
  cases openFiles.lookup req.fh with
  | none => exact ⟨_, rfl⟩
  | some file =>
    rw [hrange]
    cases lockType req.flock.type with
    | none => exact ⟨_, rfl⟩
    | some type => cases type <;> exact ⟨_, rfl⟩

/-- What the reply carries about the lock that the request runs into. -/
theorem getlk_meets {openFiles : FMap UInt64 OpenFile} {locks : List HostLock}
    {req : GetlkRequest} {l : HostLock} (h : req.meets openFiles locks = some l)
    (hrange : req.flock.range = .ok (req.start.toNat, min req.stop.toNat LAST_BYTE.toNat)) :
    ∃ typ pid, getlk openFiles locks req = .ok
      { start := asU64 l.first
        stop := asU64 (if OFFSET_MAX ≤ l.last then 0 else l.last - l.first + 1), typ, pid } := by
  have htyp : req.flock.type = req.typ.toInt16 := rfl
  unfold GetlkRequest.meets at h
  unfold getlk fcntlGetlk
  rw [hrange, htyp]
  cases hfile : openFiles.lookup req.fh with
  | none => simp [hfile] at h
  | some file =>
    cases htype : lockType req.typ.toInt16 with
    | none => simp [hfile, htype] at h
    | some type =>
      cases type with
      | unlock => simp [hfile, htype] at h
      | shared =>
        simp only [hfile, htype] at h ⊢
        rw [h]
        exact ⟨_, _, rfl⟩
      | exclusive =>
        simp only [hfile, htype] at h ⊢
        rw [h]
        exact ⟨_, _, rfl⟩

/-- A lock that is in the way begins no later than the request ends. -/
theorem start_le_of_meets {openFiles : FMap UInt64 OpenFile} {locks : List HostLock}
    {req : GetlkRequest} {l : HostLock} (h : req.meets openFiles locks = some l) (hl : l.Fits) :
    req.start ≤ LAST_BYTE := by
  have hmax : OFFSET_MAX = LAST_BYTE.toNat := by decide
  have hlast := hl.2
  rw [UInt64.le_iff_toNat_le]
  unfold GetlkRequest.meets at h
  split at h
  · cases h
  · have hfound := List.find?_some h
    have hconflict := of_decide_eq_true hfound
    have hover := hconflict.2.1.2.2
    dsimp only at hover
    omega
  · cases h

/-- **Getlk reports the conflicting range** exactly when that begins with byte 1 and ends, and the
request is not for the whole file: the length stands where the last byte belongs. -/
theorem getlk_range_iff (openFiles : FMap UInt64 OpenFile) (locks : List HostLock)
    (req : GetlkRequest) (hreq : Requestable req.start req.stop) {l : HostLock}
    (hmeets : req.meets openFiles locks = some l) (hl : l.Fits) :
    (∃ reply, getlk openFiles locks req = .ok reply ∧ reply.Names l) ↔
      ¬ (req.start = 0 ∧ req.stop = LAST_BYTE) ∧ l.first = 1 ∧ (l.last : Int) < OFFSET_MAX := by
  by_cases hwhole : req.start = 0 ∧ req.stop = LAST_BYTE
  · -- the host refuses the negative length
    have hrange : req.flock.range = .error .einval := by
      show (flockOf req.start req.stop req.typ).range = _
      rw [hwhole.1, hwhole.2]
      exact range_flockOf_whole req.typ
    obtain ⟨err, herr⟩ : ∃ err, getlk openFiles locks req = .error err := getlk_error hrange
    rw [herr]
    exact iff_of_false (fun h => by obtain ⟨reply, he, -⟩ := h; cases he) fun h => h.1 hwhole
  · rw [and_iff_right hwhole]
    obtain ⟨typ, pid, hreply⟩ := getlk_meets hmeets
      (range_flockOf hreq (start_le_of_meets hmeets hl) hwhole req.typ)
    obtain ⟨hle, hlast⟩ := hl
    have hmax : OFFSET_MAX = 2 ^ 63 - 1 := rfl
    have hstart : (asU64 (l.first : Int)).toNat = l.first := toNat_asU64 (by omega)
    have hnames : (∃ reply, getlk openFiles locks req = .ok reply ∧ reply.Names l) ↔
        (asU64 (if OFFSET_MAX ≤ l.last then 0 else l.last - l.first + 1)).toNat = l.last := by
      rw [hreply]
      constructor
      · rintro ⟨reply, he, -, hstop⟩
        cases he
        exact hstop
      · exact fun hstop => ⟨_, rfl, hstart, hstop⟩
    rw [hnames]
    by_cases hend : OFFSET_MAX ≤ l.last
    · -- an unbounded lock
      rw [if_pos hend]
      have hzero : (asU64 0).toNat = 0 := by decide
      rw [hzero]
      exact iff_of_false (by omega) (by omega)
    · rw [if_neg hend]
      have hlen : (asU64 ((l.last : Int) - l.first + 1)).toNat = l.last - l.first + 1 := by
        have hcast : (l.last : Int) - l.first + 1 = ((l.last - l.first + 1 : ℕ) : Int) := by omega
        rw [hcast]
        exact toNat_asU64 (by omega)
      rw [hlen]
      omega

/-- `/a` is open, and another process has locked some of its bytes. -/
def heldElsewhere (first last : ℕ) : FMap UInt64 OpenFile × List HostLock :=
  (Finmap.singleton 1 (.passthroughReal ⟨.host (.initial [Name.a]), true, false⟩),
    [⟨some 7, .host (.initial [Name.a]), first, last, true, ()⟩])

/-- Is the file free? -/
def testLock (start stop : UInt64) : GetlkRequest :=
  { fh := 1, lockOwner := 10, start, stop, typ := 1, pid := 1 }

/-- A lock on the bytes 1 to 9. -/
theorem getlk_range_some_bytes :
    ∃ reply, getlk (heldElsewhere 1 9).1 (heldElsewhere 1 9).2 (testLock 0 99) = .ok reply ∧
      reply.Names ⟨some 7, .host (.initial [Name.a]), 1, 9, true, ()⟩ :=
  (getlk_range_iff (heldElsewhere 1 9).1 (heldElsewhere 1 9).2 (testLock 0 99) (by decide)
    (by decide) (by decide)).mpr (by decide)

/-- A lock on the bytes 5 to 9 is reported as 5 to 5. -/
theorem not_getlk_range :
    ¬ ∀ (openFiles : FMap UInt64 OpenFile) (locks : List HostLock) (req : GetlkRequest)
      (l : HostLock), Requestable req.start req.stop → req.meets openFiles locks = some l →
      l.Fits → ∃ reply, getlk openFiles locks req = .ok reply ∧ reply.Names l := by
  intro h
  obtain ⟨reply, hreply, hnames⟩ := h (heldElsewhere 5 9).1 (heldElsewhere 5 9).2 (testLock 0 99)
    ⟨some 7, .host (.initial [Name.a]), 5, 9, true, ()⟩ (by decide) (by decide) (by decide)
  have hlen : getlk (heldElsewhere 5 9).1 (heldElsewhere 5 9).2 (testLock 0 99)
      = .ok ⟨5, 5, 1, 7⟩ := by decide
  rw [hlen] at hreply
  cases hreply
  revert hnames
  decide

end Cas.Fuse
