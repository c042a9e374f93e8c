/-
  Cas.Lib.Framing — length-prefixed messages over a byte stream.

  A stream keeps the order of the bytes and nothing else: a receiver gets
  them in pieces of any size.  A frame is a 32-bit length, least byte
  first, and that many bytes.  A `Reading` is a receiver in the middle of
  a frame: one exact read for the length, another for the body.  It
  stands for the bytes it has taken (`taken_push`), so the pieces do not
  matter; when it is done, it has the message that was framed
  (`done_of_taken`), and until then bytes are missing (`wants_le`).
-/
import Cas.Lib.Bytes
import Mathlib.Algebra.Ring.Nat

namespace Cas.Lib

/-! ## §1. Numbers, least byte first. -/

/-- The `k` low bytes of a number. -/
def leBytes : ℕ → ℕ → Bytes
  | 0, _ => []
  | k + 1, n => UInt8.ofNat n :: leBytes k (n / 256)

/-- The number that bytes stand for. -/
def ofLeBytes : Bytes → ℕ
  | [] => 0
  | b :: bs => b.toNat + 256 * ofLeBytes bs

@[simp] theorem length_leBytes (k n : ℕ) : (leBytes k n).length = k := by
  induction k generalizing n with
  | zero => rfl
  | succ k ih => simp [leBytes, ih]

theorem ofLeBytes_leBytes (k n : ℕ) : ofLeBytes (leBytes k n) = n % 256 ^ k := by
  induction k generalizing n with
  | zero => simp [leBytes, ofLeBytes, Nat.mod_one]
  | succ k ih =>
    have hlow : (UInt8.ofNat n).toNat = n % 256 := by simp
    show (UInt8.ofNat n).toNat + 256 * ofLeBytes (leBytes k (n / 256)) = _
    rw [ih, hlow, Nat.pow_succ', Nat.mod_mul]

theorem leBytes_ofLeBytes (bs : Bytes) : leBytes bs.length (ofLeBytes bs) = bs := by
  induction bs with
  | nil => rfl
  | cons b bs ih =>
    have hb : b.toNat < 256 := b.toNat_lt
    have hlow : UInt8.ofNat (b.toNat + 256 * ofLeBytes bs) = b := by
      apply UInt8.toNat_inj.mp
      rw [UInt8.toNat_ofNat']
      omega
    have hhigh : (b.toNat + 256 * ofLeBytes bs) / 256 = ofLeBytes bs := by omega
    show UInt8.ofNat (b.toNat + 256 * ofLeBytes bs)
      :: leBytes bs.length ((b.toNat + 256 * ofLeBytes bs) / 256) = _
    rw [hlow, hhigh, ih]

theorem ofLeBytes_lt (bs : Bytes) : ofLeBytes bs < 256 ^ bs.length := by
  induction bs with
  | nil => simp [ofLeBytes]
  | cons b bs ih =>
    have hb : b.toNat < 256 := b.toNat_lt
    rw [List.length_cons, Nat.pow_succ']
    show b.toNat + 256 * ofLeBytes bs < _
    omega

/-! ## §2. Frames. -/

/-- The length in four bytes, whatever of it fits there, then the message. -/
def frame (msg : Bytes) : Bytes := leBytes 4 msg.length ++ msg

/-- The length of the message fits in the four bytes. -/
def Fits (msg : Bytes) : Prop := msg.length < 2 ^ 32

instance (msg : Bytes) : Decidable (Fits msg) := inferInstanceAs (Decidable (_ < _))

@[simp] theorem length_frame (msg : Bytes) : (frame msg).length = 4 + msg.length := by
  simp [frame]

theorem frame_ne_nil (msg : Bytes) : frame msg ≠ [] := by
  intro h
  have hlen := congrArg List.length h
  rw [length_frame, List.length_nil] at hlen
  omega

/-- Four bytes and what follows them, against a frame. -/
theorem leBytes_append_eq_frame {len : ℕ} {bytes msg : Bytes} (hlen : len < 2 ^ 32)
    (hmsg : Fits msg) (h : leBytes 4 len ++ bytes = frame msg) :
    len = msg.length ∧ bytes = msg := by
  have hmsg' : msg.length < 2 ^ 32 := hmsg
  obtain ⟨hhead, htail⟩ := List.append_inj h (by simp)
  refine ⟨?_, htail⟩
  have hval := congrArg ofLeBytes hhead
  rw [ofLeBytes_leBytes, ofLeBytes_leBytes] at hval
  omega

/-! ## §3. A receiver. -/

/-- In the length, in the body of a message of the length read, or past it. -/
inductive Reading
  | header (got : Bytes)
  | body (len : ℕ) (got : Bytes)
  | done (msg : Bytes)
  deriving DecidableEq

namespace Reading

def start : Reading := header []

/-- The bytes that the present exact read still asks for. -/
def wants : Reading → ℕ
  | header got => 4 - got.length
  | body len got => len - got.length
  | done _ => 0

/-- An exact read of `len` bytes that has `got`; one of no bytes is over at once. -/
def bodyOf (len : ℕ) (got : Bytes) : Reading :=
  if got.length < len then body len got else done got

/-- The next piece arrives. -/
def push : Reading → Bytes → Reading
  | header got, piece =>
    if (got ++ piece).length < 4 then header (got ++ piece)
    else bodyOf (ofLeBytes (got ++ piece)) []
  | body len got, piece => bodyOf len (got ++ piece)
  | done msg, _ => done msg

/-- Every byte taken so far. -/
def taken : Reading → Bytes
  | header got => got
  | body len got => leBytes 4 len ++ got
  | done msg => frame msg

/-- The present read is not over, and the length is one of 32 bits. -/
def Valid : Reading → Prop
  | header got => got.length < 4
  | body len got => got.length < len ∧ len < 2 ^ 32
  | done msg => Fits msg

theorem valid_start : start.Valid := by
  show 0 < 4
  omega

/-- A body read up to `len` bytes. -/
theorem bodyOf_spec (len : ℕ) (got : Bytes) (hlen : len < 2 ^ 32) (hgot : got.length ≤ len) :
    (bodyOf len got).taken = leBytes 4 len ++ got ∧ (bodyOf len got).Valid := by
  unfold bodyOf
  by_cases h : got.length < len
  · rw [if_pos h]
    exact ⟨rfl, h, hlen⟩
  · have heq : got.length = len := by omega
    rw [if_neg h]
    refine ⟨?_, ?_⟩
    · show leBytes 4 got.length ++ got = _
      rw [heq]
    · show got.length < 2 ^ 32
      omega

/-- No piece is lost, none is taken twice. -/
theorem taken_push {r : Reading} {piece : Bytes} (hr : r.Valid) (hp : piece.length ≤ r.wants) :
    (r.push piece).taken = r.taken ++ piece ∧ (r.push piece).Valid := by
  cases r with
  | header got =>
    have hr' : got.length < 4 := hr
    have hp' : piece.length ≤ 4 - got.length := hp
    have hpush : (header got).push piece = if (got ++ piece).length < 4 then header (got ++ piece)
      else bodyOf (ofLeBytes (got ++ piece)) [] := rfl
    rw [hpush]
    by_cases h : (got ++ piece).length < 4
    · rw [if_pos h]
      exact ⟨rfl, h⟩
    · rw [if_neg h]
      have hfour : (got ++ piece).length = 4 := by
        rw [List.length_append] at h ⊢
        omega
      have hlen : ofLeBytes (got ++ piece) < 2 ^ 32 := by
        have hlt := ofLeBytes_lt (got ++ piece)
        rw [hfour] at hlt
        omega
      obtain ⟨htaken, hvalid⟩ := bodyOf_spec _ [] hlen (Nat.zero_le _)
      refine ⟨?_, hvalid⟩
      -- the four bytes are those of the number they stand for
      have hback := leBytes_ofLeBytes (got ++ piece)
      rw [hfour] at hback
      rw [htaken, hback, List.append_nil]
      rfl
  | body len got =>
    have hr' : got.length < len ∧ len < 2 ^ 32 := hr
    have hp' : piece.length ≤ len - got.length := hp
    have hgot : (got ++ piece).length ≤ len := by
      rw [List.length_append]
      omega
    obtain ⟨htaken, hvalid⟩ := bodyOf_spec _ _ hr'.2 hgot
    refine ⟨?_, hvalid⟩
    show (bodyOf len (got ++ piece)).taken = _
    rw [htaken, ← List.append_assoc]
    rfl
  | done msg =>
    have hp' : piece.length ≤ 0 := hp
    have hnil : piece = [] := List.length_eq_zero_iff.mp (by omega)
    subst hnil
    exact ⟨(List.append_nil _).symm, hr⟩

/-- A receiver of a frame that is done has the message, and nothing is left. -/
theorem done_of_taken {got msg rest : Bytes} (hr : (done got).Valid) (hmsg : Fits msg)
    (h : (done got).taken ++ rest = frame msg) : got = msg ∧ rest = [] := by
  have hflat : leBytes 4 got.length ++ (got ++ rest) = frame msg := by
    rw [← h, ← List.append_assoc]
    rfl
  obtain ⟨hlen, hbytes⟩ := leBytes_append_eq_frame hr hmsg hflat
  have hrest : rest = [] := by
    have hsum := congrArg List.length hbytes
    rw [List.length_append] at hsum
    exact List.length_eq_zero_iff.mp (by omega)
  subst hrest
  rw [List.append_nil] at hbytes
  exact ⟨hbytes, rfl⟩

/-- A receiver of a frame that is not done finds what it asks for. -/
theorem wants_le {r : Reading} {msg rest : Bytes} (hr : r.Valid) (hmsg : Fits msg)
    (h : r.taken ++ rest = frame msg) (hnot : ∀ got, r ≠ done got) :
    0 < r.wants ∧ r.wants ≤ rest.length := by
  have hsum := congrArg List.length h
  rw [List.length_append, length_frame] at hsum
  cases r with
  | header got =>
    have hr' : got.length < 4 := hr
    have hsum' : got.length + rest.length = 4 + msg.length := hsum
    show 0 < 4 - got.length ∧ 4 - got.length ≤ rest.length
    omega
  | body len got =>
    have hr' : got.length < len ∧ len < 2 ^ 32 := hr
    have hflat : leBytes 4 len ++ (got ++ rest) = frame msg := by
      rw [← h, ← List.append_assoc]
      rfl
    obtain ⟨hlen, hbytes⟩ := leBytes_append_eq_frame hr'.2 hmsg hflat
    have hbody := congrArg List.length hbytes
    rw [List.length_append] at hbody
    show 0 < len - got.length ∧ len - got.length ≤ rest.length
    omega
  | done got => exact absurd rfl (hnot got)

/-- A receiver of a frame that has not come to the last byte asks for more. -/
theorem wants_pos {r : Reading} {pipe rest msg : Bytes} (hr : r.Valid) (hmsg : Fits msg)
    (h : r.taken ++ (pipe ++ rest) = frame msg) (hpipe : 0 < pipe.length) : 0 < r.wants := by
  by_cases hdone : ∃ got, r = done got
  · obtain ⟨got, rfl⟩ := hdone
    obtain ⟨-, hnil⟩ := done_of_taken hr hmsg h
    rw [(List.append_eq_nil_iff.mp hnil).1] at hpipe
    exact absurd hpipe (lt_irrefl 0)
  · exact (wants_le hr hmsg h fun got he => hdone ⟨got, he⟩).1

end Reading

end Cas.Lib
