/-
  Cas.Lib.Codec — self-delimiting binary formats.

  A codec writes a value as bytes and reads one back from the front of a
  byte string.  Two laws are enough for everything here: what was written
  reads back with nothing left over, and a reader never looks beyond the
  bytes it consumes.  From them a value is read back in front of any
  bytes (`decode_front`) and no proper prefix of a written value can be
  read (`decode_short`): a file cut short is recognised as such.

  The combinators are those of a positional format: bytes, base-128
  numbers, pairs, counted lists, tagged options and unions, and a change
  of type.
-/
import Cas.Lib.Bytes

namespace Cas.Lib

/-- A binary format for `α`, read from the front of a byte string. -/
structure Codec (α : Type*) where
  encode : α → Bytes
  decode : Bytes → Option (α × Bytes)
  decode_encode : ∀ a, decode (encode a) = some (a, [])
  decode_append : ∀ bytes a rest tail, decode bytes = some (a, rest) →
    decode (bytes ++ tail) = some (a, rest ++ tail)

namespace Codec

/-! ## §1. What every codec satisfies. -/

section Laws

variable {α : Type*} (c : Codec α)

/-- A written value reads back in front of anything. -/
theorem decode_front (a : α) (tail : Bytes) : c.decode (c.encode a ++ tail) = some (a, tail) :=
  c.decode_append _ a [] tail (c.decode_encode a)

/-- Only the empty tail completes what already reads as a value. -/
theorem decode_short {a : α} {bytes tail : Bytes} (h : bytes ++ tail = c.encode a)
    (hne : tail ≠ []) : c.decode bytes = none := by
  rcases hd : c.decode bytes with - | ⟨b, rest⟩
  · rfl
  · exfalso
    have hfull := c.decode_append bytes b rest tail hd
    rw [h, c.decode_encode, Option.some.injEq, Prod.mk.injEq] at hfull
    have hnil : rest ++ tail = [] := hfull.2.symm
    exact hne (List.append_eq_nil_iff.mp hnil).2

/-- The first `k` bytes of a written value read back only if they are all of it. -/
theorem decode_take {a : α} {k : ℕ} (h : k < (c.encode a).length) :
    c.decode ((c.encode a).take k) = none := by
  apply c.decode_short (List.take_append_drop k (c.encode a))
  intro hnil
  have hlen : (c.encode a).length ≤ k := List.drop_eq_nil_iff.mp hnil
  omega

end Laws

/-! ## §2. Bytes and numbers. -/

/-- One byte as it is. -/
def byte : Codec UInt8 where
  encode b := [b]
  decode
    | [] => none
    | b :: rest => some (b, rest)
  decode_encode _ := rfl
  decode_append bytes a rest tail h := by
    cases bytes with
    | nil => cases h
    | cons b bs => cases h; rfl

/-- Seven bits a byte, least significant first; the top bit says that another byte follows. -/
def encodeVarint (n : ℕ) : Bytes :=
  if n < 128 then [UInt8.ofNat n] else UInt8.ofNat (n % 128 + 128) :: encodeVarint (n / 128)
termination_by n
decreasing_by omega

def decodeVarint : Bytes → Option (ℕ × Bytes)
  | [] => none
  | b :: bs =>
    if b.toNat < 128 then some (b.toNat, bs)
    else (decodeVarint bs).map fun r => (b.toNat - 128 + 128 * r.1, r.2)

theorem decodeVarint_encodeVarint (n : ℕ) : decodeVarint (encodeVarint n) = some (n, []) := by
  induction n using Nat.strongRecOn with
  | ind n ih =>
    unfold encodeVarint
    by_cases hn : n < 128
    · have hb : (UInt8.ofNat n).toNat = n := by
        rw [UInt8.toNat_ofNat']
        omega
      rw [if_pos hn, decodeVarint, if_pos (by omega), hb]
    · have hb : (UInt8.ofNat (n % 128 + 128)).toNat = n % 128 + 128 := by
        rw [UInt8.toNat_ofNat']
        omega
      rw [if_neg hn, decodeVarint, if_neg (by omega), ih (n / 128) (by omega), hb]
      simp only [Option.map_some, Option.some.injEq, Prod.mk.injEq, and_true]
      omega

theorem decodeVarint_append (bytes : Bytes) : ∀ (n : ℕ) (rest tail : Bytes),
    decodeVarint bytes = some (n, rest) →
      decodeVarint (bytes ++ tail) = some (n, rest ++ tail) := by
  induction bytes with
  | nil => intro n rest tail h; cases h
  | cons b bs ih =>
    intro n rest tail h
    rw [decodeVarint] at h
    rw [List.cons_append, decodeVarint]
    by_cases hb : b.toNat < 128
    · rw [if_pos hb] at h ⊢
      cases h
      rfl
    · rw [if_neg hb] at h ⊢
      obtain ⟨⟨m, rest'⟩, hm, he⟩ := Option.map_eq_some_iff.mp h
      cases he
      rw [ih m rest' tail hm]
      rfl

def varint : Codec ℕ where
  encode := encodeVarint
  decode := decodeVarint
  decode_encode := decodeVarint_encodeVarint
  decode_append := decodeVarint_append

/-! ## §3. Combinators. -/

section Combinators

variable {α β : Type*}

/-- One value after the other. -/
def pair (c : Codec α) (d : Codec β) : Codec (α × β) where
  encode x := c.encode x.1 ++ d.encode x.2
  decode bytes := (c.decode bytes).bind fun x => (d.decode x.2).map fun y => ((x.1, y.1), y.2)
  decode_encode x := by
    rw [c.decode_front]
    show (d.decode (d.encode x.2)).map _ = _
    rw [d.decode_encode]
    rfl
  decode_append bytes x rest tail h := by
    obtain ⟨⟨a, mid⟩, ha, h⟩ := Option.bind_eq_some_iff.mp h
    obtain ⟨⟨b, rest'⟩, hb, he⟩ := Option.map_eq_some_iff.mp h
    cases he
    rw [c.decode_append bytes a mid tail ha]
    show (d.decode (mid ++ tail)).map _ = _
    rw [d.decode_append mid b _ tail hb]
    rfl

/-- Read and write `α` as `β`; `ofRaw` may refuse a `β` that no `α` is written as. -/
def via (c : Codec β) (toRaw : α → β) (ofRaw : β → Option α)
    (law : ∀ a, ofRaw (toRaw a) = some a) : Codec α where
  encode a := c.encode (toRaw a)
  decode bytes := (c.decode bytes).bind fun x => (ofRaw x.1).map fun a => (a, x.2)
  decode_encode a := by
    rw [c.decode_encode]
    show (ofRaw (toRaw a)).map _ = _
    rw [law]
    rfl
  decode_append bytes a rest tail h := by
    obtain ⟨⟨b, mid⟩, hb, h⟩ := Option.bind_eq_some_iff.mp h
    obtain ⟨a', ha, he⟩ := Option.map_eq_some_iff.mp h
    cases he
    rw [c.decode_append bytes b _ tail hb]
    show (ofRaw b).map _ = _
    rw [ha]
    rfl

/-- Read `n` values. -/
def decodeMany (c : Codec α) : ℕ → Bytes → Option (List α × Bytes)
  | 0, bytes => some ([], bytes)
  | n + 1, bytes =>
    (c.decode bytes).bind fun x => (c.decodeMany n x.2).map fun y => (x.1 :: y.1, y.2)

theorem decodeMany_flatMap (c : Codec α) (l : List α) :
    c.decodeMany l.length (l.flatMap c.encode) = some (l, []) := by
  induction l with
  | nil => rfl
  | cons a l ih =>
    show (c.decode _).bind _ = _
    rw [List.flatMap_cons, c.decode_front]
    show (c.decodeMany l.length (l.flatMap c.encode)).map _ = _
    rw [ih]
    rfl

theorem decodeMany_append (c : Codec α) (n : ℕ) : ∀ (bytes : Bytes) (l : List α)
    (rest tail : Bytes), c.decodeMany n bytes = some (l, rest) →
      c.decodeMany n (bytes ++ tail) = some (l, rest ++ tail) := by
  induction n with
  | zero => intro bytes l rest tail h; cases h; rfl
  | succ n ih =>
    intro bytes l rest tail h
    obtain ⟨⟨a, mid⟩, ha, h⟩ := Option.bind_eq_some_iff.mp h
    obtain ⟨⟨l', rest'⟩, hl, he⟩ := Option.map_eq_some_iff.mp h
    cases he
    show (c.decode _).bind _ = _
    rw [c.decode_append bytes a mid tail ha]
    show (c.decodeMany n (mid ++ tail)).map _ = _
    rw [ih mid l' _ tail hl]
    rfl

/-- The number of values, then the values. -/
def list (c : Codec α) : Codec (List α) where
  encode l := varint.encode l.length ++ l.flatMap c.encode
  decode bytes := (varint.decode bytes).bind fun x => c.decodeMany x.1 x.2
  decode_encode l := by
    rw [varint.decode_front]
    exact c.decodeMany_flatMap l
  decode_append bytes l rest tail h := by
    obtain ⟨⟨n, mid⟩, hn, h⟩ := Option.bind_eq_some_iff.mp h
    rw [varint.decode_append bytes n mid tail hn]
    exact c.decodeMany_append n mid l rest tail h

/-- A byte 0, or a byte 1 and the value. -/
def option (c : Codec α) : Codec (Option α) where
  encode
    | none => [0]
    | some a => 1 :: c.encode a
  decode
    | [] => none
    | b :: bytes =>
      if b = 0 then some (none, bytes)
      else if b = 1 then (c.decode bytes).map fun x => (some x.1, x.2)
      else none
  decode_encode o := by
    cases o with
    | none => rfl
    | some a =>
      show (if (1 : UInt8) = 0 then _ else if (1 : UInt8) = 1 then _ else none) = _
      rw [if_neg (by decide), if_pos rfl, c.decode_encode]
      rfl
  decode_append bytes o rest tail h := by
    cases bytes with
    | nil => cases h
    | cons b bytes =>
      show (if b = 0 then _ else if b = 1 then _ else none) = _
      by_cases h0 : b = 0
      · simp only [if_pos h0] at h ⊢
        cases h
        rfl
      · simp only [if_neg h0] at h ⊢
        by_cases h1 : b = 1
        · simp only [if_pos h1] at h ⊢
          obtain ⟨⟨a, rest'⟩, ha, he⟩ := Option.map_eq_some_iff.mp h
          cases he
          show (c.decode (bytes ++ tail)).map _ = _
          rw [c.decode_append bytes a _ tail ha]
          rfl
        · simp only [if_neg h1] at h
          cases h

end Combinators

/-! ## §4. Tagged unions: the number of the variant, then its fields. -/

/-- How one variant is written, and which values are of it. -/
structure Variant (α : Type*) where
  {β : Type}
  codec : Codec β
  make : β → α
  view : α → Option β
  make_view : ∀ a b, view a = some b → make b = a

section Union

variable {α : Type*}

/-- No bytes. -/
def nothing : Codec Unit where
  encode _ := []
  decode bytes := some ((), bytes)
  decode_encode _ := rfl
  decode_append bytes a rest tail h := by
    cases h
    rfl

/-- A variant without fields. -/
def Variant.bare [DecidableEq α] (x : α) : Variant α where
  codec := nothing
  make _ := x
  view a := if a = x then some () else none
  make_view a b h := by
    by_cases he : a = x
    · exact he.symm
    · rw [if_neg he] at h
      cases h

/-- Write `a` as the first variant that it is of; `i` is the number of the first in the list. -/
def encodeAny : List (Variant α) → ℕ → α → Bytes
  | [], _, _ => []
  | v :: vs, i, a =>
    match v.view a with
    | some b => varint.encode i ++ v.codec.encode b
    | none => encodeAny vs (i + 1) a

theorem encodeAny_eq {vs : List (Variant α)} {a : α} (h : vs.any fun v => (v.view a).isSome)
    (i : ℕ) :
    ∃ k v b, vs[k]? = some v ∧ v.view a = some b ∧
      encodeAny vs i a = varint.encode (i + k) ++ v.codec.encode b := by
  induction vs generalizing i with
  | nil => cases h
  | cons v vs ih =>
    unfold encodeAny
    cases hview : v.view a with
    | some b => exact ⟨0, v, b, rfl, hview, rfl⟩
    | none =>
      have hrest : vs.any fun u => (u.view a).isSome := by
        rw [List.any_cons, hview] at h
        exact h
      obtain ⟨k, u, b, hk, hb, henc⟩ := ih hrest (i + 1)
      refine ⟨k + 1, u, b, hk, hb, ?_⟩
      rw [henc, show i + 1 + k = i + (k + 1) by omega]

/-- The variants in the order of their numbers; every value is of one of them. -/
def union (vs : List (Variant α)) (cover : ∀ a, vs.any fun v => (v.view a).isSome) : Codec α where
  encode a := encodeAny vs 0 a
  decode bytes := (varint.decode bytes).bind fun x =>
    vs[x.1]?.bind fun v => (v.codec.decode x.2).map fun y => (v.make y.1, y.2)
  decode_encode a := by
    obtain ⟨k, v, b, hk, hb, henc⟩ := encodeAny_eq (cover a) 0
    rw [henc, Nat.zero_add, varint.decode_front]
    show vs[k]?.bind _ = _
    rw [hk]
    show (v.codec.decode (v.codec.encode b)).map _ = _
    rw [v.codec.decode_encode]
    show some (v.make b, []) = _
    rw [v.make_view a b hb]
  decode_append bytes a rest tail h := by
    obtain ⟨⟨n, mid⟩, hn, h⟩ := Option.bind_eq_some_iff.mp h
    obtain ⟨v, hv, h⟩ := Option.bind_eq_some_iff.mp h
    obtain ⟨⟨b, rest'⟩, hb, he⟩ := Option.map_eq_some_iff.mp h
    cases he
    rw [varint.decode_append bytes n mid tail hn]
    show vs[n]?.bind _ = _
    rw [hv]
    show (v.codec.decode (mid ++ tail)).map _ = _
    rw [v.codec.decode_append mid b _ tail hb]
    rfl

end Union

end Codec

end Cas.Lib
