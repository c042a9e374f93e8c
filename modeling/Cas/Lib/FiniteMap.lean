/-
  Cas.Lib.FiniteMap — finite maps, multimaps and enumerations.

  Mathlib's `Finmap` is the extensional finite map.  This file fixes the
  non-dependent case, gives its `lookup` one rewrite rule per update, and
  adds what a store built from concurrent hash maps needs:

    • `mapAt`/`pushAt`/`retainAt` — a map from keys to lists (a multimap)
      that never keeps an empty list,
    • `Enumerates l P` — the list `l` holds exactly the `x` with `P x`,
      each once,
    • `IterOrder` — an arbitrary iteration order of a hash map,
    • `sortedKeys` — the iteration order of an ordered map.
-/
import Mathlib.Data.Finmap
import Mathlib.Data.List.Sort
import Mathlib.Data.List.Lex
import Mathlib.Data.Finset.Sort

namespace Cas.Lib

/-! ## §1. Non-dependent finite maps. -/

/-- Finite maps from `K` to `V`. -/
abbrev FMap (K V : Type*) := Finmap fun _ : K => V

section FMap

variable {K V : Type*} [DecidableEq K]

theorem lookup_insert_ite (m : FMap K V) (k k' : K) (v : V) :
    (m.insert k v).lookup k' = if k' = k then some v else m.lookup k' := by
  by_cases h : k' = k
  · subst h; simp
  · rw [Finmap.lookup_insert_of_ne _ h, if_neg h]

/-- Putting back what is there. -/
theorem insert_lookup {m : FMap K V} {k : K} {v : V} (h : m.lookup k = some v) :
    m.insert k v = m := by
  apply Finmap.ext_lookup
  intro k'
  rw [lookup_insert_ite]
  split
  · next hk => rw [hk, h]
  · rfl

theorem lookup_erase_ite (m : FMap K V) (k k' : K) :
    (m.erase k).lookup k' = if k' = k then none else m.lookup k' := by
  by_cases h : k' = k
  · subst h; simp
  · rw [Finmap.lookup_erase_ne h, if_neg h]

theorem lookup_singleton_eq_some {k k' : K} {v v' : V} :
    (Finmap.singleton k v : FMap K V).lookup k' = some v' ↔ k' = k ∧ v = v' := by
  constructor
  · intro h
    have hmem : k' ∈ (Finmap.singleton k v : FMap K V) := Finmap.mem_of_lookup_eq_some h
    have hk : k' = k := (Finmap.mem_singleton _ _ _).mp hmem
    subst hk
    rw [Finmap.lookup_singleton_eq] at h
    exact ⟨rfl, Option.some.inj h⟩
  · rintro ⟨rfl, rfl⟩
    exact Finmap.lookup_singleton_eq

theorem keys_insert (m : FMap K V) (k : K) (v : V) : (m.insert k v).keys = insert k m.keys := by
  ext k'
  rw [Finmap.mem_keys, Finmap.mem_insert, Finset.mem_insert, Finmap.mem_keys]

/-- Build a finite map from a function, on a finite set of keys. -/
def collect (s : Finset K) (f : K → Option V) : FMap K V :=
  Finmap.keysLookupEquiv.symm
    ⟨(s.filter fun k => (f k).isSome, fun k => if k ∈ s then f k else none), by
      intro k
      by_cases h : k ∈ s <;> simp [h]⟩

@[simp] theorem lookup_collect (s : Finset K) (f : K → Option V) (k : K) :
    (collect s f).lookup k = if k ∈ s then f k else none := by
  simp [collect]

/-- Insert a list of entries with distinct keys. -/
theorem lookup_foldl_insert {I : Type*} (key : I → K) (val : I → V) (l : List I) :
    ∀ (m : FMap K V), (l.map key).Nodup → ∀ k,
      (l.foldl (fun m x => m.insert (key x) (val x)) m).lookup k
        = ((l.find? fun x => key x = k).map val).or (m.lookup k) := by
  induction l with
  | nil => intro m _ k; rfl
  | cons x l ih =>
    intro m hnd k
    rw [List.map_cons, List.nodup_cons] at hnd
    rw [List.foldl_cons, ih _ hnd.2, List.find?_cons, lookup_insert_ite]
    by_cases hx : key x = k
    · have hnone : (l.find? fun y => key y = k) = none := by
        rw [List.find?_eq_none]
        intro y hy hk
        apply hnd.1
        rw [hx, ← of_decide_eq_true hk]
        exact List.mem_map_of_mem hy
      rw [hnone, if_pos hx.symm, decide_eq_true hx]
      rfl
    · rw [if_neg (Ne.symm hx), decide_eq_false hx]

/-- How many entries satisfy `f`. -/
def countIf (f : V → Bool) (m : FMap K V) : ℕ :=
  (m.keys.filter fun k => (m.lookup k).any f).card

@[simp] theorem countIf_empty (f : V → Bool) : countIf f (∅ : FMap K V) = 0 := rfl

theorem countIf_pos {f : V → Bool} {m : FMap K V} :
    0 < countIf f m ↔ ∃ k v, m.lookup k = some v ∧ f v = true := by
  unfold countIf
  rw [Finset.card_pos]
  constructor
  · intro h
    obtain ⟨k, hk⟩ := h
    have hany := (Finset.mem_filter.mp hk).2
    cases hv : m.lookup k with
    | none => rw [hv] at hany; cases hany
    | some v => rw [hv] at hany; exact ⟨k, v, hv, hany⟩
  · intro h
    obtain ⟨k, v, hv, hf⟩ := h
    refine ⟨k, Finset.mem_filter.mpr ⟨?_, by rw [hv]; exact hf⟩⟩
    exact Finmap.mem_keys.mpr (Finmap.mem_of_lookup_eq_some hv)

/-- An insert takes the old value out of the count and puts the new one in. -/
theorem countIf_insert (f : V → Bool) (m : FMap K V) (k : K) (v : V) :
    countIf f (m.insert k v) + ((m.lookup k).any f).toNat = countIf f m + (f v).toNat := by
  -- the other keys count as before
  let others := (m.keys.erase k).filter fun k' => (m.lookup k').any f
  have hsplit : ∀ (s : Finset K) (g : K → Bool), k ∈ s →
      (s.filter fun k' => g k').card = ((s.erase k).filter fun k' => g k').card + (g k).toNat := by
    intro s g hk
    rw [← Finset.insert_erase hk, Finset.filter_insert, Finset.erase_insert_eq_erase,
      Finset.erase_idem]
    cases hg : g k with
    | false => rfl
    | true => exact Finset.card_insert_of_notMem (by simp)
  have hnew : countIf f (m.insert k v) = others.card + (f v).toNat := by
    unfold countIf
    rw [keys_insert, hsplit _ _ (Finset.mem_insert_self k _), Finmap.lookup_insert,
      Finset.erase_insert_eq_erase]
    congr 2
    refine Finset.filter_congr fun k' hk' => ?_
    rw [Finmap.lookup_insert_of_ne _ (Finset.ne_of_mem_erase hk')]
  have hold : countIf f m = others.card + ((m.lookup k).any f).toNat := by
    unfold countIf
    by_cases hk : k ∈ m.keys
    · exact hsplit _ _ hk
    · have hnone : m.lookup k = none := Finmap.lookup_eq_none.mpr fun h => hk (Finmap.mem_keys.mpr h)
      show _ = ((m.keys.erase k).filter _).card + _
      rw [hnone, Finset.erase_eq_of_notMem hk]
      rfl
  omega

end FMap

/-! ## §2. Enumerations: a list that holds a set, each element once. -/

/-- `l` lists exactly the elements satisfying `P`, each once. -/
def Enumerates {α : Type*} (l : List α) (P : α → Prop) : Prop :=
  l.Nodup ∧ ∀ x, x ∈ l ↔ P x

namespace Enumerates

variable {α β : Type*} {l : List α} {P Q : α → Prop}

theorem nil (h : ∀ x, ¬ P x) : Enumerates [] P :=
  ⟨List.nodup_nil, fun x => by simp [h x]⟩

theorem eq_nil_iff (h : Enumerates l P) : l = [] ↔ ∀ x, ¬ P x := by
  rw [List.eq_nil_iff_forall_not_mem]
  exact forall_congr' fun x => not_congr (h.2 x)

theorem congr (h : Enumerates l P) (hPQ : ∀ x, P x ↔ Q x) : Enumerates l Q :=
  ⟨h.1, fun x => (h.2 x).trans (hPQ x)⟩

theorem snoc (h : Enumerates l P) {a : α} (ha : ¬ P a) :
    Enumerates (l ++ [a]) fun x => P x ∨ x = a := by
  refine ⟨?_, fun x => by simp [h.2 x]⟩
  refine List.nodup_append.mpr ⟨h.1, by simp, ?_⟩
  rintro x hx _ hy rfl
  rw [List.mem_singleton] at hy
  exact ha (hy ▸ (h.2 x).mp hx)

theorem filter (h : Enumerates l P) (p : α → Bool) :
    Enumerates (l.filter p) fun x => P x ∧ p x = true :=
  ⟨h.1.filter p, fun x => by simp [h.2 x]⟩

theorem perm {l' : List α} (h : Enumerates l P) (h' : l'.Perm l) : Enumerates l' P :=
  ⟨h'.nodup_iff.mpr h.1, fun x => h'.mem_iff.trans (h.2 x)⟩

theorem map (h : Enumerates l P) {f : α → β} (hf : ∀ x y, P x → P y → f x = f y → x = y) :
    Enumerates (l.map f) fun b => ∃ x, P x ∧ f x = b := by
  refine ⟨?_, fun b => ?_⟩
  · exact h.1.map_on fun x hx y hy => hf x y ((h.2 x).mp hx) ((h.2 y).mp hy)
  · simp only [List.mem_map, h.2]

/-- List the elements together with what `f` finds at them. -/
theorem filterMap_pair (h : Enumerates l P) (f : α → Option β) :
    Enumerates (l.filterMap fun x => (f x).map fun y => (x, y))
      fun xy => P xy.1 ∧ f xy.1 = some xy.2 := by
  constructor
  · refine List.Nodup.filterMap ?_ h.1
    intro x x' xy hx hx'
    obtain ⟨y, _, rfl⟩ := Option.map_eq_some_iff.mp (Option.mem_def.mp hx)
    obtain ⟨y', _, e⟩ := Option.map_eq_some_iff.mp (Option.mem_def.mp hx')
    exact (congrArg Prod.fst e).symm
  · intro xy
    rw [List.mem_filterMap]
    constructor
    · intro hx
      obtain ⟨x, hmem, hx⟩ := hx
      obtain ⟨y, hy, rfl⟩ := Option.map_eq_some_iff.mp hx
      exact ⟨(h.2 x).mp hmem, hy⟩
    · intro hx
      exact ⟨xy.1, (h.2 xy.1).mpr hx.1, by rw [hx.2]; rfl⟩

/-- Look an element up by a key that is unique among the elements. -/
theorem find?_eq_some (h : Enumerates l P) {p : α → Bool} {a : α} (ha : P a) (hp : p a = true)
    (huniq : ∀ x, P x → p x = true → x = a) : l.find? p = some a := by
  cases hf : l.find? p with
  | none => exact absurd hp (List.find?_eq_none.mp hf a ((h.2 a).mpr ha))
  | some x =>
    rw [huniq x ((h.2 x).mp (List.mem_of_find?_eq_some hf)) (List.find?_some hf)]

theorem find?_eq_none (h : Enumerates l P) {p : α → Bool} (hno : ∀ x, P x → ¬ p x = true) :
    l.find? p = none :=
  List.find?_eq_none.mpr fun x hx => hno x ((h.2 x).mp hx)

/-- Two enumerations of one set are permutations of each other. -/
theorem perm_of {l' : List α} (h : Enumerates l P) (h' : Enumerates l' P) : l.Perm l' :=
  (List.perm_ext_iff_of_nodup h.1 h'.1).mpr fun x => (h.2 x).trans (h'.2 x).symm

end Enumerates

/-! ## §3. Multimaps without empty lists. -/

section Multimap

variable {K V : Type*} [DecidableEq K]

/-- The values stored under `k`. -/
def mapAt (m : FMap K (List V)) (k : K) : List V := (m.lookup k).getD []

/-- `entry(k).or_insert_with(Vec::new).push(v)`. -/
def pushAt (m : FMap K (List V)) (k : K) (v : V) : FMap K (List V) :=
  m.insert k (mapAt m k ++ [v])

/-- Keep the values under `k` that satisfy `p`; drop the key when none is left. -/
def retainAt (m : FMap K (List V)) (k : K) (p : V → Bool) : FMap K (List V) :=
  match m.lookup k with
  | none => m
  | some vs => if (vs.filter p).isEmpty then m.erase k else m.insert k (vs.filter p)

/-- No key holds an empty list. -/
def NoEmpty (m : FMap K (List V)) : Prop := ∀ k, m.lookup k ≠ some []

theorem lookup_eq_none_iff {m : FMap K (List V)} (h : NoEmpty m) (k : K) :
    m.lookup k = none ↔ mapAt m k = [] := by
  unfold mapAt
  cases hk : m.lookup k with
  | none => simp
  | some vs =>
    have : vs ≠ [] := fun e => h k (e ▸ hk)
    simp [this]

theorem mapAt_pushAt (m : FMap K (List V)) (k k' : K) (v : V) :
    mapAt (pushAt m k v) k' = if k' = k then mapAt m k ++ [v] else mapAt m k' := by
  unfold pushAt
  rw [mapAt, lookup_insert_ite]
  split <;> rfl

theorem NoEmpty.pushAt {m : FMap K (List V)} (h : NoEmpty m) (k : K) (v : V) :
    NoEmpty (pushAt m k v) := by
  intro k'
  unfold Cas.Lib.pushAt
  rw [lookup_insert_ite]
  split
  · simp
  · exact h k'

/-- `retainAt` as a lookup: it touches `k` only. -/
theorem lookup_retainAt (m : FMap K (List V)) (k k' : K) (p : V → Bool) :
    (retainAt m k p).lookup k'
      = if k' = k ∧ (mapAt m k).filter p = [] then none
        else if k' = k then some ((mapAt m k).filter p) else m.lookup k' := by
  unfold retainAt mapAt
  cases hk : m.lookup k with
  | none =>
    by_cases hkk : k' = k
    · subst hkk; simp [hk]
    · simp [hkk]
  | some vs =>
    by_cases he : vs.filter p = []
    · by_cases hkk : k' = k <;>
        simp only [he, hkk, List.isEmpty_nil, if_true, lookup_erase_ite, Option.getD_some,
          true_and, false_and, if_false]
    · have he' : (vs.filter p).isEmpty = false := by simpa [List.isEmpty_eq_false_iff] using he
      by_cases hkk : k' = k <;>
        simp only [he', hkk, he, Bool.false_eq_true, if_false, if_true, lookup_insert_ite,
          Option.getD_some, and_false]

theorem mapAt_retainAt (m : FMap K (List V)) (k k' : K) (p : V → Bool) :
    mapAt (retainAt m k p) k' = if k' = k then (mapAt m k).filter p else mapAt m k' := by
  rw [mapAt, lookup_retainAt]
  by_cases hkk : k' = k
  · by_cases he : (mapAt m k).filter p = [] <;> simp only [hkk, he, if_true, if_false,
      and_self, Option.getD_none, Option.getD_some, and_false]
  · simp only [hkk, false_and, if_false]
    rfl

theorem NoEmpty.retainAt {m : FMap K (List V)} (h : NoEmpty m) (k : K) (p : V → Bool) :
    NoEmpty (retainAt m k p) := by
  intro k' e
  rw [lookup_retainAt] at e
  split at e
  · exact absurd e (by simp)
  · next hne =>
    split at e
    · next hkk => exact hne ⟨hkk, Option.some.inj e⟩
    · exact h k' e

theorem mapAt_erase (m : FMap K (List V)) (k k' : K) :
    mapAt (m.erase k) k' = if k' = k then [] else mapAt m k' := by
  unfold mapAt
  rw [lookup_erase_ite]
  split <;> rfl

theorem NoEmpty.erase {m : FMap K (List V)} (h : NoEmpty m) (k : K) : NoEmpty (m.erase k) := by
  intro k'
  rw [lookup_erase_ite]
  split
  · simp
  · exact h k'

theorem NoEmpty.empty : NoEmpty (∅ : FMap K (List V)) := fun k => by simp

@[simp] theorem mapAt_empty (k : K) : mapAt (∅ : FMap K (List V)) k = [] := by simp [mapAt]

end Multimap

/-! ## §4. Iteration orders. -/

/-- An iteration order of hash maps: some enumeration of each finite key set. -/
structure IterOrder (K : Type*) where
  list : Finset K → List K
  enumerates : ∀ s, Enumerates (list s) fun k => k ∈ s

section Sorted

variable {K : Type*} [LinearOrder K]

/-- The keys in increasing order: the iteration order of an ordered map. -/
def sortedKeys (s : Finset K) : List K :=
  s.val.liftOn (fun l => l.insertionSort (· ≤ ·)) fun _ _ h =>
    ((List.perm_insertionSort _ _).trans (h.trans (List.perm_insertionSort _ _).symm)).eq_of_pairwise
      (fun _ _ _ _ => le_antisymm) (List.pairwise_insertionSort _ _) (List.pairwise_insertionSort _ _)

theorem enumerates_sortedKeys (s : Finset K) : Enumerates (sortedKeys s) fun k => k ∈ s := by
  obtain ⟨m, hm⟩ := s
  induction m using Quotient.inductionOn with
  | h l =>
    have hp : (l.insertionSort (· ≤ ·)).Perm l := List.perm_insertionSort _ _
    exact ⟨hp.nodup_iff.mpr hm, fun k => hp.mem_iff⟩

@[simp] theorem mem_sortedKeys {s : Finset K} {k : K} : k ∈ sortedKeys s ↔ k ∈ s :=
  (enumerates_sortedKeys s).2 k

theorem pairwise_sortedKeys (s : Finset K) : (sortedKeys s).Pairwise (· ≤ ·) := by
  obtain ⟨m, hm⟩ := s
  induction m using Quotient.inductionOn with
  | h l => exact List.pairwise_insertionSort _ _

/-- Only the keys that `f` keeps matter. -/
theorem filterMap_sortedKeys_congr {V : Type*} {s s' : Finset K} {f : K → Option V}
    (hs : ∀ k, (f k).isSome = true → k ∈ s) (hs' : ∀ k, (f k).isSome = true → k ∈ s') :
    (sortedKeys s).filterMap f = (sortedKeys s').filterMap f := by
  have hkept : ∀ t : Finset K, (sortedKeys t).filterMap f
      = ((sortedKeys t).filter fun k => (f k).isSome).filterMap f := by
    intro t
    rw [List.filterMap_filter]
    apply List.filterMap_congr
    intro k _
    cases f k <;> rfl
  have henum : ∀ {t : Finset K}, (∀ k, (f k).isSome = true → k ∈ t) →
      Enumerates ((sortedKeys t).filter fun k => (f k).isSome) fun k => (f k).isSome = true :=
    fun ht => ((enumerates_sortedKeys _).filter _).congr fun k => ⟨And.right, fun h => ⟨ht k h, h⟩⟩
  rw [hkept s, hkept s']
  congr 1
  exact ((henum hs).perm_of (henum hs')).eq_of_pairwise (fun _ _ _ _ => le_antisymm)
    ((pairwise_sortedKeys s).filter _) ((pairwise_sortedKeys s').filter _)

/-- The order in which an ordered map iterates is one iteration order. -/
def IterOrder.sorted : IterOrder K := ⟨sortedKeys, enumerates_sortedKeys⟩

end Sorted

end Cas.Lib
