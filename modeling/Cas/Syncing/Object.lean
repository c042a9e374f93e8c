/-
  Cas.Syncing.Object — the object store (`syncing/object.rs`).

  An object is a regular file under `.sandbox/data/objects`, named by its
  id.  The store hands out ids from one shared counter; an id is burnt
  even when the file behind it cannot be written.
-/
import Cas.Lib.Bytes
import Cas.Syncing.Proto

namespace Cas.Syncing

open Cas.Lib

/-! ## §1. Object paths. -/

/-- `format!("{:0w$x}", n)`, for `n < 16 ^ w`. -/
def hexPad : Nat → Nat → List Char
  | 0, _ => []
  | w + 1, n => hexPad w (n / 16) ++ [Nat.digitChar (n % 16)]

/-- `objects/<low byte>/<all sixteen digits>`. -/
def objectPath (id : UInt64) : ObjectPath where
  shard := hexPad 2 (id &&& 0xff).toNat
  hex := hexPad 16 id.toNat

private theorem digitChar_inj {a b : Nat} (ha : a < 16) (hb : b < 16)
    (h : Nat.digitChar a = Nat.digitChar b) : a = b := by
  have key : ∀ x : Fin 16, ∀ y : Fin 16, Nat.digitChar x = Nat.digitChar y → x = y := by decide
  exact congrArg Fin.val (key ⟨a, ha⟩ ⟨b, hb⟩ h)

/-- Below `16 ^ w` the padded digits determine the number. -/
theorem hexPad_inj {w a b : Nat} (ha : a < 16 ^ w) (hb : b < 16 ^ w)
    (h : hexPad w a = hexPad w b) : a = b := by
  induction w generalizing a b with
  | zero =>
    rw [Nat.pow_zero] at ha hb
    omega
  | succ w ih =>
    obtain ⟨hinit, hlast⟩ := List.append_inj' h rfl
    rw [Nat.pow_succ] at ha hb
    have hdiv : a / 16 = b / 16 := ih (by omega) (by omega) hinit
    have hmod : a % 16 = b % 16 :=
      digitChar_inj (Nat.mod_lt _ (by omega)) (Nat.mod_lt _ (by omega)) (List.singleton_inj.mp hlast)
    omega

/-- Two ids never name one object file. -/
theorem objectPath_injective : Function.Injective objectPath := by
  intro a b h
  unfold objectPath at h
  have hhex : hexPad 16 a.toNat = hexPad 16 b.toNat := (ObjectPath.mk.inj h).2
  exact UInt64.toNat_inj.mp (hexPad_inj a.toNat_lt b.toNat_lt hhex)

/-! ## §2. The store. -/

/-- How the file operations behind one allocation end. -/
inductive StoreIo
  | ok
  /-- `File::create` fails: no file appears. -/
  | createFails (err : String)
  /-- The file is created, then writing or syncing it fails after `n` bytes. -/
  | writeFails (n : Nat) (err : String)
  deriving DecidableEq

structure ObjectStore where
  nextId : UInt64
  files : FMap ObjectPath Bytes
  deriving DecidableEq

namespace ObjectStore

/-- `ObjectError::Io` as text. -/
def ioError (err : String) : String := "IO error: " ++ err

def pathFor (_ : ObjectStore) (id : UInt64) : ObjectPath := objectPath id

def «exists» (store : ObjectStore) (id : UInt64) : Bool :=
  (store.files.lookup (objectPath id)).isSome

def put (store : ObjectStore) (io : StoreIo) (data : Bytes) :
    Except String UInt64 × ObjectStore :=
  let id := store.nextId
  let store := { store with nextId := store.nextId + 1 }
  match io with
  | .createFails err => (.error (ioError err), store)
  | .writeFails n err =>
    (.error (ioError err), { store with files := store.files.insert (objectPath id) (data.take n) })
  | .ok => (.ok id, { store with files := store.files.insert (objectPath id) data })

def allocEmpty (store : ObjectStore) (io : StoreIo) : Except String UInt64 × ObjectStore :=
  store.put io []

/-- `source` is what `fs::copy` finds at the source path.  Unlike `put`, a failed copy removes
what it left behind. -/
def putCopyFrom (store : ObjectStore) (io : StoreIo) (source : Except String Bytes) :
    Except String UInt64 × ObjectStore :=
  let id := store.nextId
  let store := { store with nextId := store.nextId + 1 }
  let cleanup (err : String) : Except String UInt64 × ObjectStore :=
    (.error (ioError err), { store with files := store.files.erase (objectPath id) })
  match source with
  | .error err => cleanup err
  | .ok data =>
    match io with
    | .createFails err => cleanup err
    | .writeFails _ err => cleanup err
    | .ok => (.ok id, { store with files := store.files.insert (objectPath id) data })

/-! ## §3. What an allocation does. -/

/-- Either the allocation succeeds, and the file of the old `nextId` holds the data; or it fails,
and only that file may differ.  Both burn the id. -/
structure Allocates (store : ObjectStore) (data : Option Bytes)
    (r : Except String UInt64 × ObjectStore) : Prop where
  burns : r.2.nextId = store.nextId + 1
  frame : ∀ p, p ≠ objectPath store.nextId → r.2.files.lookup p = store.files.lookup p
  onOk : ∀ id, r.1 = .ok id → id = store.nextId ∧ ∃ d, data = some d ∧
    r.2.files.lookup (objectPath id) = some d

private theorem lookup_insert_frame {store : ObjectStore} {q : ObjectPath} {d : Bytes} :
    ∀ p, p ≠ q → (store.files.insert q d).lookup p = store.files.lookup p :=
  fun _ h => Finmap.lookup_insert_of_ne _ h

theorem allocates_put (store : ObjectStore) (io : StoreIo) (data : Bytes) :
    Allocates store (some data) (store.put io data) := by
  cases io with
  | ok =>
    refine ⟨rfl, lookup_insert_frame, fun id h => ?_⟩
    obtain rfl : store.nextId = id := by simpa [put] using h
    exact ⟨rfl, data, rfl, Finmap.lookup_insert _⟩
  | createFails err => exact ⟨rfl, fun _ _ => rfl, fun id h => by simp [put] at h⟩
  | writeFails n err => exact ⟨rfl, lookup_insert_frame, fun id h => by simp [put] at h⟩

theorem allocates_putCopyFrom (store : ObjectStore) (io : StoreIo) (source : Except String Bytes) :
    Allocates store source.toOption (store.putCopyFrom io source) := by
  have hframe : ∀ p, p ≠ objectPath store.nextId →
      (store.files.erase (objectPath store.nextId)).lookup p = store.files.lookup p :=
    fun _ h => Finmap.lookup_erase_ne h
  cases source with
  | error err => exact ⟨rfl, hframe, fun id h => by simp [putCopyFrom] at h⟩
  | ok data =>
    cases io with
    | ok =>
      refine ⟨rfl, lookup_insert_frame, fun id h => ?_⟩
      obtain rfl : store.nextId = id := by simpa [putCopyFrom] using h
      exact ⟨rfl, data, rfl, Finmap.lookup_insert _⟩
    | createFails err => exact ⟨rfl, hframe, fun id h => by simp [putCopyFrom] at h⟩
    | writeFails n err => exact ⟨rfl, hframe, fun id h => by simp [putCopyFrom] at h⟩

end ObjectStore

/-- The file-name test of the source: the low byte is the shard. -/
example : (objectPath 0x100ff).shard = "ff".toList
    ∧ (objectPath 0x100ff).hex = "00000000000100ff".toList := by decide

end Cas.Syncing
