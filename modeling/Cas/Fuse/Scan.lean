/-
  Cas.Fuse.Scan — directory scans.

  A scan reads a directory call by call; each call starts at the offset of
  the last entry received.  `ReplyDirectory::add` answers `true` when an
  entry does not fit, and the loop of `readdir` takes that for success:
  it goes on after a failure and stops after the first entry added.

  Main results:
    • `readdir_fills_iff` — a reply is the longest run that fits exactly
      when that run has at most one entry; and a scan of a directory that
      stays as it is returns every entry once, in order, and ends.
-/
import Cas.Fuse.Observers
import Mathlib.Algebra.GroupWithZero.Nat

namespace Cas.Fuse

open Cas.Lib Cas.Host Cas.Syncing

/-! ## §1. The listing. -/

section Listing

variable {pol : Policy} {env : Env} {w : World} {ino : UInt64} {l : List Listed}

/-- The names of the visible children, in order. -/
def visibleNames (pol : Policy) (w : World) (dir : FsPath) : List Bytes :=
  (visibleChildren (readdirState pol w dir)).map fun child => child.1.bytes

theorem names_listing {dir : FsPath} (hdir : w.inodes.getPath ino = some dir)
    (h : listing pol w ino = some l) :
    l.map (fun e => e.2.2) = [46] :: [46, 46] :: visibleNames pol w dir := by
  unfold listing at h
  rw [hdir] at h
  obtain rfl := Option.some.inj h
  show [46] :: [46, 46] :: (numberChildren _ _).1.map (fun e => e.2.2) = _
  have hmap : ∀ t, (numberChildren t (visibleChildren (readdirState pol w dir))).1.map
      (fun e => e.2.2) = visibleNames pol w dir := by
    intro t
    have key := congrArg (List.map Prod.snd)
      (snd_numberChildren (visibleChildren (readdirState pol w dir)) t)
    rw [List.map_map, List.map_map] at key
    exact key
  rw [hmap]

end Listing

/-! ## §2. The reply. -/

/-- The room that entries take. -/
def listedSize (l : List Listed) : Nat := (l.map fun e => direntSize e.2.2).sum

/-- Consecutive entries from position `i` on, each with its position plus one as next offset. -/
def numbered : Nat → List Listed → List DirEntry
  | _, [] => []
  | i, (ino, kind, name) :: rest => { ino, offset := i + 1, kind, name } :: numbered (i + 1) rest

/-- `reply` holds the entries of `l`, the first at position `i`, as many as fit into `room`. -/
def LongestRun (room i : Nat) (l : List Listed) (reply : List DirEntry) : Prop :=
  ∃ n ≤ l.length, reply = numbered i (l.take n) ∧ listedSize (l.take n) ≤ room ∧
    ∀ m ≤ l.length, listedSize (l.take m) ≤ room → m ≤ n

/-- No two entries fit; and when the first does not fit, no entry does. -/
def OneFits (room : Nat) : List Listed → Prop
  | [] => True
  | first :: rest =>
    if direntSize first.2.2 ≤ room then
      ∀ second ∈ rest.head?, room < direntSize first.2.2 + direntSize second.2.2
    else ∀ e ∈ rest, room < direntSize e.2.2

theorem length_numbered (l : List Listed) : ∀ i, (numbered i l).length = l.length := by
  induction l with
  | nil => intro i; rfl
  | cons e rest ih =>
    intro i
    show (numbered (i + 1) rest).length + 1 = rest.length + 1
    rw [ih]

theorem fillReply_nil_iff {room : Nat} {l : List Listed} :
    ∀ {i : Nat}, fillReply room i l = [] ↔ ∀ e ∈ l, room < direntSize e.2.2 := by
  induction l with
  | nil => intro i; simp [fillReply]
  | cons e rest ih =>
    intro i
    obtain ⟨ino, kind, name⟩ := e
    unfold fillReply
    by_cases hfit : room < direntSize name
    · rw [if_pos hfit, ih, List.forall_mem_cons]
      exact ⟨fun h => ⟨hfit, h⟩, fun h => h.2⟩
    · rw [if_neg hfit, List.forall_mem_cons]
      exact ⟨fun h => absurd h (List.cons_ne_nil _ _), fun h => absurd h.1 hfit⟩

theorem listedSize_cons (e : Listed) (l : List Listed) :
    listedSize (e :: l) = direntSize e.2.2 + listedSize l := rfl

/-- **One reply.** -/
theorem longestRun_fillReply_iff {room i : Nat} {l : List Listed} :
    LongestRun room i l (fillReply room i l) ↔ OneFits room l := by
  cases l with
  | nil =>
    refine iff_of_true ⟨0, Nat.le_refl _, ?_, Nat.zero_le _, fun m hm _ => hm⟩ trivial
    simp [fillReply, numbered]
  | cons first rest =>
    obtain ⟨ino, kind, name⟩ := first
    show _ ↔ if direntSize name ≤ room then _ else _
    by_cases hfit : direntSize name ≤ room
    · -- the loop stops after the first entry
      have hreply : fillReply room i ((ino, kind, name) :: rest)
          = [{ ino, offset := i + 1, kind, name }] := by
        unfold fillReply
        rw [if_neg (Nat.not_lt.mpr hfit)]
      rw [if_pos hfit, hreply]
      constructor
      · intro h second hsecond
        obtain ⟨n, hn, hrun, -, hmax⟩ := h
        have hlen := congrArg List.length hrun
        rw [length_numbered, List.length_take, List.length_singleton] at hlen
        by_contra hroom
        cases rest with
        | nil => cases hsecond
        | cons e rest =>
          obtain rfl : e = second := Option.some.inj hsecond
          have htwo := hmax 2 (by simp) (by simpa [listedSize] using Nat.not_lt.mp hroom)
          omega
      · intro h
        refine ⟨1, by simp, rfl, by simpa [listedSize] using hfit, fun m hm hsize => ?_⟩
        by_contra hmore
        obtain ⟨k, rfl⟩ : ∃ k, m = k + 2 := ⟨m - 2, by omega⟩
        cases rest with
        | nil => simp at hm
        | cons e rest =>
          have hroom : room < direntSize name + direntSize e.2.2 := h e rfl
          rw [List.take_succ_cons, List.take_succ_cons, listedSize_cons, listedSize_cons] at hsize
          simp only at hsize
          omega
    · -- the loop passes over the first entry
      have hreply : fillReply room i ((ino, kind, name) :: rest) = fillReply room (i + 1) rest := by
        rw [fillReply]
        rw [if_pos (Nat.not_le.mp hfit)]
      rw [if_neg hfit, hreply, ← fillReply_nil_iff (i := i + 1)]
      constructor
      · intro h
        obtain ⟨n, -, hrun, hsize, -⟩ := h
        cases n with
        | zero => exact hrun
        | succ n =>
          rw [List.take_succ_cons, listedSize_cons] at hsize
          simp only at hsize
          omega
      · intro h
        refine ⟨0, Nat.zero_le _, h, Nat.zero_le _, fun m hm hsize => ?_⟩
        cases m with
        | zero => exact Nat.le_refl _
        | succ m =>
          rw [List.take_succ_cons, listedSize_cons] at hsize
          simp only at hsize
          omega

/-- With room for the entry at its offset a reply is just that entry. -/
theorem fillReply_one {room i : Nat} {e : Listed} {rest : List Listed}
    (hfit : direntSize e.2.2 ≤ room) :
    fillReply room i (e :: rest) = [{ ino := e.1, offset := i + 1, kind := e.2.1, name := e.2.2 }] := by
  obtain ⟨ino, kind, name⟩ := e
  unfold fillReply
  rw [if_neg (Nat.not_lt.mpr hfit)]

/-! ## §3. A directory that stays as it is. -/

/-- One call of a scan, with the world that it finds. -/
structure ScanCall where
  env : Env
  world : World
  capacity : Nat

/-- The replies of a scan, up to the first without an entry. -/
def scan (pol : Policy) (ino : UInt64) : Nat → List ScanCall → List (List DirEntry)
  | _, [] => []
  | offset, c :: calls =>
    match (serveFuse pol c.env c.world (.readdir ino offset c.capacity)).1 with
    | .directory entries =>
      entries :: match entries.getLast? with
        | some e => scan pol ino e.offset calls
        | none => []
    | _ => []

/-- The call finds the listing `l` and has room for any single entry. -/
structure ScanCall.Finds (pol : Policy) (ino : UInt64) (l : List Listed) (c : ScanCall) : Prop where
  quiet : c.env.faults = []
  listing : listing pol c.world ino = some l
  room : ∀ e ∈ l, direntSize e.2.2 ≤ c.capacity

theorem scan_unchanged {pol : Policy} {ino : UInt64} {l : List Listed} {calls : List ScanCall}
    (hcalls : ∀ c ∈ calls, c.Finds pol ino l) : ∀ {i : Nat}, i ≤ l.length →
      l.length < i + calls.length →
      scan pol ino i calls = (numbered i (l.drop i)).map (fun e => [e]) ++ [[]] := by
  induction calls with
  | nil =>
    intro i hi hlen
    rw [List.length_nil] at hlen
    omega
  | cons c calls ih =>
    intro i hi hlen
    rw [List.length_cons] at hlen
    have hc := hcalls c List.mem_cons_self
    unfold scan
    rw [serveFuse_readdir hc.quiet hc.listing]
    by_cases hend : i = l.length
    · rw [hend, List.drop_length]
      rfl
    · have hlt : i < l.length := by omega
      have hdrop := List.drop_eq_getElem_cons hlt
      rw [hdrop, fillReply_one (hc.room _ (List.getElem_mem hlt))]
      have hrest := ih (fun c hc => hcalls c (List.mem_cons_of_mem _ hc)) (i := i + 1) hlt (by omega)
      show [_] :: scan pol ino (i + 1) calls = [_] :: _
      rw [hrest]
      rfl

/-- **readdir**: a reply is the longest run of entries that fits exactly when that run has at most
one entry and nothing fits after it; a scan of an unchanging directory returns all entries. -/
theorem readdir_fills_iff (pol : Policy) (ino : UInt64) :
    (∀ env w l offset capacity, env.faults = [] → listing pol w ino = some l →
      ∃ reply, (serveFuse pol env w (.readdir ino offset capacity)).1 = .directory reply ∧
        (LongestRun capacity offset (l.drop offset) reply ↔ OneFits capacity (l.drop offset))) ∧
    ∀ l calls, (∀ c ∈ calls, ScanCall.Finds pol ino l c) → l.length < calls.length →
      scan pol ino 0 calls = (numbered 0 l).map (fun e => [e]) ++ [[]] := by
  constructor
  · intro env w l offset capacity hq hl
    exact ⟨_, serveFuse_readdir hq hl offset capacity, longestRun_fillReply_iff⟩
  · intro l calls hcalls hlen
    exact scan_unchanged hcalls (Nat.zero_le _) (by omega)

/-- The listing of an empty root. -/
def rootDots : List Listed := [(1, .directory, [46]), (1, .directory, [46, 46])]

/-- A call on an empty root. -/
def rootCall (capacity : Nat) : ScanCall where
  env := Env.quiet
  world := World.mount emptyRoot (Server.init "s")
  capacity := capacity

theorem finds_rootCall {capacity : Nat} (hroom : 32 ≤ capacity) :
    (rootCall capacity).Finds allCopyOnWrite 1 rootDots where
  quiet := rfl
  listing := by
    show listing allCopyOnWrite (World.mount emptyRoot (Server.init "s")) 1 = some rootDots
    decide
  room := by
    intro e he
    rcases List.mem_cons.mp he with rfl | he
    · exact hroom
    · obtain rfl := List.mem_singleton.mp he
      exact hroom

theorem readdir_fills_iff_root :
    (∃ reply, (serveFuse allCopyOnWrite Env.quiet (World.mount emptyRoot (Server.init "s"))
        (.readdir 1 0 40)).1 = .directory reply ∧ LongestRun 40 0 rootDots reply) ∧
    scan allCopyOnWrite 1 0 [rootCall 40, rootCall 64, rootCall 32]
      = (numbered 0 rootDots).map (fun e => [e]) ++ [[]] := by
  obtain ⟨hreply, hscan⟩ := readdir_fills_iff allCopyOnWrite 1
  constructor
  · have hfinds : (rootCall 40).Finds allCopyOnWrite 1 rootDots := finds_rootCall (by decide)
    obtain ⟨reply, hserve, hrun⟩ := hreply Env.quiet _ rootDots 0 40 rfl hfinds.listing
    refine ⟨reply, hserve, hrun.mpr ?_⟩
    show OneFits 40 rootDots
    unfold rootDots OneFits
    decide
  · refine hscan rootDots _ ?_ (by decide)
    intro c hc
    simp only [List.mem_cons, List.not_mem_nil, or_false] at hc
    obtain rfl | rfl | rfl := hc <;> exact finds_rootCall (by decide)

/-- Both entries of an empty root fit into a page, and the reply has one. -/
theorem not_readdir_fills :
    listing allCopyOnWrite (World.mount emptyRoot (Server.init "s")) 1 = some rootDots ∧
    (serveFuse allCopyOnWrite Env.quiet (World.mount emptyRoot (Server.init "s"))
      (.readdir 1 0 4096)).1 = .directory [{ ino := 1, offset := 1, kind := .directory, name := [46] }] ∧
    ¬ LongestRun 4096 0 rootDots [{ ino := 1, offset := 1, kind := .directory, name := [46] }] := by
  refine ⟨by decide, by decide, ?_⟩
  intro h
  obtain ⟨n, hn, hrun, -, hmax⟩ := h
  have htwo := hmax 2 (by decide) (by decide)
  have hlen := congrArg List.length hrun
  rw [length_numbered, List.length_take, List.length_singleton] at hlen
  have htotal : rootDots.length = 2 := rfl
  omega

end Cas.Fuse
