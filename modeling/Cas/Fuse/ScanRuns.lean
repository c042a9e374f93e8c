/-
  Cas.Fuse.ScanRuns — scans of a directory that changes.

  The listing is made anew for every call, and the offset of a call is a
  position in it; nothing is kept between the calls.  So a scan reads
  the listing position by position while requests change it:
  `scan_returns` accounts for each name that stays visible.
-/
import Cas.Fuse.Scan
import Cas.Lib.Positions

namespace Cas.Fuse

open Cas.Lib Cas.Host Cas.Syncing

/-! ## §1. Scans. -/

/-- The requests that are served before a call, and the call. -/
structure ScanRound where
  requests : List (Env × FuseRequest)
  env : Env
  capacity : Nat

/-- A call as it was made, and its reply. -/
structure ScanStep where
  /-- The world that the previous call left. -/
  start : World
  requests : List (Env × FuseRequest)
  offset : Nat
  capacity : Nat
  reply : List DirEntry

section Scan

variable (pol : Policy) (ino : UInt64)

/-- Serve requests, one after another. -/
def serveAll (w : World) (requests : List (Env × FuseRequest)) : World :=
  requests.foldl (fun w x => (serveFuse pol x.1 w x.2).2) w

/-- The worlds before, between and after requests. -/
def servedWorlds : World → List (Env × FuseRequest) → List World
  | w, [] => [w]
  | w, x :: requests => w :: servedWorlds (serveFuse pol x.1 w x.2).2 requests

/-- The world that the call finds. -/
def ScanStep.found (s : ScanStep) : World := serveAll pol s.start s.requests

/-- The calls of a scan: each goes on at the offset of the last entry received, up to the first
reply without an entry or an error. -/
def scanSteps : World → Nat → List ScanRound → List ScanStep
  | _, _, [] => []
  | w, offset, r :: rounds =>
    match serveFuse pol r.env (serveAll pol w r.requests) (.readdir ino offset r.capacity) with
    | (.directory reply, w') =>
      ⟨w, r.requests, offset, r.capacity, reply⟩ ::
        match reply.getLast? with
        | some e => scanSteps w' e.offset rounds
        | none => []
    | _ => []

/-- The names in a listing, in order. -/
def listingNames (w : World) : List Bytes := ((listing pol w ino).getD []).map fun e => e.2.2

/-- The last reply of the scan had no entry. -/
def ScanCompleted (steps : List ScanStep) : Prop :=
  ∃ s ∈ steps.getLast?, s.reply = []

/-- Every reply buffer can hold any single entry. -/
def RoomForAny (steps : List ScanStep) : Prop :=
  ∀ s ∈ steps, ∀ name ∈ listingNames pol ino (s.found pol), direntSize name ≤ s.capacity

/-- The directory lists `name` in every world that the scan passes through. -/
def VisibleThroughout (name : Bytes) (steps : List ScanStep) : Prop :=
  ∀ s ∈ steps, ∀ w ∈ servedWorlds pol s.start s.requests, name ∈ listingNames pol ino w

/-- How often the replies bring `name`. -/
def timesReturned (name : Bytes) (steps : List ScanStep) : Nat :=
  (steps.flatMap fun s => s.reply.map (·.name)).count name

/-- The listings that the calls find. -/
def listingsFound (steps : List ScanStep) : List (List Bytes) :=
  steps.map fun s => listingNames pol ino (s.found pol)

end Scan

instance (steps : List ScanStep) : Decidable (ScanCompleted steps) :=
  inferInstanceAs (Decidable (∃ s ∈ steps.getLast?, s.reply = []))

instance (pol : Policy) (ino : UInt64) (steps : List ScanStep) :
    Decidable (RoomForAny pol ino steps) :=
  inferInstanceAs (Decidable (∀ s ∈ steps, ∀ name ∈ listingNames pol ino (s.found pol),
    direntSize name ≤ s.capacity))

instance (pol : Policy) (ino : UInt64) (name : Bytes) (steps : List ScanStep) :
    Decidable (VisibleThroughout pol ino name steps) :=
  inferInstanceAs (Decidable (∀ s ∈ steps, ∀ w ∈ servedWorlds pol s.start s.requests,
    name ∈ listingNames pol ino w))

/-! ## §2. What a call finds and returns. -/

section Call

variable {pol : Policy} {ino : UInt64}

theorem serveAll_mem_servedWorlds (requests : List (Env × FuseRequest)) :
    ∀ w, serveAll pol w requests ∈ servedWorlds pol w requests := by
  induction requests with
  | nil => exact fun w => List.mem_singleton_self w
  | cons x requests ih => exact fun w => List.mem_cons_of_mem _ (ih _)

/-- **readdir** that replies with entries, whatever went wrong on the way. -/
theorem listing_of_readdir {env : Env} {w : World} {offset capacity : Nat} {reply : List DirEntry}
    (h : (serveFuse pol env w (.readdir ino offset capacity)).1 = .directory reply) :
    ∃ l, listing pol w ino = some l ∧ reply = fillReply capacity offset (l.drop offset) := by
  have hrun : readdir pol env ino offset capacity { w with faults := env.faults }
      = .ok (.directory reply) _ := handle_of_serveFuse h nofun
  unfold readdir at hrun
  obtain ⟨dir, w₁, hpath, hrun⟩ := bind_eq_ok.mp hrun
  have hdir : w.inodes.getPath ino = some dir ∧ w₁ = { w with faults := env.faults } := by
    unfold pathOf at hpath
    cases hp : w.inodes.getPath ino with
    | none =>
      simp only [hp] at hpath
      cases hpath
    | some path =>
      simp only [hp] at hpath
      cases hpath
      exact ⟨rfl, rfl⟩
  obtain ⟨hdir, rfl⟩ := hdir
  obtain ⟨_, _, hconnect, hrun⟩ := bind_eq_ok.mp hrun
  obtain ⟨-, rfl⟩ := connectDaemon_eq_ok.mp hconnect
  obtain ⟨state, w₂, hload, hrun⟩ := bind_eq_ok.mp hrun
  -- the state is what the host and the daemon have
  have hstate : state = readdirState pol w dir ∧ w₂.inodes = w.inodes := by
    unfold loadReaddirState at hload
    rw [run_bind_ok (peekHost_eq _ _)] at hload
    obtain ⟨entries, w₃, hread, hpure⟩ := bind_eq_ok.mp hload
    cases hpure
    have htake := (call_eq_ok.mp hread).2.1
    have hend := congrArg endState hread
    unfold Client.readDirAll at hend
    rw [endState_faulty] at hend
    obtain rfl : _ = w₂ := hend
    cases htake
    exact ⟨rfl, rfl⟩
  obtain ⟨rfl, hinodes⟩ := hstate
  rw [validateReaddirDecision_decideReaddir] at hrun
  have hrest : (getOrInsert (dir.parent.getD []) >>= fun parentIno =>
      childEntries (visibleChildren (readdirState pol w dir)) >>= fun children =>
        pure (Reply.directory (fillReply capacity offset (((ino, .directory, [46]) ::
          (parentIno, .directory, [46, 46]) :: children).drop offset))) : FuseM Reply) w₂
      = .ok (.directory reply) _ := hrun
  have hparent : getOrInsert (dir.parent.getD []) w₂
      = .ok (w.inodes.getOrInsert (dir.parent.getD [])).1
        { w₂ with inodes := (w.inodes.getOrInsert (dir.parent.getD [])).2 } := by
    rw [← hinodes]
    rfl
  rw [run_bind_ok hparent, run_bind_ok (childEntries_run _ _)] at hrest
  exact ⟨_, congrArg (Option.map _) hdir,
    (Reply.directory.inj (EStateM.Result.ok.inj hrest).1).symm⟩

theorem nodup_visibleNames (pol : Policy) (w : World) (dir : FsPath) :
    (visibleNames pol w dir).Nodup := by
  have hchildren : (visibleChildren (readdirState pol w dir)).Nodup := by
    refine List.Nodup.filterMap ?_ (enumerates_sortedKeys _).1
    intro a b child ha hb
    have hname : ∀ {name}, child ∈ ((decideReaddir (readdirState pol w dir)).lookup name).bind
        (fun decision => (chooseVisibleChild (readdirState pol w dir) name decision).map
          fun shown => (name, shown)) → child.1 = name := by
      intro name h
      obtain ⟨decision, -, h⟩ := Option.bind_eq_some_iff.mp h
      obtain ⟨shown, -, rfl⟩ := Option.map_eq_some_iff.mp h
      rfl
    exact (hname ha).symm.trans (hname hb)
  -- a name has one kind
  refine hchildren.map_on fun c hc c' hc' hbytes => ?_
  obtain ⟨name, kind, full⟩ := c
  obtain ⟨name', kind', full'⟩ := c'
  obtain rfl : name = name' := Name.key_injective (congrArg (List.map UInt8.toFin) hbytes)
  have hshown := mem_visibleChildren.mp hc
  rw [mem_visibleChildren.mp hc'] at hshown
  exact congrArg (Prod.mk name) (Option.some.inj hshown).symm

theorem nodup_listingNames (pol : Policy) (ino : UInt64) (w : World) :
    (listingNames pol ino w).Nodup := by
  unfold listingNames
  cases hl : listing pol w ino with
  | none => exact List.nodup_nil
  | some l =>
    obtain ⟨dir, hdir, -⟩ := Option.map_eq_some_iff.mp hl
    show (l.map fun e => e.2.2).Nodup
    rw [names_listing hdir hl]
    have hname : ∀ bytes ∈ visibleNames pol w dir, bytes ≠ [46] ∧ bytes ≠ [46, 46] := by
      intro bytes hbytes
      obtain ⟨child, -, rfl⟩ := List.mem_map.mp hbytes
      exact child.1.valid.2.2
    -- the dots are no names
    refine List.nodup_cons.mpr ⟨fun h => ?_, List.nodup_cons.mpr ⟨fun h => (hname _ h).2 rfl,
      nodup_visibleNames pol w dir⟩⟩
    rcases List.mem_cons.mp h with h | h
    · cases h
    · exact (hname _ h).1 rfl

end Call

/-! ## §3. A scan reads by position. -/

section Reads

variable {pol : Policy} {ino : UInt64}

theorem scanSteps_reads (rounds : List ScanRound) : ∀ (w : World) (i : Nat),
    ScanCompleted (scanSteps pol ino w i rounds) → RoomForAny pol ino (scanSteps pol ino w i rounds) →
    Completes i (listingsFound pol ino (scanSteps pol ino w i rounds)) ∧
      (scanSteps pol ino w i rounds).flatMap (fun s => s.reply.map (·.name))
        = readVersions i (listingsFound pol ino (scanSteps pol ino w i rounds)) := by
  induction rounds with
  | nil =>
    rintro w i ⟨s, hs, -⟩ _
    cases hs
  | cons r rounds ih =>
    intro w i hdone hroom
    rw [scanSteps] at hdone hroom ⊢
    rcases hserve : serveFuse pol r.env (serveAll pol w r.requests)
      (.readdir ino i r.capacity) with ⟨reply, w'⟩
    rw [hserve] at hdone hroom
    cases reply with
    | directory reply =>
      simp only at hdone hroom ⊢
      obtain ⟨l, hl, hreply⟩ := listing_of_readdir (congrArg Prod.fst hserve)
      have hnames : listingNames pol ino (serveAll pol w r.requests) = l.map fun e => e.2.2 := by
        unfold listingNames
        rw [hl]
        rfl
      by_cases hend : l.length ≤ i
      · -- the end: no entry, no further call
        obtain rfl : reply = [] := by
          rw [hreply, List.drop_of_length_le hend]
          rfl
        have hnone : (l.map fun e => e.2.2)[i]? = none := by simpa using hend
        refine ⟨?_, ?_⟩
        · show (listingNames pol ino (serveAll pol w r.requests)).length ≤ i
          rw [hnames, List.length_map]
          exact hend
        · show [] = readVersions i [listingNames pol ino (serveAll pol w r.requests)]
          rw [hnames, readVersions, hnone]
      · have hlt : i < l.length := Nat.not_le.mp hend
        have hmem : l[i].2.2 ∈ listingNames pol ino (serveAll pol w r.requests) := by
          rw [hnames]
          exact List.mem_map_of_mem (List.getElem_mem hlt)
        have hfit : direntSize l[i].2.2 ≤ r.capacity := hroom _ List.mem_cons_self _ hmem
        rw [List.drop_eq_getElem_cons hlt, fillReply_one hfit] at hreply
        subst hreply
        simp only [List.getLast?_singleton] at hdone hroom ⊢
        -- a reply with an entry is not the last one
        have hrest : scanSteps pol ino w' (i + 1) rounds ≠ [] := by
          intro hnil
          rw [hnil] at hdone
          obtain ⟨s, hs, hempty⟩ := hdone
          cases hs
          cases hempty
        obtain ⟨s, rest, hcons⟩ := List.exists_cons_of_ne_nil hrest
        have hdone' : ScanCompleted (scanSteps pol ino w' (i + 1) rounds) := by
          obtain ⟨t, ht, hempty⟩ := hdone
          rw [hcons, List.getLast?_cons_cons] at ht
          rw [hcons]
          exact ⟨t, ht, hempty⟩
        obtain ⟨hcomp, hread⟩ := ih w' (i + 1) hdone' fun t ht => hroom t (List.mem_cons_of_mem _ ht)
        have hget : (l.map fun e => e.2.2)[i]? = some l[i].2.2 := by
          rw [List.getElem?_map, List.getElem?_eq_getElem hlt]
          rfl
        constructor
        · show Completes i (listingNames pol ino (serveAll pol w r.requests) ::
            listingsFound pol ino (scanSteps pol ino w' (i + 1) rounds))
          rw [hcons] at hcomp ⊢
          refine ⟨?_, hcomp⟩
          rw [hnames, List.length_map]
          exact hlt
        · show l[i].2.2 :: (scanSteps pol ino w' (i + 1) rounds).flatMap _
            = readVersions i (listingNames pol ino (serveAll pol w r.requests) ::
              listingsFound pol ino (scanSteps pol ino w' (i + 1) rounds))
          rw [readVersions, hnames, hget, hread]
    | _ =>
      obtain ⟨s, hs, -⟩ := hdone
      cases hs

/-- **A scan of a changing directory**: what it returns of a name that stays visible, together with
the times that changes move the name from ahead of the scan's position to behind it, is one more
than the times that changes move it the other way.  A name that no change moves across the
position is returned once. -/
theorem scan_returns {w : World} {rounds : List ScanRound} {name : Bytes}
    (hdone : ScanCompleted (scanSteps pol ino w 0 rounds))
    (hroom : RoomForAny pol ino (scanSteps pol ino w 0 rounds))
    (hvisible : VisibleThroughout pol ino name (scanSteps pol ino w 0 rounds)) :
    timesReturned name (scanSteps pol ino w 0 rounds) +
        countChanges (passedOver name) 0 (listingsFound pol ino (scanSteps pol ino w 0 rounds))
      = 1 + countChanges (putBack name) 0 (listingsFound pol ino (scanSteps pol ino w 0 rounds)) ∧
    (StaysBehind name 0 (listingsFound pol ino (scanSteps pol ino w 0 rounds)) →
      timesReturned name (scanSteps pol ino w 0 rounds) = 1) := by
  obtain ⟨hcomp, hread⟩ := scanSteps_reads rounds w 0 hdone hroom
  have hall : ∀ l ∈ listingsFound pol ino (scanSteps pol ino w 0 rounds), l.Nodup ∧ name ∈ l := by
    intro l hl
    obtain ⟨s, hs, rfl⟩ := List.mem_map.mp hl
    exact ⟨nodup_listingNames pol ino _,
      hvisible s hs _ (serveAll_mem_servedWorlds s.requests s.start)⟩
  unfold timesReturned
  rw [hread]
  refine ⟨?_, count_readVersions_once hcomp hall⟩
  cases hfound : listingsFound pol ino (scanSteps pol ino w 0 rounds) with
  | nil =>
    rw [hfound] at hcomp
    exact hcomp.elim
  | cons l ls =>
    rw [hfound] at hcomp hall
    have key := count_readVersions name (l :: ls) 0 hcomp hall l rfl
    simpa using key

end Reads

/-! ## §4. Examples of scans. -/

/-- A call with room for one entry, after some requests. -/
def quietRound (requests : List FuseRequest) : ScanRound where
  requests := requests.map fun req => (Env.quiet, req)
  env := Env.quiet
  capacity := 40

/-- The rounds of a scan in which `/b` is made once the scan has come past `/a`.  They are irreducible
so that only the kernel evaluates the sums that `scan_returns` makes over them. -/
@[irreducible] def roundsMaking : List ScanRound :=
  [quietRound [], quietRound [], quietRound [], quietRound [.mkdir 1 (.name Name.b) 0o755],
    quietRound []]

theorem scan_returns_made :
    timesReturned Name.a.bytes (scanSteps allCopyOnWrite 1 madeA 0 roundsMaking) = 1 := by
  have hdone : ScanCompleted (scanSteps allCopyOnWrite 1 madeA 0 roundsMaking) := by
    decide +kernel
  have hroom : RoomForAny allCopyOnWrite 1 (scanSteps allCopyOnWrite 1 madeA 0 roundsMaking) := by
    decide +kernel
  have hvisible : VisibleThroughout allCopyOnWrite 1 Name.a.bytes
      (scanSteps allCopyOnWrite 1 madeA 0 roundsMaking) := by decide +kernel
  have hstays : StaysBehind Name.a.bytes 0
      (listingsFound allCopyOnWrite 1 (scanSteps allCopyOnWrite 1 madeA 0 roundsMaking)) := by
    decide +kernel
  exact (scan_returns hdone hroom hvisible).2 hstays

/-- The requests that make, remove and move names. -/
def changesNames : FuseRequest → Prop
  | .create _ _ _ _ | .unlink _ _ | .mkdir _ _ _ | .rmdir _ _ | .rename _ _ _ _ => True
  | _ => False

def madeAB : World :=
  (serveFuse allCopyOnWrite Env.quiet madeA (.mkdir 1 (.name Name.b) 0o755)).2

/-- The rounds of a scan in which `/a` is removed once it has been returned. -/
def roundsRemoving : List ScanRound :=
  [quietRound [], quietRound [], quietRound [], quietRound [.rmdir 1 (.name Name.a)]]

/-- The scan that removes `/a` passes over `/b`. -/
theorem not_scan_stable :
    ¬ ∀ (pol : Policy) (w : World), Reachable pol w → ∀ (ino : UInt64) (rounds : List ScanRound),
      (∀ r ∈ rounds, ∀ x ∈ r.requests, changesNames x.2) → ∀ name : Bytes,
      ScanCompleted (scanSteps pol ino w 0 rounds) →
      RoomForAny pol ino (scanSteps pol ino w 0 rounds) →
      VisibleThroughout pol ino name (scanSteps pol ino w 0 rounds) →
        timesReturned name (scanSteps pol ino w 0 rounds) = 1 := by
  intro h
  have hreach : Reachable allCopyOnWrite madeAB := .serve (.serve (.mount emptyRoot "s") _ _) _ _
  have hnames : ∀ r ∈ roundsRemoving, ∀ x ∈ r.requests, changesNames x.2 := by
    simp [roundsRemoving, quietRound, changesNames]
  have honce := h allCopyOnWrite madeAB hreach 1 roundsRemoving hnames Name.b.bytes
    (by decide +kernel) (by decide +kernel) (by decide +kernel)
  have hnever : timesReturned Name.b.bytes (scanSteps allCopyOnWrite 1 madeAB 0 roundsRemoving) = 0 := by
    decide +kernel
  omega

end Cas.Fuse
