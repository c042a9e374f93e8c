/-
  Cas.Fuse.Inodes — which path an inode number stands for.

  `lookup`, `mkdir`, `symlink`, `create` and `readdir` hand out inode
  numbers, each for a path.  The table only grows: a number stays with its
  path and the path with its number, whatever becomes of the object there
  (`numbersStay_run`).
-/
import Cas.Fuse.Listing
import Cas.Fuse.Rename

namespace Cas.Fuse

open Cas.Lib Cas.Host Cas.Syncing Descriptive

/-! ## §1. The table. -/

namespace InodeTable

/-- The counter has not come around: fewer than 2^64 numbers are taken. -/
def Room (t : InodeTable) : Prop := t.inoToPath.keys.card < 2 ^ 64

/-- The numbers 1, 2, … were given out in turn, and the two maps agree. -/
structure Counted (t : InodeTable) : Prop where
  next : t.nextIno = UInt64.ofNat (t.inoToPath.keys.card + 1)
  taken : ∀ ino ∈ t.inoToPath.keys, 0 < ino.toNat ∧ ino.toNat ≤ t.inoToPath.keys.card
  back : ∀ path ino, t.pathToIno.lookup path = some ino → t.inoToPath.lookup ino = some path
  forth : ∀ ino path, t.inoToPath.lookup ino = some path → t.pathToIno.lookup path = some ino

theorem counted_new (root : FsPath) : (new root).Counted where
  next := by
    show (2 : UInt64) = UInt64.ofNat ((Finmap.singleton 1 root : FMap UInt64 FsPath).keys.card + 1)
    rw [Finmap.keys_singleton, Finset.card_singleton]
    rfl
  taken ino h := by
    have hkeys : (new root).inoToPath.keys = {1} := Finmap.keys_singleton 1 root
    rw [hkeys, Finset.mem_singleton] at h
    rw [hkeys, Finset.card_singleton, h]
    decide
  back path ino h := by
    obtain ⟨rfl, rfl⟩ := lookup_singleton_eq_some.mp h
    exact Finmap.lookup_singleton_eq
  forth ino path h := by
    obtain ⟨rfl, rfl⟩ := lookup_singleton_eq_some.mp h
    exact Finmap.lookup_singleton_eq

variable {t : InodeTable} {path : FsPath}

theorem Room.of_getOrInsert (h : (t.getOrInsert path).2.Room) : t.Room := by
  unfold getOrInsert at h
  cases hp : t.pathToIno.lookup path with
  | some ino =>
    rw [hp] at h
    exact h
  | none =>
    rw [hp] at h
    refine lt_of_le_of_lt ?_ h
    show _ ≤ (t.inoToPath.insert t.nextIno path).keys.card
    rw [keys_insert]
    exact Finset.card_le_card (Finset.subset_insert _ _)

/-- With room for one more, the next number is a new one. -/
theorem Counted.nextIno_fresh (h : t.Counted)
    (hroom : (t.inoToPath.insert t.nextIno path).keys.card < 2 ^ 64) :
    t.nextIno.toNat = t.inoToPath.keys.card + 1 ∧ t.nextIno ∉ t.inoToPath.keys := by
  have hcard : t.inoToPath.keys.card ≤ (t.inoToPath.insert t.nextIno path).keys.card := by
    rw [keys_insert]
    exact Finset.card_le_card (Finset.subset_insert _ _)
  have hnext : t.nextIno.toNat = (t.inoToPath.keys.card + 1) % 2 ^ 64 := by
    rw [h.next, UInt64.toNat_ofNat']
  have hfresh : t.nextIno ∉ t.inoToPath.keys := by
    intro hmem
    have := h.taken _ hmem
    omega
  have hgrown : (t.inoToPath.insert t.nextIno path).keys.card = t.inoToPath.keys.card + 1 := by
    rw [keys_insert, Finset.card_insert_of_notMem hfresh]
  exact ⟨by omega, hfresh⟩

/-- **One assignment**: the table stays counted, keeps every number on its path, and has the path
under the number it answers. -/
theorem Counted.getOrInsert (h : t.Counted) (path : FsPath)
    (hroom : (t.getOrInsert path).2.Room) :
    (t.getOrInsert path).2.Counted ∧
      (∀ ino p, t.getPath ino = some p → (t.getOrInsert path).2.getPath ino = some p) ∧
      (t.getOrInsert path).2.getPath (t.getOrInsert path).1 = some path := by
  unfold InodeTable.getOrInsert at hroom ⊢
  cases hp : t.pathToIno.lookup path with
  | some ino => exact ⟨h, fun _ _ hi => hi, h.back path ino hp⟩
  | none =>
    rw [hp] at hroom
    obtain ⟨hnext, hfresh⟩ := h.nextIno_fresh hroom
    have hkeys : (t.inoToPath.insert t.nextIno path).keys.card = t.inoToPath.keys.card + 1 := by
      rw [keys_insert, Finset.card_insert_of_notMem hfresh]
    have hold : ∀ ino p, t.inoToPath.lookup ino = some p →
        (t.inoToPath.insert t.nextIno path).lookup ino = some p := by
      intro ino p hi
      rw [lookup_insert_ite, if_neg, hi]
      intro he
      apply hfresh
      rw [← he, Finmap.mem_keys, ← Finmap.lookup_isSome, hi]
      rfl
    refine ⟨⟨?_, ?_, ?_, ?_⟩, hold, Finmap.lookup_insert _⟩
    · show t.nextIno + 1 = UInt64.ofNat ((t.inoToPath.insert t.nextIno path).keys.card + 1)
      rw [hkeys, h.next]
      exact (UInt64.ofNat_add _ 1).symm
    · intro ino hino
      have hmem : ino ∈ insert t.nextIno t.inoToPath.keys := by
        rw [← keys_insert t.inoToPath t.nextIno path]
        exact hino
      show _ ∧ _ ≤ (t.inoToPath.insert t.nextIno path).keys.card
      rw [hkeys]
      rcases Finset.mem_insert.mp hmem with rfl | hmem
      · omega
      · have := h.taken ino hmem
        omega
    · intro p ino hi
      have hi' : (t.pathToIno.insert path t.nextIno).lookup p = some ino := hi
      rw [lookup_insert_ite] at hi'
      split at hi'
      · next hpath =>
        cases hi'
        rw [hpath]
        exact Finmap.lookup_insert _
      · exact hold _ _ (h.back p ino hi')
    · intro ino p hi
      have hi' : (t.inoToPath.insert t.nextIno path).lookup ino = some p := hi
      show (t.pathToIno.insert path t.nextIno).lookup p = some ino
      rw [lookup_insert_ite] at hi' ⊢
      by_cases hino : ino = t.nextIno
      · rw [if_pos hino] at hi'
        rw [if_pos (Option.some.inj hi').symm, hino]
      · rw [if_neg hino] at hi'
        have hforth := h.forth ino p hi'
        rw [if_neg, hforth]
        -- the path had no number
        intro he
        rw [he, hp] at hforth
        cases hforth

/-- Every path that some number stands for has a number, also after the counter has come around. -/
def Indexed (t : InodeTable) : Prop :=
  ∀ ino path, t.getPath ino = some path → path ∈ t.pathToIno

theorem indexed_new (root : FsPath) : (new root).Indexed := by
  intro ino path h
  obtain ⟨-, rfl⟩ := lookup_singleton_eq_some.mp h
  exact (Finmap.mem_singleton _ _ _).mpr rfl

theorem Indexed.getOrInsert (h : t.Indexed) (path : FsPath) : (t.getOrInsert path).2.Indexed := by
  unfold InodeTable.getOrInsert
  cases hp : t.pathToIno.lookup path with
  | some ino => exact h
  | none =>
    intro ino q hq
    have hlook : (t.inoToPath.insert t.nextIno path).lookup ino = some q := hq
    show q ∈ t.pathToIno.insert path t.nextIno
    rw [lookup_insert_ite] at hlook
    rw [Finmap.mem_insert]
    split_ifs at hlook
    · exact Or.inl (Option.some.inj hlook).symm
    · exact Or.inr (h ino q hlook)

/-- A path that has a number gets no other. -/
theorem Indexed.getOrInsert_known (h : t.Indexed) {ino : UInt64} (hino : t.getPath ino = some path) :
    (t.getOrInsert path).2 = t := by
  obtain ⟨ino', hino'⟩ := Finmap.mem_iff.mp (h ino path hino)
  unfold InodeTable.getOrInsert
  rw [hino']

end InodeTable

/-! ## §2. Numbers that are out. -/

/-- Every number of `given` stands for its path, as long as the counter has room. -/
structure Follows (given : List (UInt64 × FsPath)) (w : World) : Prop where
  table : ∃ S, w.daemon.state.TreeRep S
  numbers : w.inodes.Room →
    w.inodes.Counted ∧ ∀ ip ∈ given, w.inodes.getPath ip.1 = some ip.2

section Follows

variable {given : List (UInt64 × FsPath)}

theorem Follows.mono {w : World} (h : Follows given w) {given' : List (UInt64 × FsPath)}
    (hsub : ∀ ip ∈ given', ip ∈ given) : Follows given' w where
  table := h.table
  numbers hroom := ⟨(h.numbers hroom).1, fun ip hip => (h.numbers hroom).2 ip (hsub ip hip)⟩

/-- A number that the table has for a path may join. -/
theorem Follows.known {w : World} (h : Follows given w) {ino : UInt64} {path : FsPath}
    (hino : w.inodes.getPath ino = some path) : Follows ((ino, path) :: given) w where
  table := h.table
  numbers hroom := ⟨(h.numbers hroom).1,
    List.forall_mem_cons.mpr ⟨hino, (h.numbers hroom).2⟩⟩

theorem Follows.getOrInsert {w : World} (h : Follows given w) (path : FsPath) :
    Follows (((w.inodes.getOrInsert path).1, path) :: given)
      { w with inodes := (w.inodes.getOrInsert path).2 } where
  table := h.table
  numbers hroom := by
    obtain ⟨hcounted, hgiven⟩ := h.numbers (InodeTable.Room.of_getOrInsert hroom)
    obtain ⟨hcounted', hold, hnew⟩ := hcounted.getOrInsert path hroom
    refine ⟨hcounted', List.forall_mem_cons.mpr ⟨hnew, fun ip hip => ?_⟩⟩
    exact hold _ _ (hgiven ip hip)

theorem messages_follows : Messages (Follows given) where
  faults _ _ h := ⟨h.table, h.numbers⟩
  dispatch w denv req _ h := by
    obtain ⟨S, hS⟩ := h.table
    obtain ⟨S', hS', -⟩ := keepsKeys_dispatch hS denv req
    exact ⟨⟨S', hS'⟩, h.numbers⟩
  putMeta w denv path e md _ _ h := by
    obtain ⟨S, hS⟩ := h.table
    obtain ⟨S', hS', -⟩ := keepsKeys_dispatch hS denv (.putFileMeta path md)
    exact ⟨⟨S', hS'⟩, h.numbers⟩
  objects _ _ h := ⟨h.table, h.numbers⟩

theorem tables_follows : Tables (Follows given) where
  inodes _ path h := (h.getOrInsert path).mono fun _ hip => List.mem_cons_of_mem _ hip
  openFiles _ _ _ h := ⟨h.table, h.numbers⟩

theorem hosts_follows : Hosts (Follows given) := fun _ _ h => ⟨h.table, h.numbers⟩

end Follows

theorem Reachable.indexed {pol : Policy} {w : World} (hw : Reachable pol w) :
    w.inodes.Indexed := by
  have hlocal : Local fun w => w.inodes.Indexed := fun _ _ _ h => h
  have htables : Tables fun w => w.inodes.Indexed :=
    ⟨fun _ path h => h.getOrInsert path, fun _ _ _ h => h⟩
  induction hw with
  | mount host shmName => exact InodeTable.indexed_new []
  | serve h env req ih =>
    exact keeps_serveFuse pol env hlocal.messages htables (fun _ _ h => h) _ req ih
  | remount h ih => exact InodeTable.indexed_new []

/-! ## §3. What a request hands out. -/

/-- The name in a directory entry. -/
def Component.ofBytes (bytes : Bytes) : Option Component :=
  if bytes = [46] then some .cur
  else if bytes = [46, 46] then some .parent
  else if h : ValidName bytes then some (.name ⟨bytes, h⟩)
  else none

theorem Component.ofBytes_bytes (n : Name) : ofBytes n.bytes = some (.name n) := by
  obtain ⟨-, -, hcur, hparent⟩ := n.valid
  unfold ofBytes
  rw [if_neg hcur, if_neg hparent, dif_pos n.valid]

section Handlers

variable (pol : Policy) (env : Env) (given : List (UInt64 × FsPath))

theorem ensures_getOrInsert (path : FsPath) :
    Ensures (Follows given) (getOrInsert path) (fun ino w => Follows ((ino, path) :: given) w)
      (Follows given) :=
  fun _ hw => hw.getOrInsert path

/-- The attributes of a stat carry a number of the path. -/
theorem ensures_statPath (path : FsPath) :
    Ensures (Follows given) (statPath pol env path)
      (fun found w => Follows ((found.2.ino, path) :: given) w) (Follows given) := by
  apply Ensures.after (keeps_connectDaemon messages_follows.steady) fun _ h => h
  intro _
  apply Ensures.after (keeps_loadStatState pol env messages_follows.steady path) fun _ h => h
  intro state
  cases decideStat state with
  | notFound => exact Ensures.fail fun _ h => h
  | useReal =>
    apply Ensures.after (keeps_readHost _) fun _ h => h
    intro inode
    exact Ensures.bind (ensures_getOrInsert given path) fun ino => Ensures.ret fun _ h => h
  | useFuse =>
    apply Ensures.after (keeps_call env messages_follows _ _ (by trivial)) fun _ h => h
    intro entry
    cases entry with
    | none => exact Ensures.fail fun _ h => h
    | some e =>
      dsimp only
      cases kindFromEntry e with
      | none => exact Ensures.fail fun _ h => h
      | some kind =>
        exact Ensures.bind (ensures_getOrInsert given path) fun ino => Ensures.ret fun _ h => h

/-- The number of the node that a reply is about. -/
def Reply.ino? : Reply → Option UInt64
  | .entry a => some a.ino
  | .created a _ => some a.ino
  | _ => none

/-- The numbers in the entries of a listing of `dir`. -/
def entryNumbers (dir : FsPath) (entries : List DirEntry) : List (UInt64 × FsPath) :=
  entries.filterMap fun entry =>
    (Component.ofBytes entry.name).map fun name => (entry.ino, name.under dir)

/-- The numbers in a reply, with the paths they are for. -/
def handedOut (w : World) : FuseRequest → Reply → List (UInt64 × FsPath)
  | .lookup parent name, reply
  | .mkdir parent name _, reply
  | .symlink parent name _, reply
  | .create parent name _ _, reply =>
    (w.namedPath parent name).toList.flatMap fun path =>
      reply.ino?.toList.map fun ino => (ino, path)
  | .readdir ino _ _, .directory entries =>
    (w.inodes.getPath ino).toList.flatMap fun dir => entryNumbers dir entries
  | _, _ => []

theorem handedOut_readdir {w : World} {ino : UInt64} {dir : FsPath}
    (hdir : w.inodes.getPath ino = some dir) (offset capacity : Nat) (entries : List DirEntry) :
    handedOut w (.readdir ino offset capacity) (.directory entries) = entryNumbers dir entries := by
  show (w.inodes.getPath ino).toList.flatMap _ = _
  rw [hdir]
  simp

/-- An error reply hands out nothing. -/
theorem handedOut_error (w : World) (req : FuseRequest) (errno : Errno) :
    handedOut w req (.error errno) = [] := by
  have hnone : ∀ o : Option FsPath, o.toList.flatMap (fun path =>
      (none : Option UInt64).toList.map fun ino => (ino, path)) = [] := by
    intro o
    cases o <;> rfl
  cases req <;> first | rfl | exact hnone _

/-- `k` hands out a number of `path`. -/
def HandsOut (given : List (UInt64 × FsPath)) (path : FsPath) (k : FuseM Reply) : Prop :=
  Ensures (Follows given) k
    (fun reply w => ∃ ino, reply.ino? = some ino ∧ Follows ((ino, path) :: given) w)
    (Follows given)

theorem handsOut_entryReply (path : FsPath) : HandsOut given path (entryReply pol env path) := by
  apply Ensures.bind (ensures_statPath pol env given path)
  intro found
  exact Ensures.ret fun w hw => ⟨_, rfl, hw⟩

/-- `mkdir` numbers the path itself when the directory cannot be read back. -/
theorem handsOut_afterMkdir (path : FsPath) (mode : UInt32) : HandsOut given path (do
    let ino ← getOrInsert path
    match ← attempt (statPath pol env path) with
    | .ok (_, attr) => pure (Reply.entry attr)
    | .error _ => pure (Reply.entry (newAttr env ino .directory mode))) := by
  apply Ensures.bind (ensures_getOrInsert given path)
  intro ino
  apply Ensures.bind (Q := fun result w => Follows ((ino, path) :: given) w ∧
    ∀ found, result = .ok found → Follows ((found.2.ino, path) :: given) w)
  · apply Ensures.attempt
    apply (ensures_statPath pol env _ path).weaken fun _ h => h
    · intro found w hw
      refine ⟨hw.mono fun ip hip => List.mem_cons_of_mem _ hip, fun found' hf => ?_⟩
      cases hf
      exact hw.mono fun ip hip => by
        rcases List.mem_cons.mp hip with rfl | hip
        · exact List.mem_cons_self
        · exact List.mem_cons_of_mem _ (List.mem_cons_of_mem _ hip)
    · exact fun w hw e => ⟨hw, nofun⟩
  · intro result
    cases result with
    | ok found => exact Ensures.ret fun w hw => ⟨_, rfl, hw.2 found rfl⟩
    | error err => exact Ensures.ret fun w hw => ⟨_, rfl, hw.1⟩

/-- `create` does so after the stat has failed. -/
theorem handsOut_afterCreate (file : OpenFile) (path : FsPath) (mode : UInt32) :
    HandsOut given path (do
      let fh ← addOpenFile file
      match ← attempt (statPath pol env path) with
      | .ok (_, attr) => pure (Reply.created attr fh)
      | .error _ => do
        let ino ← getOrInsert path
        pure (Reply.created (newAttr env ino .regularFile mode) fh)) := by
  apply Ensures.after (keeps_addOpenFile tables_follows file) fun _ h => h
  intro fh
  apply Ensures.bind (Q := fun result w => match result with
    | .ok found => Follows ((found.2.ino, path) :: given) w
    | .error _ => Follows given w)
  · apply Ensures.attempt
    exact (ensures_statPath pol env given path).weaken (fun _ h => h) (fun _ _ h => h)
      fun _ h _ => h
  · intro result
    cases result with
    | ok found => exact Ensures.ret fun w hw => ⟨_, rfl, hw⟩
    | error err =>
      apply Ensures.bind (ensures_getOrInsert given path)
      intro ino
      exact Ensures.ret fun w hw => ⟨_, rfl, hw⟩

/-- A request that names its operand hands out a number of the operand. -/
theorem ensures_named {w₀ : World} {parent : UInt64} {name : Component} {k : FsPath → FuseM Reply}
    (hk : ∀ path, HandsOut given path (k path)) :
    Ensures (fun w => Follows given w ∧ w.inodes = w₀.inodes) (getPath parent name >>= k)
      (fun reply w => Follows ((w₀.namedPath parent name).toList.flatMap (fun path =>
        reply.ino?.toList.map fun ino => (ino, path)) ++ given) w) (Follows given) := by
  apply Ensures.bind (Q := fun path w => Follows given w ∧ w₀.namedPath parent name = some path)
  · intro w hw
    have hnamed : w.namedPath parent name = w₀.namedPath parent name := by
      unfold World.namedPath
      rw [hw.2]
    rw [getPath_eq, hnamed]
    cases w₀.namedPath parent name with
    | none => exact hw.1
    | some path => exact ⟨hw.1, rfl⟩
  · intro path
    apply Ensures.of_fact
    intro hpath
    apply (hk path).weaken (fun _ h => h) _ fun _ h => h
    rintro reply w ⟨ino, hino, hw⟩
    rw [hpath, hino]
    exact hw

/-- Every child of a listing is under its own path. -/
theorem ensures_loadReaddirState (dir : FsPath) :
    Ensures (Follows given) (loadReaddirState pol env dir)
      (fun state w => Follows given w ∧
        ∀ name kind full, (name, kind, full) ∈ visibleChildren state → full = dir ++ [name])
      (Follows given) := by
  apply Ensures.bind (Q := fun children w => Follows given w ∧ ∃ fs, children = realChildren fs dir)
  · exact fun w hw => ⟨hw, w.host, rfl⟩
  · intro children
    apply Ensures.of_fact
    rintro ⟨fs, rfl⟩
    apply Ensures.bind (Q := fun entries w => Follows given w ∧
      ∃ (s : Server) (S : tree Name), s.state.TreeRep S ∧ entries = s.readDirAll dir)
    · apply ensures_call env
      · exact fun w faults hw => messages_follows.faults w faults hw
      · intro w entries hw ht
        obtain ⟨S, hS⟩ := hw.table
        exact ⟨hw, w.daemon, S, hS, (Option.some.inj ht).symm⟩
      · exact fun w hw => hw
      · exact fun _ h => h
    · intro entries
      apply Ensures.of_fact
      rintro ⟨s, S, hS, rfl⟩
      refine Ensures.ret fun w hw => ⟨hw, fun name kind full hmem => ?_⟩
      have hshown := mem_visibleChildren.mp hmem
      rw [lookup_children hS] at hshown
      exact shownChild_path hshown

/-- Each entry of the reply carries the number that its child has got. -/
theorem ensures_childEntries (children : List (Name × FileType × FsPath)) :
    ∀ given, Ensures (Follows given) (childEntries children)
      (fun entries w => ∃ numbers : List (UInt64 × FsPath), Follows (numbers ++ given) w ∧
        ∀ entry ∈ entries, ∃ name full, (name, entry.2.1, full) ∈ children ∧
          entry.2.2 = name.bytes ∧ (entry.1, full) ∈ numbers) (Follows given) := by
  induction children with
  | nil => exact fun given => Ensures.ret fun w hw => ⟨[], hw, nofun⟩
  | cons child children ih =>
    intro given
    obtain ⟨name, kind, full⟩ := child
    apply Ensures.bind (ensures_getOrInsert given full)
    intro ino
    apply Ensures.bind ((ih ((ino, full) :: given)).weaken (fun _ h => h) (fun _ _ h => h)
      fun w hw => hw.mono fun ip hip => List.mem_cons_of_mem _ hip)
    intro entries
    refine Ensures.ret ?_
    rintro w ⟨numbers, hw, hentries⟩
    refine ⟨numbers ++ [(ino, full)], by rwa [List.append_assoc], ?_⟩
    intro entry hentry
    rcases List.mem_cons.mp hentry with rfl | hentry
    · exact ⟨name, full, List.mem_cons_self, rfl, by simp⟩
    · obtain ⟨n, f, hmem, hn, hnum⟩ := hentries entry hentry
      exact ⟨n, f, List.mem_cons_of_mem _ hmem, hn, List.mem_append_left _ hnum⟩

theorem ensures_readdir {w₀ : World} (ino : UInt64) (offset capacity : Nat) :
    Ensures (fun w => Follows given w ∧ w.inodes = w₀.inodes) (readdir pol env ino offset capacity)
      (fun reply w => Follows (handedOut w₀ (.readdir ino offset capacity) reply ++ given) w)
      (Follows given) := by
  apply Ensures.bind (Q := fun dir w => Follows ((ino, dir) :: given) w ∧
    w₀.inodes.getPath ino = some dir)
  · intro w hw
    unfold pathOf
    rw [← hw.2]
    cases hdir : w.inodes.getPath ino with
    | none => exact hw.1
    | some dir => exact ⟨hw.1.known hdir, rfl⟩
  · intro dir
    apply Ensures.of_fact
    intro hdir
    have hforget : ∀ w, Follows ((ino, dir) :: given) w → Follows given w :=
      fun w hw => hw.mono fun ip hip => List.mem_cons_of_mem _ hip
    apply Ensures.after (keeps_connectDaemon messages_follows.steady) hforget
    intro _
    apply Ensures.bind ((ensures_loadReaddirState pol env _ dir).weaken (fun _ h => h)
      (fun _ _ h => h) hforget)
    intro state
    apply Ensures.of_fact
    intro hchildren
    cases validateReaddirDecision state (decideReaddir state) with
    | error err => exact Ensures.fail hforget
    | ok _ =>
      apply Ensures.bind ((ensures_getOrInsert _ (dir.parent.getD [])).weaken (fun _ h => h)
        (fun _ _ h => h) hforget)
      intro parentIno
      apply Ensures.bind ((ensures_childEntries _ _).weaken (fun _ h => h) (fun _ _ h => h)
        fun w hw => hforget w (hw.mono fun ip hip => List.mem_cons_of_mem _ hip))
      intro entries
      refine Ensures.ret ?_
      rintro w ⟨numbers, hw, hentries⟩
      apply hw.mono
      intro ip hip
      rcases List.mem_append.mp hip with hip | hip
      · rw [handedOut_readdir hdir] at hip
        obtain ⟨entry, hentry, hout⟩ := List.mem_filterMap.mp hip
        obtain ⟨name, hname, rfl⟩ := Option.map_eq_some_iff.mp hout
        have hmem := List.mem_of_mem_drop (mem_fillReply _ _ hentry)
        -- the directory itself, its parent, or one of the children
        rcases List.mem_cons.mp hmem with he | hmem
        · obtain ⟨hino, hrest⟩ := Prod.mk.inj he
          rw [(Prod.mk.inj hrest).2] at hname
          cases hname
          rw [hino]
          show (ino, dir) ∈ _
          simp
        · rcases List.mem_cons.mp hmem with he | hmem
          · obtain ⟨hino, hrest⟩ := Prod.mk.inj he
            rw [(Prod.mk.inj hrest).2] at hname
            cases hname
            rw [hino]
            show (parentIno, dir.pop) ∈ _
            rw [FsPath.pop_eq_parent]
            simp
          · obtain ⟨n, full, hchild, hn, hnum⟩ := hentries _ hmem
            have hbytes : entry.name = n.bytes := hn
            rw [hbytes, Component.ofBytes_bytes] at hname
            cases hname
            rw [hchildren _ _ _ hchild] at hnum
            exact List.mem_append_left _ hnum
      · simp [hip]

theorem ensures_handle (w₀ : World) (req : FuseRequest) :
    Ensures (fun w => Follows given w ∧ w.inodes = w₀.inodes) (handle pol env req)
      (fun reply w => Follows (handedOut w₀ req reply ++ given) w) (Follows given) := by
  have hsilent : Ensures (fun w => Follows given w ∧ w.inodes = w₀.inodes) (handle pol env req)
      (fun _ => Follows given) (Follows given) :=
    (keeps_handle pol env messages_follows tables_follows hosts_follows req).weaken
      (fun _ h => h.1) (fun _ _ h => h) fun _ h => h
  cases req with
  | lookup parent name =>
    exact ensures_named given fun path => handsOut_entryReply pol env given path
  | mkdir parent name mode =>
    refine ensures_named given fun path => ?_
    apply Ensures.after (keeps_connectDaemon messages_follows.steady) fun _ h => h
    intro _
    apply Ensures.after (keeps_executeMkdir env hosts_follows messages_follows.edits _ path mode)
      fun _ h => h
    exact fun _ => handsOut_afterMkdir pol env given path mode
  | symlink parent name target =>
    refine ensures_named given fun path => ?_
    apply Ensures.after (keeps_connectDaemon messages_follows.steady) fun _ h => h
    intro _
    apply Ensures.after (keeps_executeSymlink env hosts_follows messages_follows.edits _ path target _)
      fun _ h => h
    exact fun _ => handsOut_entryReply pol env given path
  | create parent name mode flags =>
    refine ensures_named given fun path => ?_
    apply Ensures.after (keeps_connectDaemon messages_follows.steady) fun _ h => h
    intro _
    apply Ensures.after (keeps_executeCreate env hosts_follows messages_follows.objects _ mode flags
      (messages_follows.file env path (typeBits_regular 0 mode _ _ _))) fun _ h => h
    exact fun file => handsOut_afterCreate pol env given file path mode
  | readdir ino offset capacity => exact ensures_readdir pol env given ino offset capacity
  | _ => exact hsilent

/-- **One request**: what was out stays, and what the reply hands out joins. -/
theorem follows_serveFuse {w : World} (h : Follows given w) (req : FuseRequest) :
    Follows (handedOut w req (serveFuse pol env w req).1 ++ given) (serveFuse pol env w req).2 := by
  have key := ensures_handle pol env given w req { w with faults := env.faults }
    ⟨messages_follows.faults w env.faults h, rfl⟩
  unfold serveFuse
  cases hres : handle pol env req { w with faults := env.faults } with
  | ok reply w' =>
    rw [hres] at key
    exact key
  | error err w' =>
    rw [hres] at key
    show Follows (handedOut w req (.error (errToErrno err)) ++ given) w'
    rw [handedOut_error]
    exact key

end Handlers

/-! ## §4. Runs. -/

/-- A mount, with the numbers that its replies have handed out. -/
structure Tracked where
  world : World
  given : List (UInt64 × FsPath)

/-- A FUSE daemon just mounted over what a world holds. -/
def Tracked.mount (w : World) : Tracked where
  world := World.mount w.host w.daemon
  given := []

def trackStep (pol : Policy) (s : Tracked) (x : Env × FuseRequest) : Option Tracked :=
  let r := serveFuse pol x.1 s.world x.2
  some { world := r.2, given := handedOut s.world x.2 r.1 ++ s.given }

/-- Every number stands for the path it was handed out for, and the path still yields it. -/
def NumbersStay (s : Tracked) : Prop :=
  ∀ ip ∈ s.given, s.world.inodes.getPath ip.1 = some ip.2 ∧
    (s.world.inodes.getOrInsert ip.2).1 = ip.1

theorem Follows.numbersStay {s : Tracked} (h : Follows s.given s.world)
    (hroom : s.world.inodes.Room) : NumbersStay s := by
  obtain ⟨hcounted, hgiven⟩ := h.numbers hroom
  intro ip hip
  have hpath := hgiven ip hip
  refine ⟨hpath, ?_⟩
  unfold InodeTable.getOrInsert
  rw [hcounted.forth _ _ hpath]

/-- **A number stays with its path** along every run, renames and removals included, as long as
the counter has not come around. -/
theorem numbersStay_run {pol : Policy} {w₀ : World} (hw : Reachable pol w₀)
    (xs : List (Env × FuseRequest)) :
    AlwaysOn (trackStep pol) (fun s => s.world.inodes.Room → NumbersStay s)
      (Tracked.mount w₀) xs := by
  have hstep : ∀ s x s', Follows s.given s.world → trackStep pol s x = some s' →
      Follows s'.given s'.world := by
    intro s x s' hs hstep
    cases hstep
    exact follows_serveFuse pol x.1 s.given hs x.2
  have hstart : Follows [] (World.mount w₀.host w₀.daemon) :=
    ⟨hw.goodStore.table, fun _ => ⟨InodeTable.counted_new [], nofun⟩⟩
  intro pre hpre t ht
  exact (run_invariant hstep (s := Tracked.mount w₀) hstart ht).numbersStay

def createA : Env × FuseRequest :=
  (Env.quiet, .create 1 (.name Name.a) 0o644 ⟨.rdwr, false, false⟩)

def renameAB : Env × FuseRequest :=
  (Env.quiet, .rename 1 (.name Name.a) 1 (.name Name.b))

/-- `create /a; rename(/a, /b)`: the number of the file is 2 and stands for `/a`, before and
after. -/
theorem numbersStay_create_rename :
    AlwaysOn (trackStep allCopyOnWrite) (fun s => s.world.inodes.Room → NumbersStay s)
      (Tracked.mount (World.mount emptyRoot (Server.init "s"))) [createA, renameAB] :=
  numbersStay_run (.mount emptyRoot "s") _

/-- A rename takes the file along and leaves its number behind. -/
theorem not_numbers_follow_rename :
    ¬ ∀ (pol : Policy) (w₀ : World), Reachable pol w₀ → ∀ (xs : List (Env × FuseRequest))
      (s : Tracked), run (trackStep pol) (Tracked.mount w₀) xs = some s →
      ∀ (env : Env) (parent newparent : UInt64) (name newname : Component) (src dst : FsPath),
        s.world.namedPath parent name = some src → s.world.namedPath newparent newname = some dst →
        (serveFuse pol env s.world (.rename parent name newparent newname)).1 = .ok →
        ∀ i r, (i, src ++ r) ∈ s.given →
          (serveFuse pol env s.world (.rename parent name newparent newname)).2.inodes.getPath i
            = some (dst ++ r) := by
  intro h
  have key := h allCopyOnWrite _ (.mount emptyRoot "s") [createA] _ rfl Env.quiet 1 1
    (.name Name.a) (.name Name.b) [Name.a] [Name.b] rfl rfl (by decide) 2 [] (by decide)
  revert key
  decide

end Cas.Fuse
