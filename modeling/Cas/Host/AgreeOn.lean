/-
  Cas.Host.AgreeOn — two file systems that agree on some of their paths.

  `AgreeOn V held` says that both have the same names at the paths `V` and
  the same inodes behind these names and the numbers `held`; elsewhere
  names may be missing, or lead to other nodes.  A path that resolves on
  `V` (`StaysOn`) leads to the same place in both, so a call on it goes
  the same way unless it counts or moves the names below a directory.
-/
import Cas.Host.Calls

namespace Cas.Host

open Cas.Lib

/-! ## §1. What a resolution looks up. -/

/-- The paths that `walkFrom` looks up; `jump` those from a symlink on. -/
def lookedUpFrom (look : FsPath → Option Kind) (follow : Bool)
    (jump : FsPath → List Comp → List FsPath) : FsPath → List Comp → List FsPath
  | _, [] => []
  | cur, .cur :: rest => lookedUpFrom look follow jump cur rest
  | cur, .parent :: rest => lookedUpFrom look follow jump cur.pop rest
  | cur, .name n :: rest =>
    (cur ++ [n]) ::
      match look (cur ++ [n]) with
      | none => []
      | some .dir => lookedUpFrom look follow jump (cur ++ [n]) rest
      | some .file => []
      | some (.symlink target) =>
        if rest = [] ∧ follow = false then []
        else jump (targetBase target cur) (Comp.ofBytes target ++ rest)

def lookedUpWithin (look : FsPath → Option Kind) (follow : Bool) :
    Nat → FsPath → List Comp → List FsPath
  | 0 => lookedUpFrom look follow fun _ _ => []
  | links + 1 => lookedUpFrom look follow (lookedUpWithin look follow links)

/-- The paths that `locate` looks up, in order. -/
def lookedUp (look : FsPath → Option Kind) (follow : Bool) (path : FsPath) : List FsPath :=
  lookedUpWithin look follow MAXSYMLINKS [] (path.map Comp.name)

section Walk

variable {look look' : FsPath → Option Kind} {follow : Bool}

/-- Two walks go the same way when they see the same at the paths that both look up. -/
theorem walkFrom_agree {jump jump' : FsPath → List Comp → Except Errno FsPath}
    {seen seen' : FsPath → List Comp → List FsPath}
    (hjump : ∀ dir rest, (∀ p ∈ seen dir rest, p ∈ seen' dir rest → look' p = look p) →
      jump' dir rest = jump dir rest)
    (comps : List Comp) : ∀ dir, (∀ p ∈ lookedUpFrom look follow seen dir comps,
      p ∈ lookedUpFrom look' follow seen' dir comps → look' p = look p) →
      walkFrom look' follow jump' dir comps = walkFrom look follow jump dir comps := by
  induction comps with
  | nil => exact fun dir _ => rfl
  | cons comp rest ih =>
    intro dir h
    cases comp with
    | cur => exact ih dir h
    | parent => exact ih dir.pop h
    | name n =>
      have hhere : look' (dir ++ [n]) = look (dir ++ [n]) :=
        h _ List.mem_cons_self List.mem_cons_self
      have hrest : ∀ p ∈ (lookedUpFrom look follow seen dir (.name n :: rest)).tail,
          p ∈ (lookedUpFrom look' follow seen' dir (.name n :: rest)).tail → look' p = look p :=
        fun p hp hp' => h p (List.mem_of_mem_tail hp) (List.mem_of_mem_tail hp')
      rw [lookedUpFrom, lookedUpFrom, List.tail_cons, List.tail_cons, hhere] at hrest
      cases hk : look (dir ++ [n]) with
      | none => rw [walkFrom_missing hk, walkFrom_missing (hhere.trans hk)]
      | some kind =>
        rw [hk] at hrest
        cases kind with
        | dir =>
          rw [walkFrom_dir hk, walkFrom_dir (hhere.trans hk)]
          exact ih _ hrest
        | file => rw [walkFrom_file hk, walkFrom_file (hhere.trans hk)]
        | symlink target =>
          rw [walkFrom_symlink hk, walkFrom_symlink (hhere.trans hk)]
          by_cases hlast : rest = [] ∧ follow = false
          · rw [if_pos hlast, if_pos hlast]
          · rw [if_neg hlast, if_neg hlast]
            apply hjump
            simpa only [if_neg hlast] using hrest

/-- **Two resolutions** of a path are the same when they see the same at the paths that both look
up. -/
theorem locate_agree {path : FsPath} (h : ∀ p ∈ lookedUp look follow path,
    p ∈ lookedUp look' follow path → look' p = look p) :
    locate look' follow path = locate look follow path := by
  have key : ∀ links comps dir, (∀ p ∈ lookedUpWithin look follow links dir comps,
      p ∈ lookedUpWithin look' follow links dir comps → look' p = look p) →
      walk look' follow links dir comps = walk look follow links dir comps := by
    intro links
    induction links with
    | zero => exact walkFrom_agree fun _ _ _ => rfl
    | succ links ih => exact walkFrom_agree fun dir rest => ih rest dir
  exact key MAXSYMLINKS _ [] h

/-- Where nodes have only been removed, a walk whose end is gone gets to no node any more. -/
theorem walkFrom_removed {jump jump' : FsPath → List Comp → Except Errno FsPath}
    {seen : FsPath → List Comp → List FsPath} {q : FsPath} (hgone : look' q = none)
    (hjump : ∀ dir rest q', (∀ p ∈ seen dir rest, look' p = none ∨ look' p = look p) →
      jump dir rest = .ok q → jump' dir rest = .ok q' → look' q' = none)
    (comps : List Comp) : ∀ dir q', (∀ p ∈ lookedUpFrom look follow seen dir comps,
      look' p = none ∨ look' p = look p) → walkFrom look follow jump dir comps = .ok q →
      walkFrom look' follow jump' dir comps = .ok q' → look' q' = none := by
  induction comps with
  | nil =>
    intro dir q' _ h h'
    obtain rfl : q' = q := (Except.ok.inj h').symm.trans (Except.ok.inj h)
    exact hgone
  | cons comp rest ih =>
    intro dir q' hsame h h'
    cases comp with
    | cur => exact ih dir q' hsame h h'
    | parent => exact ih dir.pop q' hsame h h'
    | name n =>
      rw [lookedUpFrom, List.forall_mem_cons] at hsame
      obtain ⟨hhere, hrest⟩ := hsame
      cases hk' : look' (dir ++ [n]) with
      | none =>
        -- the step itself is gone: the walk ends here or fails
        rw [walkFrom_missing hk'] at h'
        split_ifs at h'
        rw [← Except.ok.inj h']
        exact hk'
      | some kind =>
        have hk : look (dir ++ [n]) = some kind :=
          (hhere.resolve_left (by rw [hk']; exact nofun)).symm.trans hk'
        have hend : dir ++ [n] ≠ q := by
          rintro rfl
          rw [hgone] at hk'
          cases hk'
        rw [hk] at hrest
        cases kind with
        | dir =>
          rw [walkFrom_dir hk] at h
          rw [walkFrom_dir hk'] at h'
          exact ih _ q' hrest h h'
        | file =>
          rw [walkFrom_file hk] at h
          split_ifs at h
          exact absurd (Except.ok.inj h) hend
        | symlink target =>
          rw [walkFrom_symlink hk] at h
          rw [walkFrom_symlink hk'] at h'
          by_cases hlast : rest = [] ∧ follow = false
          · rw [if_pos hlast] at h
            exact absurd (Except.ok.inj h) hend
          · rw [if_neg hlast] at h h'
            refine hjump _ _ q' ?_ h h'
            simpa only [if_neg hlast] using hrest

/-- **Removed on the way**: a path whose node is gone leads to no node, unless its resolution
looked up what is another node now. -/
theorem locate_removed {path q q' : FsPath} (hgone : look' q = none)
    (hsame : ∀ p ∈ lookedUp look follow path, look' p = none ∨ look' p = look p)
    (h : locate look follow path = .ok q) (h' : locate look' follow path = .ok q') :
    look' q' = none := by
  have key : ∀ links comps dir q', (∀ p ∈ lookedUpWithin look follow links dir comps,
      look' p = none ∨ look' p = look p) → walk look follow links dir comps = .ok q →
      walk look' follow links dir comps = .ok q' → look' q' = none := by
    intro links
    induction links with
    | zero => exact walkFrom_removed hgone fun _ _ _ _ hjump => by cases hjump
    | succ links ih => exact walkFrom_removed hgone fun dir rest q' => ih rest dir q'
  exact key MAXSYMLINKS _ [] q' hsame h h'

end Walk

namespace FileSystem

/-! ## §2. Agreement on a set of paths. -/

/-- The same names at the paths `V`, the same inodes behind them and behind the numbers `held`. -/
structure AgreeOn (V : FsPath → Prop) (held : Ino → Prop) (fs fs' : FileSystem) : Prop where
  names : ∀ p, V p → fs'.names.lookup p = fs.names.lookup p
  inodes : ∀ p ino, V p → fs.names.lookup p = some ino → fs'.inodes.lookup ino = fs.inodes.lookup ino
  held : ∀ ino, held ino → fs'.inodes.lookup ino = fs.inodes.lookup ino
  nextIno : fs'.nextIno = fs.nextIno
  reader : fs'.reader = fs.reader

/-- Maps with the same nodes at the paths `V`. -/
theorem agreeOn_ofMap {V : FsPath → Prop} {nodes nodes' : FMap FsPath Inode}
    (h : ∀ p, V p → nodes'.lookup p = nodes.lookup p) :
    AgreeOn V (fun _ => False) (ofMap nodes) (ofMap nodes') where
  names p hp := by
    have hmem : p ∈ nodes'.keys ↔ p ∈ nodes.keys := by
      rw [Finmap.mem_keys, Finmap.mem_keys, ← Finmap.lookup_isSome, ← Finmap.lookup_isSome, h p hp]
    rw [names_ofMap, names_ofMap]
    simp only [hmem]
  inodes p ino hp hname := by
    rw [names_ofMap] at hname
    split at hname
    · cases hname
      rw [inodes_ofMap_initial, inodes_ofMap_initial, h p hp]
    · cases hname
  held _ hino := hino.elim
  nextIno := rfl
  reader := rfl

/-- Resolving `path` meets directories only outside of `V`, and does not end there. -/
structure StaysOn (V : FsPath → Prop) (fs : FileSystem) (follow : Bool) (path : FsPath) : Prop where
  steps : ∀ p ∈ lookedUp fs.kindAt follow path, ¬ V p → fs.kindAt p = some .dir
  ends : ∀ q, fs.locate follow path = .ok q → V q

/-- A resolution that meets paths of `V` only. -/
theorem StaysOn.of_steps {V : FsPath → Prop} {fs : FileSystem} {follow : Bool} {path q : FsPath}
    (h : ∀ p ∈ lookedUp fs.kindAt follow path, V p) (hq : fs.locate follow path = .ok q) (hv : V q) :
    StaysOn V fs follow path where
  steps p hp hno := absurd (h p hp) hno
  ends q' hq' := by
    obtain rfl : q = q' := Except.ok.inj (hq.symm.trans hq')
    exact hv

/-- `path` resolves alike in both, and to a path of `V`. -/
structure Leads (V : FsPath → Prop) (fs fs' : FileSystem) (follow : Bool) (path : FsPath) :
    Prop where
  same : fs'.locate follow path = fs.locate follow path
  ends : ∀ q, fs.locate follow path = .ok q → V q

variable {V : FsPath → Prop} {held : Ino → Prop} {fs fs' : FileSystem} {follow : Bool}
  {path : FsPath}

theorem AgreeOn.node (h : AgreeOn V held fs fs') {p : FsPath} (hp : V p) :
    fs'.node p = fs.node p := by
  unfold FileSystem.node
  rw [h.names p hp]
  cases hname : fs.names.lookup p with
  | none => rfl
  | some ino => exact h.inodes p ino hp hname

theorem AgreeOn.kindAt (h : AgreeOn V held fs fs') {p : FsPath} (hp : V p) :
    fs'.kindAt p = fs.kindAt p := by
  unfold FileSystem.kindAt
  rw [h.node hp]

/-- **Where a path leads**: a resolution that stays on `V` in both goes the same way in both. -/
theorem AgreeOn.leads (h : AgreeOn V held fs fs') (hs : StaysOn V fs follow path)
    (hs' : StaysOn V fs' follow path) : Leads V fs fs' follow path := by
  refine ⟨Host.locate_agree fun p hp hp' => ?_, hs.ends⟩
  by_cases hv : V p
  · exact h.kindAt hv
  · rw [hs.steps p hp hv, hs'.steps p hp' hv]

/-- A number more is held. -/
theorem AgreeOn.hold (h : AgreeOn V held fs fs') {ino : Ino}
    (hino : fs'.inodes.lookup ino = fs.inodes.lookup ino) :
    AgreeOn V (fun i => held i ∨ i = ino) fs fs' where
  names := h.names
  inodes := h.inodes
  held i hi := by
    rcases hi with hi | rfl
    · exact h.held i hi
    · exact hino
  nextIno := h.nextIno
  reader := h.reader

theorem AgreeOn.mono (h : AgreeOn V held fs fs') {held' : Ino → Prop}
    (hsub : ∀ ino, held' ino → held ino) : AgreeOn V held' fs fs' :=
  ⟨h.names, h.inodes, fun ino hino => h.held ino (hsub ino hino), h.nextIno, h.reader⟩

/-! ## §3. Looking. -/

theorem AgreeOn.find (h : AgreeOn V held fs fs') (hl : Leads V fs fs' follow path) :
    fs'.find follow path = fs.find follow path := by
  unfold FileSystem.find
  rw [hl.same]
  cases hloc : fs.locate follow path with
  | error errno => rfl
  | ok q =>
    have hq : V q := hl.ends q hloc
    simp only [h.names q hq]
    cases hname : fs.names.lookup q with
    | none => rfl
    | some ino => simp only [h.inodes q ino hq hname]

section Looking

variable (h : AgreeOn V held fs fs')

include h

theorem AgreeOn.symlinkMetadata (hl : Leads V fs fs' false path) :
    fs'.symlinkMetadata path = fs.symlinkMetadata path := by
  unfold FileSystem.symlinkMetadata
  rw [h.find hl]

theorem AgreeOn.readLink (hl : Leads V fs fs' false path) : fs'.readLink path = fs.readLink path := by
  unfold FileSystem.readLink
  rw [h.find hl]

theorem AgreeOn.exists (hl : Leads V fs fs' true path) : fs'.exists path = fs.exists path := by
  unfold FileSystem.exists
  rw [h.find hl]

theorem AgreeOn.readFile (hl : Leads V fs fs' true path) : fs'.readFile path = fs.readFile path := by
  unfold FileSystem.readFile
  rw [h.find hl]

theorem AgreeOn.readIno {ino : Ino} (hino : held ino) (offset len : Nat) :
    fs'.readIno ino offset len = fs.readIno ino offset len := by
  unfold FileSystem.readIno
  rw [h.held ino hino]

end Looking

/-- All children of a directory are at paths of `V`. -/
theorem AgreeOn.entriesAt (h : AgreeOn V held fs fs') {dir : FsPath}
    (hs : ∀ n, dir ++ [n] ∈ fs.names → V (dir ++ [n]))
    (hs' : ∀ n, dir ++ [n] ∈ fs'.names → V (dir ++ [n])) : fs'.entriesAt dir = fs.entriesAt dir := by
  have hkind : ∀ n, fs'.kindAt (dir ++ [n]) = fs.kindAt (dir ++ [n]) := by
    intro n
    by_cases hv : V (dir ++ [n])
    · exact h.kindAt hv
    · have hnone : ∀ {t : FileSystem}, (dir ++ [n] ∈ t.names → V (dir ++ [n])) →
          t.kindAt (dir ++ [n]) = none := by
        intro t ht
        cases hk : t.kindAt (dir ++ [n]) with
        | none => rfl
        | some kind => exact absurd (ht (mem_names_of_kindAt hk)) hv
      rw [hnone (hs n), hnone (hs' n)]
  have hsame : (fun p : FsPath => if p.parent = some dir then
      p.fileName.bind fun n => (fs'.kindAt p).map fun kind => (n, kind) else none)
      = fun p : FsPath => if p.parent = some dir then
        p.fileName.bind fun n => (fs.kindAt p).map fun kind => (n, kind) else none := by
    funext p
    by_cases hp : p.parent = some dir
    · obtain ⟨n, rfl⟩ := FsPath.parent_eq_some_iff.mp hp
      rw [if_pos hp, if_pos hp, hkind n]
    · rw [if_neg hp, if_neg hp]
  have hmem : ∀ {t : FileSystem} p, (if FsPath.parent p = some dir then
      p.fileName.bind fun n => (t.kindAt p).map fun kind => (n, kind) else none).isSome = true →
      p ∈ t.names.keys := by
    intro t p hp
    split at hp
    · obtain ⟨e, he⟩ := Option.isSome_iff_exists.mp hp
      obtain ⟨n, -, hn⟩ := Option.bind_eq_some_iff.mp he
      obtain ⟨kind, hk, -⟩ := Option.map_eq_some_iff.mp hn
      exact Finmap.mem_keys.mpr (mem_names_of_kindAt hk)
    · cases hp
  unfold FileSystem.entriesAt
  rw [hsame]
  exact filterMap_sortedKeys_congr
    (fun p hp => hmem p ((congrArg Option.isSome (congrFun hsame p)).trans hp)) hmem

/-! ## §4. Changing inodes. -/

/-- Two results of one call: file systems that agree, or the same error. -/
def CallsAgreeOn (V : FsPath → Prop) (held : Ino → Prop) (r r' : Except Errno FileSystem) : Prop :=
  match r, r' with
  | .ok fs, .ok fs' => AgreeOn V held fs fs'
  | .error errno, .error errno' => errno = errno'
  | _, _ => False

theorem AgreeOn.putInode (h : AgreeOn V held fs fs') (ino : Ino) (inode : Inode) :
    AgreeOn V held (fs.putInode ino inode) (fs'.putInode ino inode) := by
  have hput : ∀ i, fs'.inodes.lookup i = fs.inodes.lookup i →
      (fs'.inodes.insert ino inode).lookup i = (fs.inodes.insert ino inode).lookup i := by
    intro i hi
    rw [lookup_insert_ite, lookup_insert_ite, hi]
  exact ⟨h.names, fun p i hp hname => hput i (h.inodes p i hp hname), fun i hi => hput i (h.held i hi),
    h.nextIno, h.reader⟩

/-- The inode behind `ino` is the same in both. -/
theorem AgreeOn.modifyIno (h : AgreeOn V held fs fs') {ino : Ino}
    (hino : fs'.inodes.lookup ino = fs.inodes.lookup ino) (f : Bytes → Bytes) :
    CallsAgreeOn V held (fs.modifyIno ino f) (fs'.modifyIno ino f) := by
  unfold FileSystem.modifyIno
  rw [hino]
  cases fs.inodes.lookup ino with
  | none => rfl
  | some inode =>
    obtain ⟨content, perm⟩ := inode
    cases content with
    | file data => exact h.putInode ino _
    | dir => rfl
    | symlink target => rfl

theorem AgreeOn.modifyPerm (h : AgreeOn V held fs fs') {ino : Ino}
    (hino : fs'.inodes.lookup ino = fs.inodes.lookup ino) (f : Kind → Perm → Perm) :
    CallsAgreeOn V held (fs.modifyPerm ino f) (fs'.modifyPerm ino f) := by
  unfold FileSystem.modifyPerm
  rw [hino]
  cases fs.inodes.lookup ino with
  | none => rfl
  | some inode => exact h.putInode ino _

/-- A call on the inode that a path leads to. -/
theorem AgreeOn.atFound (h : AgreeOn V held fs fs') (hl : Leads V fs fs' follow path)
    {f : FileSystem → Ino → Except Errno FileSystem}
    (hf : ∀ ino, fs'.inodes.lookup ino = fs.inodes.lookup ino →
      CallsAgreeOn V held (f fs ino) (f fs' ino)) :
    CallsAgreeOn V held
      (match fs.find follow path with
        | .error e => .error e
        | .ok found => f fs found.ino)
      (match fs'.find follow path with
        | .error e => .error e
        | .ok found => f fs' found.ino) := by
  rw [h.find hl]
  cases hfound : fs.find follow path with
  | error errno => rfl
  | ok found =>
    obtain ⟨hat, hname, -⟩ := find_ok hfound
    exact hf found.ino (h.inodes found.path found.ino (hl.ends _ hat) hname)

theorem AgreeOn.setPermissions (h : AgreeOn V held fs fs') (hl : Leads V fs fs' true path)
    (mode : UInt32) : CallsAgreeOn V held (fs.setPermissions path mode)
      (fs'.setPermissions path mode) :=
  h.atFound (f := fun fs ino => fs.chmodIno ino mode) hl fun _ hino => h.modifyPerm hino _

theorem AgreeOn.chown (h : AgreeOn V held fs fs') (hl : Leads V fs fs' true path)
    (uid gid : Option UInt32) : CallsAgreeOn V held (fs.chown path uid gid)
      (fs'.chown path uid gid) :=
  h.atFound (f := fun fs ino => fs.chownIno ino uid gid) hl fun _ hino => h.modifyPerm hino _

/-! ## §5. Changing names. -/

/-- If there is a name below `dir`, then one of `V`. -/
def ShowsEntry (V : FsPath → Prop) (fs : FileSystem) (dir : FsPath) : Prop :=
  fs.hasEntry dir = true → ∃ p, V p ∧ Below dir p ∧ p ∈ fs.names

/-- Only names of `V` come to paths of `V` when `src` moves to `dst`. -/
def MovesShown (V : FsPath → Prop) (fs : FileSystem) (src dst : FsPath) : Prop :=
  ∀ p ∈ fs.names, src <+: p → V (rebase src dst p) → V p

theorem hasEntry_iff {dir : FsPath} : fs.hasEntry dir = true ↔ ∃ p ∈ fs.names, Below dir p := by
  unfold hasEntry
  rw [decide_eq_true_eq]
  simp only [Finmap.mem_keys]

theorem AgreeOn.mem (h : AgreeOn V held fs fs') {p : FsPath} (hp : V p) :
    p ∈ fs'.names ↔ p ∈ fs.names := by
  rw [← Finmap.lookup_isSome, ← Finmap.lookup_isSome, h.names p hp]

theorem AgreeOn.symm (h : AgreeOn V held fs fs') : AgreeOn V held fs' fs where
  names p hp := (h.names p hp).symm
  inodes p ino hp hname := (h.inodes p ino hp (h.names p hp ▸ hname)).symm
  held ino hino := (h.held ino hino).symm
  nextIno := h.nextIno.symm
  reader := h.reader.symm

theorem AgreeOn.hasEntry (h : AgreeOn V held fs fs') {dir : FsPath} (hs : ShowsEntry V fs dir)
    (hs' : ShowsEntry V fs' dir) : fs'.hasEntry dir = fs.hasEntry dir := by
  have hone : ∀ {t t' : FileSystem}, AgreeOn V held t t' → ShowsEntry V t dir →
      t.hasEntry dir = true → t'.hasEntry dir = true := by
    intro t t' h hs hentry
    obtain ⟨p, hp, hbelow, hmem⟩ := hs hentry
    exact hasEntry_iff.mpr ⟨p, (h.mem hp).mpr hmem, hbelow⟩
  exact Bool.eq_iff_iff.mpr ⟨hone h.symm hs', hone h hs⟩

theorem AgreeOn.addNode (h : AgreeOn V held fs fs') (path : FsPath) (inode : Inode) :
    AgreeOn V held (fs.addNode path inode) (fs'.addNode path inode) := by
  have hput : ∀ i, (i = .created fs.nextIno ∨ fs'.inodes.lookup i = fs.inodes.lookup i) →
      (fs'.addNode path inode).inodes.lookup i = (fs.addNode path inode).inodes.lookup i := by
    intro i hi
    show (fs'.inodes.insert (.created fs'.nextIno) inode).lookup i
      = (fs.inodes.insert (.created fs.nextIno) inode).lookup i
    rw [h.nextIno, lookup_insert_ite, lookup_insert_ite]
    rcases hi with rfl | hi
    · rw [if_pos rfl, if_pos rfl]
    · rw [hi]
  refine ⟨fun p hp => ?_, fun p ino hp hname => hput ino ?_, fun ino hino => hput ino (.inr (h.held ino hino)),
    congrArg (· + 1) h.nextIno, h.reader⟩
  · show (fs'.names.insert path (.created fs'.nextIno)).lookup p
      = (fs.names.insert path (.created fs.nextIno)).lookup p
    rw [h.nextIno, lookup_insert_ite, lookup_insert_ite, h.names p hp]
  · have hname' : (fs.names.insert path (.created fs.nextIno)).lookup p = some ino := hname
    rw [lookup_insert_ite] at hname'
    split at hname'
    · exact .inl (Option.some.inj hname').symm
    · exact .inr (h.inodes p ino hp hname')

theorem AgreeOn.dropName (h : AgreeOn V held fs fs') (path : FsPath) :
    AgreeOn V held (fs.dropName path) (fs'.dropName path) where
  names p hp := by
    show (fs'.names.erase path).lookup p = (fs.names.erase path).lookup p
    rw [lookup_erase_ite, lookup_erase_ite, h.names p hp]
  inodes p ino hp hname := by
    have hname' : (fs.names.erase path).lookup p = some ino := hname
    rw [lookup_erase_ite] at hname'
    split at hname'
    · cases hname'
    · exact h.inodes p ino hp hname'
  held := h.held
  nextIno := h.nextIno
  reader := h.reader

theorem AgreeOn.moveNames (h : AgreeOn V held fs fs') {src dst : FsPath}
    (hs : MovesShown V fs src dst) (hs' : MovesShown V fs' src dst) :
    AgreeOn V held (fs.moveNames src dst) (fs'.moveNames src dst) := by
  -- a name that comes to `V` comes from `V`
  have hfrom : ∀ {t : FileSystem}, MovesShown V t src dst → ∀ p old ino, V p →
      movedFrom src dst p = some old → t.names.lookup old = some ino → V old := by
    intro t ht p old ino hp hold hname
    unfold movedFrom at hold
    split_ifs at hold with hdst hsrc
    · cases hold
      apply ht _ (Finmap.mem_of_lookup_eq_some hname) (prefix_rebase dst src p)
      rwa [rebase_rebase hdst]
    · cases hold
      exact hp
  have hlookup : ∀ p old, V p → movedFrom src dst p = some old →
      fs'.names.lookup old = fs.names.lookup old := by
    intro p old hp hold
    cases hname : fs.names.lookup old with
    | some ino => rw [h.names old (hfrom hs p old ino hp hold hname), hname]
    | none =>
      cases hname' : fs'.names.lookup old with
      | none => rfl
      | some ino =>
        rw [h.names old (hfrom hs' p old ino hp hold hname'), hname] at hname'
        cases hname'
  refine ⟨fun p hp => ?_, fun p ino hp hname => ?_, h.held, h.nextIno, h.reader⟩
  · rw [names_moveNames, names_moveNames]
    cases hold : movedFrom src dst p with
    | none => rfl
    | some old => exact hlookup p old hp hold
  · rw [names_moveNames] at hname
    obtain ⟨old, hold, hname⟩ := Option.bind_eq_some_iff.mp hname
    exact h.inodes old ino (hfrom hs p old ino hp hold hname) hname

theorem AgreeOn.makeNode (h : AgreeOn V held fs fs') (hl : Leads V fs fs' false path)
    (inode : Inode) : CallsAgreeOn V held (fs.makeNode path inode) (fs'.makeNode path inode) := by
  unfold FileSystem.makeNode
  rw [hl.same]
  cases hloc : fs.locate false path with
  | error errno => rfl
  | ok q =>
    simp only [h.names q (hl.ends q hloc)]
    cases fs.names.lookup q with
    | some ino => rfl
    | none => exact h.addNode q inode

theorem AgreeOn.removeFile (h : AgreeOn V held fs fs') (hl : Leads V fs fs' false path) :
    CallsAgreeOn V held (fs.removeFile path) (fs'.removeFile path) := by
  unfold FileSystem.removeFile
  rw [h.find hl]
  cases fs.find false path with
  | error errno => rfl
  | ok found =>
    dsimp only
    split_ifs
    · rfl
    · exact h.dropName _

theorem AgreeOn.removeDir (h : AgreeOn V held fs fs') (hl : Leads V fs fs' false path)
    (hs : ∀ q, fs.locate false path = .ok q → ShowsEntry V fs q)
    (hs' : ∀ q, fs'.locate false path = .ok q → ShowsEntry V fs' q) :
    CallsAgreeOn V held (fs.removeDir path) (fs'.removeDir path) := by
  unfold FileSystem.removeDir
  rw [h.find hl]
  cases hfound : fs.find false path with
  | error errno => rfl
  | ok found =>
    have hat : fs.locate false path = .ok found.path := (find_ok hfound).1
    dsimp only
    rw [h.hasEntry (hs _ hat) (hs' _ (hl.same.trans hat))]
    split_ifs
    · rfl
    · rfl
    · rfl
    · exact h.dropName _

/-- What a rename needs of the names below its ends. -/
structure RenameStaysOn (V : FsPath → Prop) (fs : FileSystem) (src dst : FsPath) : Prop where
  entry : ∀ d, fs.locate false dst = .ok d → ShowsEntry V fs d
  moves : ∀ s d, fs.locate false src = .ok s → fs.locate false dst = .ok d → MovesShown V fs s d

theorem AgreeOn.rename (h : AgreeOn V held fs fs') {src dst : FsPath}
    (hsrc : Leads V fs fs' false src) (hdst : Leads V fs fs' false dst)
    (hs : RenameStaysOn V fs src dst) (hs' : RenameStaysOn V fs' src dst) :
    CallsAgreeOn V held (fs.rename src dst) (fs'.rename src dst) := by
  unfold FileSystem.rename
  rw [h.find hsrc, hdst.same]
  cases hfound : fs.find false src with
  | error errno => rfl
  | ok found =>
    have hat : fs.locate false src = .ok found.path := (find_ok hfound).1
    cases hloc : fs.locate false dst with
    | error errno => rfl
    | ok q =>
      have hq : V q := hdst.ends q hloc
      have hreplace : fs'.replaceable found.inode q = fs.replaceable found.inode q := by
        unfold replaceable
        rw [h.kindAt hq, h.hasEntry (hs.entry q hloc) (hs'.entry q (hdst.same.trans hloc))]
      simp only [h.names q hq, hreplace]
      split_ifs
      · rfl
      · rfl
      · rfl
      · exact h
      · cases fs.replaceable found.inode q with
        | error errno => rfl
        | ok u =>
          exact h.moveNames (hs.moves _ _ hat hloc)
            (hs'.moves _ _ (hsrc.same.trans hat) (hdst.same.trans hloc))

/-- An open gives the same inode, or makes the same file. -/
theorem AgreeOn.openFile (h : AgreeOn V held fs fs') (hl : Leads V fs fs' true path) (cred : Cred)
    (opts : OpenOptions) :
    match fs.openFile cred opts path, fs'.openFile cred opts path with
    | .ok (ino, t), .ok (ino', t') => ino = ino' ∧ AgreeOn V (fun i => held i ∨ i = ino) t t'
    | .error errno, .error errno' => errno = errno'
    | _, _ => False := by
  unfold FileSystem.openFile
  by_cases hopts : opts.create = true ∧ opts.write = false ∧ opts.append = false
  · rw [if_pos hopts, if_pos hopts]
  · rw [if_neg hopts, if_neg hopts, hl.same]
    cases hloc : fs.locate true path with
    | error errno => rfl
    | ok q =>
      have hq : V q := hl.ends q hloc
      simp only [h.names q hq, h.kindAt hq]
      cases hname : fs.names.lookup q with
      | some ino =>
        simp only
        split_ifs
        · rfl
        · exact ⟨rfl, h.hold (h.inodes q ino hq hname)⟩
      | none =>
        simp only
        split_ifs
        · refine ⟨by rw [h.nextIno], (h.addNode q _).hold ?_⟩
          show (fs'.inodes.insert (.created fs'.nextIno) _).lookup (.created fs.nextIno)
            = (fs.inodes.insert (.created fs.nextIno) _).lookup (.created fs.nextIno)
          rw [h.nextIno, Finmap.lookup_insert, Finmap.lookup_insert]
        · rfl

/-! ## §6. Where a path leads afterwards. -/

/-- The path leads where it led. -/
theorem Leads.later (hl : Leads V fs fs' follow path) {t t' : FileSystem}
    (h : t.locate follow path = fs.locate follow path)
    (h' : t'.locate follow path = fs'.locate follow path) : Leads V t t' follow path := by
  refine ⟨?_, fun q hq => hl.ends q ?_⟩
  · rw [h, h']
    exact hl.same
  · rwa [h] at hq

/-- Between calls that move no name. -/
theorem Leads.shape (hl : Leads V fs fs' follow path) {t t' : FileSystem} (h : SameShape fs t)
    (h' : SameShape fs' t') : Leads V t t' follow path :=
  hl.later (by rw [h.locate]) (by rw [h'.locate])

/-- An open leaves where its path leads, the last link not followed. -/
theorem locate_openFile {cred : Cred} {opts : OpenOptions} {r : Ino × FileSystem}
    (h : fs.openFile cred opts path = .ok r) : r.2.locate false path = fs.locate false path := by
  rcases openFile_ok h with hsame | ⟨-, q, inode, hq, hnew⟩
  · rw [hsame]
  · rw [hnew]
    exact locate_addNode hq

end FileSystem

end Cas.Host
