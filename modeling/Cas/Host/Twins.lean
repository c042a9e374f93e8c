/-
  Cas.Host.Twins — two file systems that differ in the content of some
  regular files.

  Names and kinds are the same in both, so every path resolves alike and
  every call that changes names does the same to both.  A call tells the
  two apart only when it looks at the content behind one of the inodes
  `S`; `Clear` paths do not lead there.
-/
import Cas.Host.Calls

namespace Cas.Host.FileSystem

open Cas.Lib

/-- Only the content of the regular files `S` differs. -/
structure Twins (S : Ino → Prop) (fs fs' : FileSystem) : Prop where
  names : fs'.names = fs.names
  nextIno : fs'.nextIno = fs.nextIno
  reader : fs'.reader = fs.reader
  others : ∀ ino, ¬ S ino → fs'.inodes.lookup ino = fs.inodes.lookup ino
  files : ∀ ino, S ino → ∃ data data' perm, fs.inodes.lookup ino = some ⟨.file data, perm⟩ ∧
    fs'.inodes.lookup ino = some ⟨.file data', perm⟩
  old : ∀ n, S (.created n) → n < fs.nextIno

/-- Two results of one call: twins again, or the same error. -/
def TwinCalls (S : Ino → Prop) (r r' : Except Errno FileSystem) : Prop :=
  match r, r' with
  | .ok fs, .ok fs' => Twins S fs fs'
  | .error errno, .error errno' => errno = errno'
  | _, _ => False

/-- `path` does not lead to an inode of `S`. -/
def Clear (S : Ino → Prop) (fs : FileSystem) (follow : Bool) (path : FsPath) : Prop :=
  ∀ found, fs.find follow path = .ok found → ¬ S found.ino

variable {S : Ino → Prop} {fs fs' : FileSystem}

/-! ## §1. Looking. -/

/-- The other direction of `find_ok`. -/
theorem find_of_locate {follow : Bool} {path q : FsPath} {ino : Ino} {inode : Inode}
    (hat : fs.locate follow path = .ok q) (hname : fs.names.lookup q = some ino)
    (hinode : fs.inodes.lookup ino = some inode) :
    fs.find follow path = .ok ⟨q, ino, inode⟩ := by
  unfold find
  rw [hat]
  simp only [hname, hinode]

theorem Twins.shape (h : Twins S fs fs') : SameShape fs fs' := by
  refine ⟨h.names, fun ino => ?_⟩
  by_cases hino : S ino
  · obtain ⟨data, data', perm, h₁, h₂⟩ := h.files ino hino
    rw [h₁, h₂]
    rfl
  · rw [h.others ino hino]

theorem Twins.locate (h : Twins S fs fs') : fs'.locate = fs.locate := h.shape.locate

theorem Twins.kindAt (h : Twins S fs fs') : fs'.kindAt = fs.kindAt := h.shape.kindAt

/-- What one finds the other finds, up to content. -/
theorem Twins.find_ok (h : Twins S fs fs') {follow : Bool} {path : FsPath} {found : Found}
    (hfound : fs.find follow path = .ok found) :
    ∃ inode, fs'.find follow path = .ok ⟨found.path, found.ino, inode⟩ ∧
      inode.content.kind = found.inode.content.kind ∧ (¬ S found.ino → inode = found.inode) := by
  obtain ⟨hat, hname, hinode⟩ := FileSystem.find_ok hfound
  have hkind := h.shape.kinds found.ino
  rw [hinode] at hkind
  cases hinode' : fs'.inodes.lookup found.ino with
  | none =>
    rw [hinode'] at hkind
    cases hkind
  | some inode =>
    rw [hinode'] at hkind
    refine ⟨inode, ?_, Option.some.inj hkind, fun hino => ?_⟩
    · exact find_of_locate (h.locate ▸ hat) (h.names ▸ hname) hinode'
    · rw [h.others found.ino hino, hinode] at hinode'
      exact (Option.some.inj hinode').symm

theorem Twins.perm_eq (h : Twins S fs fs') {ino : Ino} {inode inode' : Inode}
    (hinode : fs.inodes.lookup ino = some inode) (hinode' : fs'.inodes.lookup ino = some inode') :
    inode'.perm = inode.perm := by
  by_cases hino : S ino
  · obtain ⟨data, data', perm, h₁, h₂⟩ := h.files ino hino
    rw [Option.some.inj (hinode.symm.trans h₁), Option.some.inj (hinode'.symm.trans h₂)]
  · rw [h.others ino hino, hinode] at hinode'
    rw [Option.some.inj hinode']

theorem Twins.find_error (h : Twins S fs fs') {follow : Bool} {path : FsPath} {errno : Errno}
    (herror : fs.find follow path = .error errno) : fs'.find follow path = .error errno := by
  unfold find at herror ⊢
  rw [h.locate]
  cases hloc : fs.locate follow path with
  | error e =>
    rw [hloc] at herror
    exact herror
  | ok q =>
    rw [hloc] at herror
    simp only [h.names] at herror ⊢
    cases hname : fs.names.lookup q with
    | none =>
      simp only [hname] at herror ⊢
      exact herror
    | some ino =>
      simp only [hname] at herror ⊢
      have hkind := h.shape.kinds ino
      cases hinode : fs.inodes.lookup ino with
      | none =>
        rw [hinode] at hkind
        rw [Option.map_eq_none_iff.mp hkind]
        simp only [hinode] at herror
        exact herror
      | some inode =>
        simp only [hinode] at herror
        cases herror

theorem Twins.exists (h : Twins S fs fs') (path : FsPath) : fs'.exists path = fs.exists path := by
  unfold FileSystem.exists
  cases hfound : fs.find true path with
  | ok found =>
    obtain ⟨inode, hfound', -, -⟩ := h.find_ok hfound
    rw [hfound']
    rfl
  | error errno => rw [h.find_error hfound]

theorem Twins.symlinkMetadata (h : Twins S fs fs') {path : FsPath}
    (hclear : fs.Clear S false path) : fs'.symlinkMetadata path = fs.symlinkMetadata path := by
  unfold FileSystem.symlinkMetadata
  cases hfound : fs.find false path with
  | ok found =>
    obtain ⟨inode, hfound', -, hsame⟩ := h.find_ok hfound
    rw [hfound', hsame (hclear found hfound)]
  | error errno => rw [h.find_error hfound]

theorem Twins.readFile (h : Twins S fs fs') {path : FsPath} (hclear : fs.Clear S true path) :
    fs'.readFile path = fs.readFile path := by
  unfold FileSystem.readFile
  cases hfound : fs.find true path with
  | ok found =>
    obtain ⟨inode, hfound', -, hsame⟩ := h.find_ok hfound
    rw [hfound', hsame (hclear found hfound)]
  | error errno => rw [h.find_error hfound]

/-- The inodes of `S` are no links. -/
theorem Twins.readLink (h : Twins S fs fs') (path : FsPath) :
    fs'.readLink path = fs.readLink path := by
  unfold FileSystem.readLink
  cases hfound : fs.find false path with
  | ok found =>
    obtain ⟨inode, hfound', hkind, -⟩ := h.find_ok hfound
    rw [hfound']
    dsimp only
    cases hc : inode.content <;> cases hc' : found.inode.content <;> rw [hc, hc'] at hkind <;>
      cases hkind
    rfl
  | error errno => rw [h.find_error hfound]

theorem Twins.readDir (h : Twins S fs fs') (path : FsPath) : fs'.readDir path = fs.readDir path := by
  have hentries : ∀ dir, fs'.entriesAt dir = fs.entriesAt dir := by
    intro dir
    unfold entriesAt
    rw [h.names, h.kindAt]
  unfold FileSystem.readDir
  cases hfound : fs.find true path with
  | ok found =>
    obtain ⟨inode, hfound', hkind, -⟩ := h.find_ok hfound
    have hperm : inode.perm = found.inode.perm :=
      h.perm_eq (FileSystem.find_ok hfound).2.2 (FileSystem.find_ok hfound').2.2
    rw [hfound']
    dsimp only
    rw [hentries, h.reader, hperm]
    cases hc : inode.content <;> cases hc' : found.inode.content <;> rw [hc, hc'] at hkind <;>
      cases hkind
  | error errno => rw [h.find_error hfound]

theorem Twins.readIno (h : Twins S fs fs') {ino : Ino} (hino : ¬ S ino) (offset len : Nat) :
    fs'.readIno ino offset len = fs.readIno ino offset len := by
  unfold FileSystem.readIno
  rw [h.others ino hino]

/-! ## §2. Changing inodes. -/

theorem Twins.putOther (h : Twins S fs fs') {ino : Ino} (hino : ¬ S ino) (inode : Inode) :
    Twins S (fs.putInode ino inode) (fs'.putInode ino inode) where
  names := h.names
  nextIno := h.nextIno
  reader := h.reader
  others i hi := by
    show (fs'.inodes.insert ino inode).lookup i = (fs.inodes.insert ino inode).lookup i
    rw [lookup_insert_ite, lookup_insert_ite, h.others i hi]
  files i hi := by
    have hne : i ≠ ino := fun e => hino (e ▸ hi)
    obtain ⟨data, data', perm, h₁, h₂⟩ := h.files i hi
    exact ⟨data, data', perm, (Finmap.lookup_insert_of_ne _ hne).trans h₁,
      (Finmap.lookup_insert_of_ne _ hne).trans h₂⟩
  old := h.old

theorem Twins.putFile (h : Twins S fs fs') {ino : Ino} (hino : S ino) (data data' : Bytes)
    (perm : Perm) : Twins S (fs.putInode ino ⟨.file data, perm⟩)
      (fs'.putInode ino ⟨.file data', perm⟩) where
  names := h.names
  nextIno := h.nextIno
  reader := h.reader
  others i hi := by
    have hne : i ≠ ino := fun e => hi (e ▸ hino)
    show (fs'.inodes.insert ino _).lookup i = (fs.inodes.insert ino _).lookup i
    rw [Finmap.lookup_insert_of_ne _ hne, Finmap.lookup_insert_of_ne _ hne, h.others i hi]
  files i hi := by
    by_cases he : i = ino
    · subst he
      exact ⟨data, data', perm, Finmap.lookup_insert _, Finmap.lookup_insert _⟩
    · obtain ⟨d, d', q, h₁, h₂⟩ := h.files i hi
      exact ⟨d, d', q, (Finmap.lookup_insert_of_ne _ he).trans h₁,
        (Finmap.lookup_insert_of_ne _ he).trans h₂⟩
  old := h.old

theorem Twins.modifyIno (h : Twins S fs fs') (ino : Ino) (f : Bytes → Bytes) :
    TwinCalls S (fs.modifyIno ino f) (fs'.modifyIno ino f) := by
  unfold FileSystem.modifyIno
  by_cases hino : S ino
  · obtain ⟨data, data', perm, h₁, h₂⟩ := h.files ino hino
    rw [h₁, h₂]
    exact h.putFile hino _ _ _
  · rw [h.others ino hino]
    cases fs.inodes.lookup ino with
    | none => rfl
    | some inode =>
      obtain ⟨content, perm⟩ := inode
      cases content with
      | file data => exact h.putOther hino _
      | dir => rfl
      | symlink target => rfl

theorem Twins.modifyPerm (h : Twins S fs fs') (ino : Ino) (f : Kind → Perm → Perm) :
    TwinCalls S (fs.modifyPerm ino f) (fs'.modifyPerm ino f) := by
  unfold FileSystem.modifyPerm
  by_cases hino : S ino
  · obtain ⟨data, data', perm, h₁, h₂⟩ := h.files ino hino
    rw [h₁, h₂]
    exact h.putFile hino _ _ _
  · rw [h.others ino hino]
    cases fs.inodes.lookup ino with
    | none => rfl
    | some inode => exact h.putOther hino _

theorem Twins.setPermissions (h : Twins S fs fs') (path : FsPath) (mode : UInt32) :
    TwinCalls S (fs.setPermissions path mode) (fs'.setPermissions path mode) := by
  unfold FileSystem.setPermissions
  cases hfound : fs.find true path with
  | ok found =>
    obtain ⟨inode, hfound', -, -⟩ := h.find_ok hfound
    rw [hfound']
    exact h.modifyPerm _ _
  | error errno =>
    rw [h.find_error hfound]
    rfl

theorem Twins.chown (h : Twins S fs fs') (path : FsPath) (uid gid : Option UInt32) :
    TwinCalls S (fs.chown path uid gid) (fs'.chown path uid gid) := by
  unfold FileSystem.chown
  cases hfound : fs.find true path with
  | ok found =>
    obtain ⟨inode, hfound', -, -⟩ := h.find_ok hfound
    rw [hfound']
    exact h.modifyPerm _ _
  | error errno =>
    rw [h.find_error hfound]
    rfl

/-! ## §3. Changing names. -/

/-- An inode number not used before is not in `S`. -/
theorem Twins.fresh (h : Twins S fs fs') : ¬ S (.created fs.nextIno) :=
  fun hS => Nat.lt_irrefl _ (h.old _ hS)

theorem Twins.addNode (h : Twins S fs fs') (path : FsPath) (inode : Inode) :
    Twins S (fs.addNode path inode) (fs'.addNode path inode) where
  names := by
    show fs'.names.insert path (.created fs'.nextIno) = fs.names.insert path (.created fs.nextIno)
    rw [h.names, h.nextIno]
  nextIno := by
    show fs'.nextIno + 1 = fs.nextIno + 1
    rw [h.nextIno]
  reader := h.reader
  others i hi := by
    show (fs'.inodes.insert (.created fs'.nextIno) inode).lookup i
      = (fs.inodes.insert (.created fs.nextIno) inode).lookup i
    rw [h.nextIno, lookup_insert_ite, lookup_insert_ite, h.others i hi]
  files i hi := by
    have hne : i ≠ .created fs.nextIno := fun e => h.fresh (e ▸ hi)
    obtain ⟨data, data', perm, h₁, h₂⟩ := h.files i hi
    refine ⟨data, data', perm, (Finmap.lookup_insert_of_ne _ hne).trans h₁, ?_⟩
    show (fs'.inodes.insert (.created fs'.nextIno) inode).lookup i = _
    rw [h.nextIno]
    exact (Finmap.lookup_insert_of_ne _ hne).trans h₂
  old n hn := Nat.lt_succ_of_lt (h.old n hn)

theorem Twins.dropName (h : Twins S fs fs') (path : FsPath) :
    Twins S (fs.dropName path) (fs'.dropName path) where
  names := congrArg (·.erase path) h.names
  nextIno := h.nextIno
  reader := h.reader
  others := h.others
  files := h.files
  old := h.old

theorem Twins.moveNames (h : Twins S fs fs') (src dst : FsPath) :
    Twins S (fs.moveNames src dst) (fs'.moveNames src dst) where
  names := by
    show collect (fs'.names.keys ∪ fs'.names.keys.image (rebase src dst)) (fun path =>
        (movedFrom src dst path).bind fun old => fs'.names.lookup old) =
      collect (fs.names.keys ∪ fs.names.keys.image (rebase src dst)) fun path =>
        (movedFrom src dst path).bind fun old => fs.names.lookup old
    rw [h.names]
  nextIno := h.nextIno
  reader := h.reader
  others := h.others
  files := h.files
  old := h.old

theorem Twins.hasEntry (h : Twins S fs fs') (dir : FsPath) : fs'.hasEntry dir = fs.hasEntry dir := by
  unfold FileSystem.hasEntry
  rw [h.names]

theorem Twins.makeNode (h : Twins S fs fs') (path : FsPath) (inode : Inode) :
    TwinCalls S (fs.makeNode path inode) (fs'.makeNode path inode) := by
  unfold FileSystem.makeNode
  rw [h.locate]
  cases fs.locate false path with
  | error errno => rfl
  | ok q =>
    simp only [h.names]
    cases fs.names.lookup q with
    | some ino => rfl
    | none => exact h.addNode q inode

theorem Twins.removeFile (h : Twins S fs fs') (path : FsPath) :
    TwinCalls S (fs.removeFile path) (fs'.removeFile path) := by
  unfold FileSystem.removeFile
  cases hfound : fs.find false path with
  | ok found =>
    obtain ⟨inode, hfound', hkind, -⟩ := h.find_ok hfound
    rw [hfound']
    simp only [hkind]
    split_ifs
    · rfl
    · exact h.dropName _
  | error errno =>
    rw [h.find_error hfound]
    rfl

theorem Twins.removeDir (h : Twins S fs fs') (path : FsPath) :
    TwinCalls S (fs.removeDir path) (fs'.removeDir path) := by
  unfold FileSystem.removeDir
  cases hfound : fs.find false path with
  | ok found =>
    obtain ⟨inode, hfound', hkind, -⟩ := h.find_ok hfound
    rw [hfound']
    simp only [hkind, h.hasEntry]
    split_ifs
    · rfl
    · rfl
    · rfl
    · exact h.dropName _
  | error errno =>
    rw [h.find_error hfound]
    rfl

theorem Twins.rename (h : Twins S fs fs') (src dst : FsPath) :
    TwinCalls S (fs.rename src dst) (fs'.rename src dst) := by
  unfold FileSystem.rename
  cases hfound : fs.find false src with
  | error errno =>
    rw [h.find_error hfound]
    rfl
  | ok found =>
    obtain ⟨inode, hfound', hkind, -⟩ := h.find_ok hfound
    have hreplace : ∀ q, fs'.replaceable inode q = fs.replaceable found.inode q := by
      intro q
      unfold replaceable
      simp only [h.kindAt, h.hasEntry, hkind]
    rw [hfound', h.locate]
    simp only [h.names, hreplace]
    cases fs.locate false dst with
    | error errno => rfl
    | ok q =>
      simp only
      split_ifs
      · rfl
      · rfl
      · rfl
      · exact h
      · cases fs.replaceable found.inode q with
        | error errno => rfl
        | ok u => exact h.moveNames _ _

/-- An open for which the path is clear gives an inode that is not in `S`. -/
theorem Twins.openFile (h : Twins S fs fs') {path : FsPath} (hclear : fs.Clear S true path)
    (cred : Cred) (opts : OpenOptions) :
    match fs.openFile cred opts path, fs'.openFile cred opts path with
    | .ok (ino, t), .ok (ino', t') => ino = ino' ∧ Twins S t t' ∧ ¬ S ino
    | .error errno, .error errno' => errno = errno'
    | _, _ => False := by
  unfold FileSystem.openFile
  by_cases hopts : opts.create = true ∧ opts.write = false ∧ opts.append = false
  · rw [if_pos hopts, if_pos hopts]
  · rw [if_neg hopts, if_neg hopts, h.locate]
    cases hloc : fs.locate true path with
    | error errno => rfl
    | ok q =>
      simp only [h.names, h.kindAt]
      cases hname : fs.names.lookup q with
      | some ino =>
        simp only
        split_ifs
        · rfl
        · refine ⟨rfl, h, fun hS => ?_⟩
          obtain ⟨data, data', perm, hinode, -⟩ := h.files ino hS
          exact hclear _ (find_of_locate hloc hname hinode) hS
      | none =>
        simp only
        split_ifs
        · exact ⟨by rw [h.nextIno], h.addNode _ _, h.fresh⟩
        · rfl

/-! ## §4. Clear paths. -/

/-- Between calls that move no name. -/
theorem SameShape.clear (h : SameShape fs fs') {follow : Bool} {path : FsPath}
    (hclear : fs.Clear S follow path) : fs'.Clear S follow path := by
  intro found hfound
  obtain ⟨hat, hname, hinode⟩ := FileSystem.find_ok hfound
  have hkind := h.kinds found.ino
  rw [hinode] at hkind
  cases hold : fs.inodes.lookup found.ino with
  | none =>
    rw [hold] at hkind
    cases hkind
  | some inode =>
    exact hclear ⟨found.path, found.ino, inode⟩
      (find_of_locate (h.locate ▸ hat) (h.names ▸ hname) hold)

/-- Where a path led to nothing a node appears: the path itself is as clear as before. -/
theorem Twins.clear_addNode (h : Twins S fs fs') {follow : Bool} {path q : FsPath} {inode : Inode}
    (hq : fs.NewAt follow path q) (hclear : fs.Clear S false path) :
    (fs.addNode q inode).Clear S false path := by
  have hloc : (fs.addNode q inode).locate false path = fs.locate false path := locate_addNode hq
  intro found hfound hS
  obtain ⟨hat, hname, hinode⟩ := FileSystem.find_ok hfound
  have hname' : (fs.names.insert q (.created fs.nextIno)).lookup found.path = some found.ino := hname
  have hinode' : (fs.inodes.insert (.created fs.nextIno) inode).lookup found.ino
      = some found.inode := hinode
  rw [lookup_insert_ite] at hname'
  by_cases he : found.path = q
  · -- the new node has a number of its own
    rw [if_pos he] at hname'
    exact h.fresh (Option.some.inj hname' ▸ hS)
  · rw [if_neg he] at hname'
    have hne : found.ino ≠ .created fs.nextIno := fun e => h.fresh (e ▸ hS)
    rw [Finmap.lookup_insert_of_ne _ hne] at hinode'
    exact hclear _ (find_of_locate (hloc ▸ hat) hname' hinode') hS

/-! ## §5. The files below a directory. -/

/-- The regular files that have a name below `d`. -/
def FilesBelow (fs : FileSystem) (d : FsPath) (ino : Ino) : Prop :=
  ∃ path data perm, Below d path ∧ fs.names.lookup path = some ino ∧
    fs.inodes.lookup ino = some ⟨.file data, perm⟩

/-- Another content for one of them. -/
theorem twins_ofMap {nodes : FMap FsPath Inode} {d path : FsPath} {data : Bytes} {perm : Perm}
    (hpath : Below d path) (hfile : nodes.lookup path = some ⟨.file data, perm⟩) (data' : Bytes) :
    Twins ((ofMap nodes).FilesBelow d) (ofMap nodes)
      (ofMap (nodes.insert path ⟨.file data', perm⟩)) := by
  have hmem : path ∈ nodes.keys :=
    Finmap.mem_keys.mpr (Finmap.mem_of_lookup_eq_some hfile)
  have hbelow : (ofMap nodes).FilesBelow d (.initial path) := by
    refine ⟨path, data, perm, hpath, ?_, ?_⟩
    · rw [names_ofMap, if_pos hmem]
    · rw [inodes_ofMap_initial, hfile]
  refine ⟨?_, rfl, rfl, fun ino hino => ?_, fun ino hino => ?_, fun n hn => ?_⟩
  · apply Finmap.ext_lookup
    intro q
    have hkeys : q ∈ (nodes.insert path ⟨.file data', perm⟩).keys ↔ q ∈ nodes.keys := by
      rw [Finmap.mem_keys, Finmap.mem_insert, ← Finmap.mem_keys]
      exact ⟨fun h => h.elim (fun e => e ▸ hmem) id, Or.inr⟩
    simp only [names_ofMap, hkeys]
  · cases ino with
    | created n => rw [inodes_ofMap_created, inodes_ofMap_created]
    | initial q =>
      have hne : q ≠ path := fun e => hino (e ▸ hbelow)
      rw [inodes_ofMap_initial, inodes_ofMap_initial, Finmap.lookup_insert_of_ne _ hne]
  · obtain ⟨q, old, p, -, hname, hinode⟩ := hino
    rw [names_ofMap] at hname
    split at hname
    · cases hname
      rw [inodes_ofMap_initial] at hinode ⊢
      rw [inodes_ofMap_initial, lookup_insert_ite]
      by_cases he : q = path
      · subst he
        rw [hfile] at hinode
        cases hinode
        exact ⟨data, data', perm, hfile, if_pos rfl⟩
      · exact ⟨old, old, p, hinode, by rw [if_neg he, hinode]⟩
    · cases hname
  · obtain ⟨q, -, -, -, hname, -⟩ := hn
    rw [names_ofMap] at hname
    split at hname <;> cases hname

end Cas.Host.FileSystem
