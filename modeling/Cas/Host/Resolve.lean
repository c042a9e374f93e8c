/-
  Cas.Host.Resolve — the host file system and how it resolves a path.

  The host is what `std::fs` and the descriptors of the two daemons act
  on.  A directory entry maps a path to an inode, so a descriptor keeps
  its file when a name is removed or moved; `node` is the map from
  absolute paths to nodes.  Of the permissions only the one to read a
  directory is there.  Left out: the other ones, times, link and block
  counts, special files.
-/
import Cas.Lib.Bytes
import Cas.Paths

namespace Cas.Host

open Cas.Lib

/-! ## §1. Nodes. -/

/-- The error numbers that the modelled calls can report. -/
inductive Errno
  | eperm | enoent | eio | ebadf | eacces | ebusy | eexist | enotdir | eisdir | einval
  | enotempty | eloop
  deriving DecidableEq

/-- What path resolution needs to know of a node. -/
inductive Kind
  | file
  | dir
  | symlink (target : Bytes)
  deriving DecidableEq

inductive Content
  | file (data : Bytes)
  | dir
  | symlink (target : Bytes)
  deriving DecidableEq

def Content.kind : Content → Kind
  | .file _ => .file
  | .dir => .dir
  | .symlink target => .symlink target

/-- The permission bits (`mode & 0o7777`) and the owner. -/
structure Perm where
  mode : UInt32
  uid : UInt32
  gid : UInt32
  deriving DecidableEq

/-- Whose read permission counts: the ids of the FUSE daemon. -/
structure Reader where
  uid : UInt32
  gid : UInt32
  groups : List UInt32
  deriving DecidableEq

/-- May the daemon read a directory?  It has every capability in its user namespace, so it reads
what belongs to the one user and the one group that are mapped there; else one bit decides. -/
def Reader.reads (r : Reader) (perm : Perm) : Bool :=
  decide (perm.uid = r.uid ∧ perm.gid = r.gid) ||
    if perm.uid = r.uid then perm.mode &&& 0o400 != 0
    else if perm.gid = r.gid ∨ perm.gid ∈ r.groups then perm.mode &&& 0o040 != 0
    else perm.mode &&& 0o004 != 0

structure Inode where
  content : Content
  perm : Perm
  deriving DecidableEq

/-- An inode number.  The nodes of a file system given as a map are numbered by their paths. -/
inductive Ino
  | initial (path : FsPath)
  | created (n : Nat)
  deriving DecidableEq

/-! ## §2. The file system. -/

/-- Directory entries, inodes, the next unused inode number, and who reads. -/
structure FileSystem where
  names : FMap FsPath Ino
  inodes : FMap Ino Inode
  nextIno : Nat
  reader : Reader
  fresh : ∀ path n, names.lookup path = some (.created n) → n < nextIno

namespace FileSystem

/-- The file system with one inode for each node of a map, read by root. -/
def ofMap (nodes : FMap FsPath Inode) : FileSystem where
  names := collect nodes.keys fun path => some (.initial path)
  inodes := collect (nodes.keys.image Ino.initial) fun
    | .initial path => nodes.lookup path
    | .created _ => none
  nextIno := 0
  reader := ⟨0, 0, []⟩
  fresh := by
    intro path n h
    rw [lookup_collect] at h
    split at h <;> cases h

/-- The node at a path, no symlink followed. -/
def node (fs : FileSystem) (path : FsPath) : Option Inode :=
  (fs.names.lookup path).bind fun ino => fs.inodes.lookup ino

def kindAt (fs : FileSystem) (path : FsPath) : Option Kind :=
  (fs.node path).map fun inode => inode.content.kind

/-- May the directory at a path be read? -/
def readable (fs : FileSystem) (path : FsPath) : Bool :=
  (fs.node path).any fun inode => fs.reader.reads inode.perm

theorem mem_names_of_kindAt {fs : FileSystem} {path : FsPath} {kind : Kind}
    (h : fs.kindAt path = some kind) : path ∈ fs.names := by
  rw [← Finmap.lookup_isSome]
  unfold kindAt node at h
  cases hl : fs.names.lookup path with
  | none =>
    rw [hl] at h
    cases h
  | some ino => rfl

@[simp] theorem names_ofMap (nodes : FMap FsPath Inode) (path : FsPath) :
    (ofMap nodes).names.lookup path
      = if path ∈ nodes.keys then some (.initial path) else none := by
  unfold ofMap
  rw [lookup_collect]

theorem inodes_ofMap_initial (nodes : FMap FsPath Inode) (path : FsPath) :
    (ofMap nodes).inodes.lookup (.initial path) = nodes.lookup path := by
  unfold ofMap
  rw [lookup_collect]
  by_cases h : path ∈ nodes.keys
  · rw [if_pos (Finset.mem_image_of_mem _ h)]
  · rw [if_neg, (Finmap.lookup_eq_none.mpr (by rwa [Finmap.mem_keys] at h))]
    intro hmem
    obtain ⟨q, hq, e⟩ := Finset.mem_image.mp hmem
    cases e
    exact h hq

theorem inodes_ofMap_created (nodes : FMap FsPath Inode) (n : Nat) :
    (ofMap nodes).inodes.lookup (.created n) = none := by
  unfold ofMap
  rw [lookup_collect]
  split <;> rfl

@[simp] theorem node_ofMap (nodes : FMap FsPath Inode) (path : FsPath) :
    (ofMap nodes).node path = nodes.lookup path := by
  unfold node
  rw [names_ofMap]
  by_cases h : path ∈ nodes.keys
  · rw [if_pos h]
    exact inodes_ofMap_initial nodes path
  · rw [if_neg h]
    exact (Finmap.lookup_eq_none.mpr (by rwa [Finmap.mem_keys] at h)).symm

end FileSystem

/-! ## §3. Path resolution. -/

/-- A component of a path as `Path::components` yields it, the root apart. -/
inductive Comp
  | cur
  | parent
  | name (n : Name)
  deriving DecidableEq

/-- The components of a link target; an empty piece is no component. -/
def Comp.ofBytes (target : Bytes) : List Comp :=
  (target.splitOn 47).filterMap fun piece =>
    if h : ValidName piece then some (.name ⟨piece, h⟩)
    else if piece = [46] then some .cur
    else if piece = [46, 46] then some .parent
    else none

/-- Where the resolution of a link target starts: at the root if it is absolute, else in the
directory that holds the link. -/
def targetBase (target : Bytes) (dir : FsPath) : FsPath :=
  if target.head? = some 47 then [] else dir

/-- Walk down the components that are left; `jump` goes on from a symlink. -/
def walkFrom (look : FsPath → Option Kind) (follow : Bool)
    (jump : FsPath → List Comp → Except Errno FsPath) :
    FsPath → List Comp → Except Errno FsPath
  | cur, [] => .ok cur
  | cur, .cur :: rest => walkFrom look follow jump cur rest
  | cur, .parent :: rest => walkFrom look follow jump cur.pop rest
  | cur, .name n :: rest =>
    match look (cur ++ [n]) with
    | none => if rest = [] then .ok (cur ++ [n]) else .error .enoent
    | some .dir => walkFrom look follow jump (cur ++ [n]) rest
    | some .file => if rest = [] then .ok (cur ++ [n]) else .error .enotdir
    | some (.symlink target) =>
      if rest = [] ∧ follow = false then .ok (cur ++ [n])
      else jump (targetBase target cur) (Comp.ofBytes target ++ rest)

/-- Walk with at most `links` symlinks on the way. -/
def walk (look : FsPath → Option Kind) (follow : Bool) :
    Nat → FsPath → List Comp → Except Errno FsPath
  | 0 => walkFrom look follow fun _ _ => .error .eloop
  | links + 1 => walkFrom look follow (walk look follow links)

/-- The number of symlinks that one resolution may follow. -/
def MAXSYMLINKS : Nat := 40

/-- Resolve a path: all links on the way, and the last component's too when `follow`.  The last
component of the result need not exist, all others are directories. -/
def locate (look : FsPath → Option Kind) (follow : Bool) (path : FsPath) : Except Errno FsPath :=
  walk look follow MAXSYMLINKS [] (path.map Comp.name)

section Step

variable {look : FsPath → Option Kind} {follow : Bool}
  {jump : FsPath → List Comp → Except Errno FsPath} {dir : FsPath} {n : Name} {rest : List Comp}

theorem walkFrom_missing (h : look (dir ++ [n]) = none) :
    walkFrom look follow jump dir (.name n :: rest)
      = if rest = [] then .ok (dir ++ [n]) else .error .enoent := by
  rw [walkFrom, h]

theorem walkFrom_dir (h : look (dir ++ [n]) = some .dir) :
    walkFrom look follow jump dir (.name n :: rest)
      = walkFrom look follow jump (dir ++ [n]) rest := by
  rw [walkFrom, h]

theorem walkFrom_file (h : look (dir ++ [n]) = some .file) :
    walkFrom look follow jump dir (.name n :: rest)
      = if rest = [] then .ok (dir ++ [n]) else .error .enotdir := by
  rw [walkFrom, h]

theorem walkFrom_symlink {target : Bytes} (h : look (dir ++ [n]) = some (.symlink target)) :
    walkFrom look follow jump dir (.name n :: rest)
      = if rest = [] ∧ follow = false then .ok (dir ++ [n])
        else jump (targetBase target dir) (Comp.ofBytes target ++ rest) := by
  rw [walkFrom, h]

end Step

/-- Below directories only, a path that is not a link resolves to itself. -/
theorem walkFrom_direct {look : FsPath → Option Kind} {follow : Bool}
    {jump : FsPath → List Comp → Except Errno FsPath} {dir rest : FsPath}
    (hdirs : ∀ q, Below dir q → Below q (dir ++ rest) → look q = some .dir)
    (hlast : ∀ target, look (dir ++ rest) = some (.symlink target) → rest = [] ∨ follow = false) :
    walkFrom look follow jump dir (rest.map Comp.name) = .ok (dir ++ rest) := by
  induction rest generalizing dir with
  | nil =>
    rw [List.append_nil]
    rfl
  | cons n rest ih =>
    have hassoc : dir ++ n :: rest = (dir ++ [n]) ++ rest := by simp
    rw [List.map_cons]
    by_cases hrest : rest = []
    · subst hrest
      cases hk : look (dir ++ [n]) with
      | none => exact walkFrom_missing hk
      | some kind =>
        cases kind with
        | file => exact walkFrom_file hk
        | dir => exact walkFrom_dir hk
        | symlink target =>
          have hf : follow = false := (hlast target hk).resolve_left (by simp)
          rw [List.map_nil, walkFrom_symlink hk, if_pos ⟨rfl, hf⟩]
    · have hdir : look (dir ++ [n]) = some .dir := by
        apply hdirs (dir ++ [n])
        · exact ⟨List.prefix_append _ _, by simp⟩
        · refine ⟨?_, ?_⟩
          · rw [hassoc]
            exact List.prefix_append _ _
          · simpa using hrest
      rw [walkFrom_dir hdir, hassoc]
      apply ih
      · intro q hq hq'
        rw [← hassoc] at hq'
        refine hdirs q ?_ hq'
        refine below_iff_length.mpr ⟨(List.prefix_append dir [n]).trans hq.1, ?_⟩
        have hlt := (below_iff_length.mp hq).2
        rw [List.length_append, List.length_singleton] at hlt
        omega
      · intro target ht
        rw [← hassoc] at ht
        exact Or.inr ((hlast target ht).resolve_left (by simp))

/-- Without symlinks a path leads nowhere but to itself. -/
theorem walkFrom_noLinks {look : FsPath → Option Kind} {follow : Bool}
    {jump : FsPath → List Comp → Except Errno FsPath} {dir rest q : FsPath}
    (hno : ∀ p target, look p ≠ some (.symlink target))
    (h : walkFrom look follow jump dir (rest.map Comp.name) = .ok q) : q = dir ++ rest := by
  induction rest generalizing dir with
  | nil =>
    rw [List.append_nil]
    exact (Except.ok.inj h).symm
  | cons n rest ih =>
    rw [List.map_cons] at h
    have hlast : ∀ errno : Errno, (if rest.map Comp.name = [] then Except.ok (dir ++ [n])
        else .error errno) = .ok q → q = dir ++ n :: rest := by
      intro errno hq
      by_cases hrest : rest.map Comp.name = []
      · rw [if_pos hrest] at hq
        rw [List.map_eq_nil_iff.mp hrest]
        exact (Except.ok.inj hq).symm
      · rw [if_neg hrest] at hq
        cases hq
    cases hk : look (dir ++ [n]) with
    | none =>
      rw [walkFrom_missing hk] at h
      exact hlast _ h
    | some kind =>
      cases kind with
      | file =>
        rw [walkFrom_file hk] at h
        exact hlast _ h
      | dir =>
        rw [walkFrom_dir hk] at h
        rw [ih h, List.append_assoc]
        rfl
      | symlink target => exact absurd hk (hno _ _)

/-- When a file or a directory appears where a path ended before, the path leads there. -/
theorem walkFrom_created {look look' : FsPath → Option Kind} {follow : Bool}
    {jump jump' : FsPath → List Comp → Except Errno FsPath} {q : FsPath} (hq : look q = none)
    (hsame : ∀ p, p ≠ q → look' p = look p)
    (hq' : look' q = some .file ∨ look' q = some .dir)
    (hjump : ∀ dir rest, jump dir rest = .ok q → jump' dir rest = .ok q)
    {dir : FsPath} {rest : List Comp} (h : walkFrom look follow jump dir rest = .ok q) :
    walkFrom look' true jump' dir rest = .ok q := by
  induction rest generalizing dir with
  | nil => exact h
  | cons comp rest ih =>
    cases comp with
    | cur => exact ih h
    | parent => exact ih h
    | name n =>
      by_cases he : dir ++ [n] = q
      · -- the new node: nothing may follow it, or the old walk had failed
        rw [walkFrom_missing (by rw [he]; exact hq)] at h
        split_ifs at h with hrest
        rcases hq' with hk | hk
        · rw [walkFrom_file (by rw [he]; exact hk), if_pos hrest, he]
        · rw [walkFrom_dir (by rw [he]; exact hk), hrest, he]
          rfl
      · have hsame' := hsame _ he
        cases hk : look (dir ++ [n]) with
        | none =>
          rw [walkFrom_missing hk] at h
          split_ifs at h
          exact absurd (Except.ok.inj h) he
        | some kind =>
          cases kind with
          | dir =>
            rw [walkFrom_dir hk] at h
            rw [walkFrom_dir (hsame'.trans hk)]
            exact ih h
          | file =>
            rw [walkFrom_file hk] at h
            split_ifs at h
            exact absurd (Except.ok.inj h) he
          | symlink target =>
            rw [walkFrom_symlink hk] at h
            split_ifs at h
            · exact absurd (Except.ok.inj h) he
            · rw [walkFrom_symlink (hsame'.trans hk), if_neg (by simp)]
              exact hjump _ _ h

theorem locate_created {look look' : FsPath → Option Kind} {follow : Bool} {path q : FsPath}
    (hq : look q = none) (hsame : ∀ p, p ≠ q → look' p = look p)
    (hq' : look' q = some .file ∨ look' q = some .dir) (h : locate look follow path = .ok q) :
    locate look' true path = .ok q := by
  have key : ∀ links dir rest, walk look follow links dir rest = .ok q →
      walk look' true links dir rest = .ok q := by
    intro links
    induction links with
    | zero => exact fun dir rest => walkFrom_created hq hsame hq' fun _ _ hj => by cases hj
    | succ links ih => exact fun dir rest => walkFrom_created hq hsame hq' ih
  exact key MAXSYMLINKS [] _ h

/-- Whatever appears where a path ended before, the walk that does not follow the last link goes
as it went. -/
theorem walkFrom_unfollowed {look look' : FsPath → Option Kind} {follow : Bool}
    {jump jump₁ jump₂ : FsPath → List Comp → Except Errno FsPath} {q : FsPath} (hq : look q = none)
    (hsame : ∀ p, p ≠ q → look' p = look p)
    (hjump : ∀ dir rest, jump dir rest = .ok q → jump₂ dir rest = jump₁ dir rest)
    {dir : FsPath} {rest : List Comp} (h : walkFrom look follow jump dir rest = .ok q) :
    walkFrom look' false jump₂ dir rest = walkFrom look false jump₁ dir rest := by
  induction rest generalizing dir with
  | nil => rfl
  | cons comp rest ih =>
    cases comp with
    | cur => exact ih h
    | parent => exact ih h
    | name n =>
      by_cases he : dir ++ [n] = q
      · have hnone : look (dir ++ [n]) = none := by rw [he]; exact hq
        rw [walkFrom_missing hnone] at h
        split_ifs at h with hrest
        rw [walkFrom_missing hnone, if_pos hrest]
        -- the last component: whatever is there, the walk ends there
        cases hk : look' (dir ++ [n]) with
        | none => rw [walkFrom_missing hk, if_pos hrest]
        | some kind =>
          cases kind with
          | dir => rw [walkFrom_dir hk, hrest]; rfl
          | file => rw [walkFrom_file hk, if_pos hrest]
          | symlink target => rw [walkFrom_symlink hk, if_pos ⟨hrest, rfl⟩]
      · have hsame' := hsame _ he
        cases hk : look (dir ++ [n]) with
        | none => rw [walkFrom_missing hk, walkFrom_missing (hsame'.trans hk)]
        | some kind =>
          cases kind with
          | dir =>
            rw [walkFrom_dir hk] at h
            rw [walkFrom_dir hk, walkFrom_dir (hsame'.trans hk)]
            exact ih h
          | file => rw [walkFrom_file hk, walkFrom_file (hsame'.trans hk)]
          | symlink target =>
            rw [walkFrom_symlink hk] at h
            rw [walkFrom_symlink hk, walkFrom_symlink (hsame'.trans hk)]
            split_ifs at h with hlast
            · exact absurd (Except.ok.inj h) he
            · by_cases hrest : rest = [] ∧ false = false
              · rw [if_pos hrest, if_pos hrest]
              · rw [if_neg hrest, if_neg hrest]
                exact hjump _ _ h

theorem locate_unfollowed {look look' : FsPath → Option Kind} {follow : Bool} {path q : FsPath}
    (hq : look q = none) (hsame : ∀ p, p ≠ q → look' p = look p)
    (h : locate look follow path = .ok q) : locate look' false path = locate look false path := by
  have key : ∀ links dir rest, walk look follow links dir rest = .ok q →
      walk look' false links dir rest = walk look false links dir rest := by
    intro links
    induction links with
    | zero => exact fun dir rest => walkFrom_unfollowed hq hsame fun _ _ _ => rfl
    | succ links ih => exact fun dir rest => walkFrom_unfollowed hq hsame ih
  exact key MAXSYMLINKS [] _ h

/-- A walk that ends at a node that is no link ends there also when it follows links to the end. -/
theorem walkFrom_followed {look : FsPath → Option Kind}
    {jump jump' : FsPath → List Comp → Except Errno FsPath} {q : FsPath}
    (hq : ∀ target, look q ≠ some (.symlink target))
    (hjump : ∀ dir rest, jump dir rest = .ok q → jump' dir rest = .ok q)
    {dir : FsPath} {rest : List Comp} (h : walkFrom look false jump dir rest = .ok q) :
    walkFrom look true jump' dir rest = .ok q := by
  induction rest generalizing dir with
  | nil => exact h
  | cons comp rest ih =>
    cases comp with
    | cur => exact ih h
    | parent => exact ih h
    | name n =>
      cases hk : look (dir ++ [n]) with
      | none =>
        rw [walkFrom_missing hk] at h ⊢
        exact h
      | some kind =>
        cases kind with
        | dir =>
          rw [walkFrom_dir hk] at h ⊢
          exact ih h
        | file =>
          rw [walkFrom_file hk] at h ⊢
          exact h
        | symlink target =>
          rw [walkFrom_symlink hk] at h ⊢
          split_ifs at h with hlast
          · -- it ended at this link
            have hend : dir ++ [n] = q := Except.ok.inj h
            rw [hend] at hk
            exact absurd hk (hq target)
          · rw [if_neg (by simp)]
            exact hjump _ _ h

theorem locate_followed {look : FsPath → Option Kind} {path q : FsPath}
    (hq : ∀ target, look q ≠ some (.symlink target)) (h : locate look false path = .ok q) :
    locate look true path = .ok q := by
  have key : ∀ links dir rest, walk look false links dir rest = .ok q →
      walk look true links dir rest = .ok q := by
    intro links
    induction links with
    | zero => exact fun dir rest => walkFrom_followed hq fun _ _ h => h
    | succ links ih => exact fun dir rest => walkFrom_followed hq ih
  exact key MAXSYMLINKS [] _ h

theorem locate_direct {look : FsPath → Option Kind} {follow : Bool} {path : FsPath}
    (hdirs : ∀ q, q ≠ [] → Below q path → look q = some .dir)
    (hlast : ∀ target, look path = some (.symlink target) → follow = false) :
    locate look follow path = .ok path := by
  show walkFrom look follow _ [] (path.map Comp.name) = .ok ([] ++ path)
  apply walkFrom_direct
  · intro q hq hq'
    exact hdirs q hq.2 hq'
  · intro target ht
    exact Or.inr (hlast target ht)

/-! ## §4. A name in a directory. -/

/-- Every step of the way down to `path` is a directory. -/
def AllDirs (look : FsPath → Option Kind) (path : FsPath) : Prop :=
  ∀ q, q <+: path → look q = some .dir

section Child

variable {look : FsPath → Option Kind} {path : FsPath} {n : Name}

theorem AllDirs.root (h : AllDirs look path) : AllDirs look [] := by
  intro q hq
  exact h q (hq.trans List.nil_prefix)

theorem AllDirs.pop (h : AllDirs look path) : AllDirs look path.pop := by
  intro q hq
  exact h q (hq.trans (List.dropLast_prefix path))

theorem AllDirs.snoc (h : AllDirs look path) (hn : look (path ++ [n]) = some .dir) :
    AllDirs look (path ++ [n]) := by
  intro q hq
  rcases prefix_snoc_iff.mp hq with rfl | hq
  · exact hn
  · exact h q hq

/-- The directory that a resolution ends in, if it ends in one. -/
def dirOf (look : FsPath → Option Kind) (r : Except Errno FsPath) : Option FsPath :=
  r.toOption.filter fun q => decide (look q = some .dir)

/-- A name follows the walk to its directory, all links on the way there followed. -/
theorem walkFrom_child {jump jump' : FsPath → List Comp → Except Errno FsPath}
    (hjump : ∀ dir comps, AllDirs look dir → (jump' dir (comps ++ [.name n])).toOption
      = (dirOf look (jump dir comps)).map (· ++ [n]))
    (comps : List Comp) {dir : FsPath} (hdir : AllDirs look dir) :
    (walkFrom look false jump' dir (comps ++ [.name n])).toOption
      = (dirOf look (walkFrom look true jump dir comps)).map (· ++ [n]) := by
  induction comps generalizing dir with
  | nil =>
    have hself : dirOf look (.ok dir) = some dir := by
      unfold dirOf
      simp [Except.toOption, hdir dir List.prefix_rfl]
    rw [walkFrom, hself, List.nil_append]
    -- the last component: whatever is there, the walk ends there
    cases hk : look (dir ++ [n]) with
    | none => simp [walkFrom_missing hk, Except.toOption]
    | some kind =>
      cases kind with
      | dir =>
        rw [walkFrom_dir hk]
        rfl
      | file => simp [walkFrom_file hk, Except.toOption]
      | symlink target => simp [walkFrom_symlink hk, Except.toOption]
  | cons comp comps ih =>
    rw [List.cons_append]
    cases comp with
    | cur => exact ih hdir
    | parent => exact ih hdir.pop
    | name m =>
      cases hk : look (dir ++ [m]) with
      | none =>
        rw [walkFrom_missing hk, walkFrom_missing hk, if_neg (by simp)]
        by_cases hc : comps = []
        · rw [if_pos hc]
          simp [dirOf, Except.toOption, hk]
        · rw [if_neg hc]
          rfl
      | some kind =>
        cases kind with
        | dir =>
          rw [walkFrom_dir hk, walkFrom_dir hk]
          exact ih (hdir.snoc hk)
        | file =>
          rw [walkFrom_file hk, walkFrom_file hk, if_neg (by simp)]
          by_cases hc : comps = []
          · rw [if_pos hc]
            simp [dirOf, Except.toOption, hk]
          · rw [if_neg hc]
            rfl
        | symlink target =>
          rw [walkFrom_symlink hk, walkFrom_symlink hk, if_neg (by simp), if_neg (by simp),
            ← List.append_assoc]
          apply hjump
          unfold targetBase
          split
          · exact hdir.root
          · exact hdir

/-- **A name in a directory** resolves to the name below the resolved directory. -/
theorem locate_child (hroot : look [] = some .dir) (path : FsPath) (n : Name) :
    (locate look false (path ++ [n])).toOption
      = (dirOf look (locate look true path)).map (· ++ [n]) := by
  have key : ∀ links comps dir, AllDirs look dir →
      (walk look false links dir (comps ++ [.name n])).toOption
        = (dirOf look (walk look true links dir comps)).map (· ++ [n]) := by
    intro links
    induction links with
    | zero =>
      intro comps dir hdir
      exact walkFrom_child (fun _ _ _ => rfl) comps hdir
    | succ links ih =>
      intro comps dir hdir
      exact walkFrom_child (fun dir comps hd => ih comps dir hd) comps hdir
  unfold locate
  rw [List.map_append]
  apply key
  intro q hq
  rw [List.prefix_nil.mp hq]
  exact hroot

end Child

/-- A directory in a directory that a walk leads to: the walk goes on into it. -/
theorem walkFrom_below {look : FsPath → Option Kind} {q : FsPath} {n : Name}
    (hq : look q = some .dir) (hn : look (q ++ [n]) = some .dir)
    {jump jump' : FsPath → List Comp → Except Errno FsPath}
    (hjump : ∀ dir comps, jump dir comps = .ok q → jump' dir (comps ++ [.name n]) = .ok (q ++ [n]))
    {comps : List Comp} {dir : FsPath} (h : walkFrom look true jump dir comps = .ok q) :
    walkFrom look true jump' dir (comps ++ [.name n]) = .ok (q ++ [n]) := by
  induction comps generalizing dir with
  | nil =>
    obtain rfl : dir = q := Except.ok.inj h
    exact walkFrom_dir hn
  | cons comp comps ih =>
    rw [List.cons_append]
    cases comp with
    | cur => exact ih h
    | parent => exact ih h
    | name m =>
      -- a walk that ends in a directory has not ended at anything else
      have hlast : ∀ errno : Errno, (if comps = [] then Except.ok (dir ++ [m])
          else .error errno) = .ok q → look (dir ++ [m]) = some .dir := by
        intro errno hif
        split_ifs at hif
        rw [Except.ok.inj hif]
        exact hq
      cases hk : look (dir ++ [m]) with
      | none =>
        rw [walkFrom_missing hk] at h
        rw [hlast _ h] at hk
        cases hk
      | some kind =>
        cases kind with
        | dir =>
          rw [walkFrom_dir hk] at h
          rw [walkFrom_dir hk]
          exact ih h
        | file =>
          rw [walkFrom_file hk] at h
          rw [hlast _ h] at hk
          cases hk
        | symlink target =>
          rw [walkFrom_symlink hk, if_neg (by simp)] at h
          rw [walkFrom_symlink hk, if_neg (by simp), ← List.append_assoc]
          exact hjump _ _ h

theorem locate_below {look : FsPath → Option Kind} {path q : FsPath} {n : Name}
    (h : locate look true path = .ok q) (hq : look q = some .dir)
    (hn : look (q ++ [n]) = some .dir) : locate look true (path ++ [n]) = .ok (q ++ [n]) := by
  have key : ∀ links dir comps, walk look true links dir comps = .ok q →
      walk look true links dir (comps ++ [.name n]) = .ok (q ++ [n]) := by
    intro links
    induction links with
    | zero => exact fun dir comps => walkFrom_below hq hn fun _ _ hj => by cases hj
    | succ links ih => exact fun dir comps => walkFrom_below hq hn ih
  unfold locate
  rw [List.map_append]
  exact key MAXSYMLINKS [] _ h

end Cas.Host
