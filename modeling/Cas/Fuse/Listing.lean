/-
  Cas.Fuse.Listing — the children that a directory listing works on.

  `load_readdir_state` starts from the host's directory entries and puts
  the entries of `ReadDirAll` on top.  `lookup_children` says what it
  holds at each name: the kind of the host's child, if the host lists
  one, and the entry of the child's path, if the daemon's table has the
  path.  `mem_visibleChildren` says which of them a listing shows.
-/
import Cas.Fuse.Reachable

namespace Cas.Fuse

open Cas.Lib Cas.Host Cas.Syncing Descriptive

/-! ## §1. The host's children. -/

/-- Where the host directory `dir` is, links followed, if it can be read. -/
def hostDir (fs : FileSystem) (dir : FsPath) : Option FsPath :=
  match fs.find true dir with
  | .error _ => none
  | .ok found =>
    if found.inode.content = .dir ∧ fs.reader.reads found.inode.perm = true then some found.path
    else none

/-- The kind of `name` in a listing of the host directory `dir`. -/
def hostListed (fs : FileSystem) (dir : FsPath) (name : Name) : Option Kind :=
  (hostDir fs dir).bind fun q => fs.kindAt (q ++ [name])

theorem readDir_eq (fs : FileSystem) (dir : FsPath) :
    (fs.readDir dir).toOption = (hostDir fs dir).map fs.entriesAt := by
  unfold FileSystem.readDir hostDir
  cases fs.find true dir with
  | error errno => rfl
  | ok found =>
    dsimp only
    cases hc : found.inode.content with
    | dir => cases hr : fs.reader.reads found.inode.perm <;> simp [Except.toOption]
    | file data => simp [Except.toOption]
    | symlink target => simp [Except.toOption]

/-- The entries of a resolved directory: its children with their kinds, each once. -/
theorem enumerates_entriesAt (fs : FileSystem) (dir : FsPath) :
    Enumerates (fs.entriesAt dir) fun e => fs.kindAt (dir ++ [e.1]) = some e.2 := by
  have hname : ∀ p (e : Name × Kind), e ∈ (if FsPath.parent p = some dir then
      p.fileName.bind fun n => (fs.kindAt p).map fun kind => (n, kind) else none)
        ↔ p = dir ++ [e.1] ∧ fs.kindAt p = some e.2 := by
    intro p e
    constructor
    · intro h
      split at h
      · next hp =>
        obtain ⟨n, rfl⟩ := FsPath.parent_eq_some_iff.mp hp
        rw [FsPath.fileName_snoc] at h
        obtain ⟨kind, hk, rfl⟩ := Option.map_eq_some_iff.mp h
        exact ⟨rfl, hk⟩
      · cases h
    · intro h
      obtain ⟨rfl, hk⟩ := h
      rw [if_pos (FsPath.parent_snoc dir e.1), FsPath.fileName_snoc, hk]
      rfl
  have hkeys := enumerates_sortedKeys fs.names.keys
  constructor
  · refine List.Nodup.filterMap ?_ hkeys.1
    intro p q e hp hq
    rw [((hname p e).mp hp).1, ((hname q e).mp hq).1]
  · intro e
    unfold FileSystem.entriesAt
    rw [List.mem_filterMap]
    constructor
    · rintro ⟨p, -, he⟩
      obtain ⟨rfl, hk⟩ := (hname p e).mp he
      exact hk
    · intro hk
      have hkind : fs.kindAt (dir ++ [e.1]) = some e.2 := hk
      refine ⟨dir ++ [e.1], ?_, (hname _ e).mpr ⟨rfl, hkind⟩⟩
      -- a path with a kind has a name
      apply (hkeys.2 _).mpr
      rw [Finmap.mem_keys, ← Finmap.lookup_isSome]
      unfold FileSystem.kindAt FileSystem.node at hkind
      cases hl : fs.names.lookup (dir ++ [e.1]) with
      | none =>
        rw [hl] at hkind
        cases hkind
      | some ino => rfl

theorem lookup_realChildren (fs : FileSystem) (dir : FsPath) (name : Name) :
    (realChildren fs dir).lookup name = (hostListed fs dir name).map fun kind =>
      { real := some { kind := .ofKind kind, path := dir ++ [name] }, fuse := none } := by
  have hread := readDir_eq fs dir
  unfold realChildren hostListed
  cases hd : hostDir fs dir with
  | none =>
    rw [hd] at hread
    cases hr : fs.readDir dir with
    | error errno => exact Finmap.lookup_empty name
    | ok entries =>
      rw [hr] at hread
      cases hread
  | some q =>
    rw [hd] at hread
    cases hr : fs.readDir dir with
    | error errno =>
      rw [hr] at hread
      cases hread
    | ok entries =>
      rw [hr] at hread
      obtain rfl : entries = fs.entriesAt q := Option.some.inj hread
      have henum := enumerates_entriesAt fs q
      have huniq : ∀ {e f : Name × Kind}, fs.kindAt (q ++ [e.1]) = some e.2 →
          fs.kindAt (q ++ [f.1]) = some f.2 → e.1 = f.1 → e = f := by
        intro e f he hf hef
        rw [hef, hf] at he
        exact Prod.ext hef (Option.some.inj he).symm
      have hnd : ((fs.entriesAt q).map Prod.fst).Nodup :=
        henum.1.map_on fun e he f hf => huniq ((henum.2 e).mp he) ((henum.2 f).mp hf)
      have hfold := lookup_foldl_insert Prod.fst (fun e : Name × Kind => ReaddirChildState.mk
        (some { kind := .ofKind e.2, path := dir ++ [e.1] }) none) _ ∅ hnd name
      refine hfold.trans ?_
      rw [Finmap.lookup_empty, Option.or_none]
      cases hk : fs.kindAt (q ++ [name]) with
      | none =>
        rw [henum.find?_eq_none]
        · simp only [Option.bind_some, hk, Option.map_none]
        · intro e he hn
          rw [of_decide_eq_true hn, hk] at he
          cases he
      | some kind =>
        rw [henum.find?_eq_some (a := (name, kind)) hk (decide_eq_true rfl)]
        · simp only [Option.bind_some, hk, Option.map_some]
        · exact fun e he hn => huniq he hk (of_decide_eq_true hn)

/-! ## §2. The daemon's children. -/

/-- The entry of `path` as `ReadDirAll` of its parent shows it: only paths of the table are
listed. -/
def daemonListed (s : Server) (path : FsPath) : Option FuseEntry :=
  if s.state.pathTree.contains path then s.state.fuseMap.lookup path else none

theorem enumerates_readDirAll {s : Server} {S : tree Name} (h : s.state.TreeRep S)
    (dir : FsPath) : Enumerates (s.readDirAll dir) fun pe =>
      FsPath.parent pe.1 = some dir ∧ daemonListed s pe.1 = some pe.2 := by
  refine ((PathTree.enumerates_childrenOf h dir).filterMap_pair _).congr fun pe => ?_
  rw [FsPath.parent_eq_some_iff, daemonListed]
  by_cases hS : pe.1 ∈ S
  · rw [if_pos ((PathTree.contains_iff h pe.1).mpr hS)]
    tauto
  · rw [if_neg (fun hc => hS ((PathTree.contains_iff h pe.1).mp hc))]
    exact iff_of_false (fun hc => hS hc.1.1) nofun

theorem lookup_foldl_addFuseChild (dir : FsPath) (entries : List (FsPath × FuseEntry)) :
    ∀ children : FMap Name ReaddirChildState, (entries.map Prod.fst).Nodup →
      (∀ pe ∈ entries, FsPath.parent pe.1 = some dir) → ∀ name,
      (entries.foldl addFuseChild children).lookup name
        = match entries.find? fun pe => pe.1 = dir ++ [name] with
          | none => children.lookup name
          | some pe => some
            { real := (children.lookup name).bind (·.real)
              fuse := some { entryType := pe.2.entryType, path := pe.1 } } := by
  induction entries with
  | nil => intro children _ _ name; rfl
  | cons pe entries ih =>
    intro children hnd hpar name
    rw [List.map_cons, List.nodup_cons] at hnd
    obtain ⟨hpe, hpar'⟩ := List.forall_mem_cons.mp hpar
    obtain ⟨n, hn⟩ := FsPath.parent_eq_some_iff.mp hpe
    have hadd : addFuseChild children pe = children.insert n
        { real := (children.lookup n).bind (·.real)
          fuse := some { entryType := pe.2.entryType, path := pe.1 } } := by
      unfold addFuseChild
      rw [hn, FsPath.fileName_snoc]
    rw [List.foldl_cons, ih _ hnd.2 hpar' name, List.find?_cons, hadd, lookup_insert_ite]
    by_cases hname : name = n
    · -- no other entry has this path
      have hnone : (entries.find? fun qe => qe.1 = dir ++ [name]) = none := by
        rw [List.find?_eq_none]
        intro qe hqe hq
        apply hnd.1
        rw [hn, ← hname, ← of_decide_eq_true hq]
        exact List.mem_map_of_mem hqe
      rw [hnone, if_pos hname, hname, hn, decide_eq_true rfl]
      simp only [hn]
    · have hne : decide (pe.1 = dir ++ [name]) = false := by
        rw [hn]
        apply decide_eq_false
        intro he
        exact hname (List.singleton_injective (List.append_cancel_left he)).symm
      rw [if_neg hname, hne]

/-! ## §3. Both together. -/

/-- The host's child `name` of `dir`. -/
def realChild (fs : FileSystem) (dir : FsPath) (name : Name) : Option RealChild :=
  (hostListed fs dir name).map fun kind => { kind := .ofKind kind, path := dir ++ [name] }

/-- The daemon's child `name` of `dir`. -/
def fuseChild (s : Server) (dir : FsPath) (name : Name) : Option FuseChild :=
  (daemonListed s (dir ++ [name])).map fun e =>
    { entryType := e.entryType, path := dir ++ [name] }

/-- A name that neither side has is not among the children. -/
def childState : Option RealChild → Option FuseChild → Option ReaddirChildState
  | none, none => none
  | real, fuse => some { real, fuse }

/-- **The children of a listing**, name by name. -/
theorem lookup_children {s : Server} {S : tree Name} (h : s.state.TreeRep S) (fs : FileSystem)
    (dir : FsPath) (name : Name) :
    ((s.readDirAll dir).foldl addFuseChild (realChildren fs dir)).lookup name
      = childState (realChild fs dir name) (fuseChild s dir name) := by
  have henum := enumerates_readDirAll h dir
  have hnd : ((s.readDirAll dir).map Prod.fst).Nodup := by
    refine henum.1.map_on fun e he f hf hef => Prod.ext hef ?_
    have h₁ := ((henum.2 e).mp he).2
    rw [hef, ((henum.2 f).mp hf).2] at h₁
    exact (Option.some.inj h₁).symm
  rw [lookup_foldl_addFuseChild dir _ _ hnd fun pe hpe => ((henum.2 pe).mp hpe).1,
    lookup_realChildren]
  unfold realChild fuseChild
  cases hd : daemonListed s (dir ++ [name]) with
  | none =>
    rw [henum.find?_eq_none]
    · cases hostListed fs dir name <;> rfl
    · intro pe hpe hp
      have hsome := hpe.2
      rw [of_decide_eq_true hp, hd] at hsome
      cases hsome
  | some e =>
    rw [henum.find?_eq_some (a := (dir ++ [name], e)) ⟨FsPath.parent_snoc dir name, hd⟩
      (decide_eq_true rfl)]
    · cases hostListed fs dir name <;> rfl
    · intro pe hpe hp
      have hpath : pe.1 = dir ++ [name] := of_decide_eq_true hp
      have hsome := hpe.2
      rw [hpath, hd] at hsome
      exact Prod.ext hpath (Option.some.inj hsome).symm

/-- What the listing shows at `name`. -/
def shownChild (mode : AccessMode) (real : Option RealChild) (fuse : Option FuseChild) :
    Option (FileType × FsPath) :=
  (childState real fuse).bind fun child => child.choose (child.decide mode)

theorem FuseChild.shown_path {f : FuseChild} {shown : FileType × FsPath}
    (h : f.shown = some shown) : shown.2 = f.path := by
  unfold FuseChild.shown at h
  split at h <;> cases h <;> rfl

theorem shownChild_path {mode : AccessMode} {fs : FileSystem} {s : Server} {dir : FsPath}
    {name : Name} {kind : FileType} {full : FsPath}
    (h : shownChild mode (realChild fs dir name) (fuseChild s dir name) = some (kind, full)) :
    full = dir ++ [name] := by
  have hreal : ∀ r ∈ (realChild fs dir name).map RealChild.shown, r.2 = dir ++ [name] := by
    intro r hr
    unfold realChild at hr
    cases hk : hostListed fs dir name <;> rw [hk] at hr <;> cases hr
    rfl
  have hfuse : ∀ f ∈ (fuseChild s dir name).bind FuseChild.shown, f.2 = dir ++ [name] := by
    intro f hf
    obtain ⟨c, hc, hcf⟩ := Option.bind_eq_some_iff.mp hf
    obtain ⟨e, -, rfl⟩ := Option.map_eq_some_iff.mp hc
    exact FuseChild.shown_path hcf
  obtain ⟨child, hchild, hshown⟩ := Option.bind_eq_some_iff.mp h
  have hparts : child = ⟨realChild fs dir name, fuseChild s dir name⟩ := by
    revert hchild
    cases realChild fs dir name <;> cases fuseChild s dir name <;> rintro ⟨⟩ <;> rfl
  rw [hparts] at hshown
  unfold ReaddirChildState.choose at hshown
  split at hshown
  · cases hshown
  · exact hreal _ hshown
  · exact hfuse _ hshown
  · split at hshown
    · next r hr =>
      refine hreal (kind, full) ?_
      rw [show realChild fs dir name = some r from hr]
      exact hshown
    · exact hfuse _ hshown

theorem lookup_decideReaddir (state : ReaddirState) (name : Name) :
    (decideReaddir state).lookup name
      = (state.children.lookup name).map fun child => child.decide state.accessMode := by
  unfold decideReaddir
  rw [lookup_collect]
  by_cases hmem : name ∈ state.children.keys
  · rw [if_pos hmem]
  · rw [if_neg hmem, Finmap.lookup_eq_none.mpr (by rwa [Finmap.mem_keys] at hmem)]
    rfl

/-- What the decision for a name shows of it. -/
theorem chosen_eq (state : ReaddirState) (name : Name) :
    ((decideReaddir state).lookup name).bind (fun decision =>
      (chooseVisibleChild state name decision).map fun shown => (name, shown))
        = ((state.children.lookup name).bind fun child =>
            child.choose (child.decide state.accessMode)).map fun shown => (name, shown) := by
  rw [lookup_decideReaddir]
  unfold chooseVisibleChild
  cases state.children.lookup name <;> rfl

/-- **What a listing shows**: exactly the chosen children. -/
theorem mem_visibleChildren {state : ReaddirState} {name : Name} {kind : FileType}
    {full : FsPath} :
    (name, kind, full) ∈ visibleChildren state ↔
      (state.children.lookup name).bind (fun child => child.choose (child.decide state.accessMode))
        = some (kind, full) := by
  unfold visibleChildren
  rw [List.mem_filterMap]
  constructor
  · rintro ⟨n, -, hn⟩
    have hname : n = name := by
      obtain ⟨d, -, hd⟩ := Option.bind_eq_some_iff.mp hn
      obtain ⟨shown, -, hs⟩ := Option.map_eq_some_iff.mp hd
      exact congrArg Prod.fst hs
    rw [hname, chosen_eq] at hn
    obtain ⟨shown, hs, he⟩ := Option.map_eq_some_iff.mp hn
    rw [hs]
    exact congrArg some (congrArg Prod.snd he)
  · intro h
    refine ⟨name, ?_, ?_⟩
    · rw [mem_sortedKeys, Finmap.mem_keys, ← Finmap.lookup_isSome, lookup_decideReaddir,
        Option.isSome_map]
      cases hc : state.children.lookup name with
      | none =>
        rw [hc] at h
        cases h
      | some child => rfl
    · rw [chosen_eq, h]
      rfl

/-- A reply holds entries of the listing only. -/
theorem mem_fillReply {room : Nat} {entry : DirEntry} (entries : List (UInt64 × FileType × Bytes)) :
    ∀ i, entry ∈ fillReply room i entries → (entry.ino, entry.kind, entry.name) ∈ entries := by
  induction entries with
  | nil => intro i h; cases h
  | cons e entries ih =>
    intro i h
    unfold fillReply at h
    split at h
    · exact List.mem_cons_of_mem _ (ih _ h)
    · rw [List.mem_singleton] at h
      subst h
      exact List.mem_cons_self

end Cas.Fuse
