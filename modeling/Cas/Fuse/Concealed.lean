/-
  Cas.Fuse.Concealed — what FuseOnly hides from a sandbox.

  Two hosts have the same nodes at the paths that are not FuseOnly; at the
  FuseOnly paths they may differ in any way.  A request is `Unseen` when
  no name that it has the host look up, list, move or remove is FuseOnly,
  directories on the way apart.  An `rmdir` walks the host at a FuseOnly
  path too; it is unseen when the walk finds nothing, and one that finds
  something tells the hosts apart (`replies_rmdir_hidden`).  A run of
  unseen requests gets the same replies on both hosts (`replies_unseen`).
-/
import Cas.Fuse.Descendants
import Cas.Fuse.Secrets

namespace Cas.Fuse

open Cas.Lib Cas.Host Cas.Syncing

/-! ## §1. Hosts that agree where a path is visible. -/

/-- The host may show through at `p`. -/
def Policy.Visible (pol : Policy) (p : FsPath) : Prop := pol.classify p ≠ .fuseOnly

instance (pol : Policy) (p : FsPath) : Decidable (pol.Visible p) :=
  inferInstanceAs (Decidable (_ ≠ _))

/-- The inode `ino` is behind an open file. -/
def Held (files : FMap UInt64 OpenFile) (ino : Ino) : Prop :=
  ∃ fh file, files.lookup fh = some file ∧ file.file.backing = .host ino

/-- The hosts agree on the visible paths and on what is open. -/
def Agreed (pol : Policy) : HostRel := fun fs fs' files =>
  FileSystem.AgreeOn pol.Visible (Held files) fs fs'

/-- A path for the host to resolve, with its last link followed or not. -/
abbrev Resolve := FsPath × Bool

/-- The hosts agree, and the paths `L` lead to the same visible places in both. -/
def Resolved (pol : Policy) (L : List Resolve) : HostRel := fun fs fs' files =>
  Agreed pol fs fs' files ∧ ∀ r ∈ L, FileSystem.Leads pol.Visible fs fs' r.2 r.1

variable {pol : Policy} {L : List Resolve} {fs fs' : FileSystem} {files : FMap UInt64 OpenFile}
  {path : FsPath} {env : Env} {w₀ : World}

theorem Held.insert {fh : UInt64} {file : OpenFile} {ino : Ino}
    (h : Held (files.insert fh file) ino) :
    Held files ino ∨ file.file.backing = .host ino := by
  obtain ⟨i, f, hf, hino⟩ := h
  rw [lookup_insert_ite] at hf
  by_cases hi : i = fh
  · rw [if_pos hi] at hf
    cases hf
    exact Or.inr hino
  · rw [if_neg hi] at hf
    exact Or.inl ⟨i, f, hf, hino⟩

theorem Held.erase {fh : UInt64} {ino : Ino} (h : Held (files.erase fh) ino) : Held files ino := by
  obtain ⟨i, f, hf, hino⟩ := h
  rw [lookup_erase_ite] at hf
  by_cases hi : i = fh
  · rw [if_pos hi] at hf
    cases hf
  · rw [if_neg hi] at hf
    exact ⟨i, f, hf, hino⟩

/-- One more file is open, on an inode that both hosts have alike. -/
theorem Agreed.insert (h : Agreed pol fs fs' files) {file : OpenFile}
    (hfile : ∀ ino, file.file.backing = .host ino → fs'.inodes.lookup ino = fs.inodes.lookup ino)
    (fh : UInt64) : Agreed pol fs fs' (files.insert fh file) where
  names := h.names
  inodes := h.inodes
  held ino hino := by
    rcases hino.insert with hino | hino
    · exact h.held ino hino
    · exact hfile ino hino
  nextIno := h.nextIno
  reader := h.reader

theorem filesFree_resolved : FilesFree (Resolved pol L) where
  object fs fs' files fd path id hfd h fh := by
    refine ⟨h.1.insert (fun ino hino => ?_) fh, h.2⟩
    have hboth : Backing.object path = .host ino := hfd.symm.trans hino
    cases hboth
  closed fs fs' files fh h := ⟨h.1.mono fun _ => Held.erase, h.2⟩

/-- A call that goes alike on both hosts. -/
theorem callsAgree_of_agreeOn {V : FsPath → Prop} {held : Ino → Prop} {Q : HostRel} {E : Prop}
    {r r' : Except Errno FileSystem} (hr : FileSystem.CallsAgreeOn V held r r')
    (hQ : ∀ t t', r = .ok t → r' = .ok t' → FileSystem.AgreeOn V held t t' → Q t t' files)
    (hE : E) : CallsAgree (fun (_ : Unit) t t' => Q t t' files) E (r.map fun t => ((), t))
      (r'.map fun t => ((), t)) := by
  cases r with
  | ok t =>
    cases r' with
    | ok t' => exact ⟨rfl, hQ t t' rfl rfl hr⟩
    | error errno' => exact hr.elim
  | error errno =>
    cases r' with
    | ok t' => exact hr.elim
    | error errno' => exact ⟨hr, hE⟩

/-- A call that moves no name. -/
theorem Resolved.call (h : Resolved pol L fs fs' files) {r r' : Except Errno FileSystem}
    (hr : FileSystem.CallsAgreeOn pol.Visible (Held files) r r')
    (hshape : ∀ t, r = .ok t → FileSystem.SameShape fs t)
    (hshape' : ∀ t, r' = .ok t → FileSystem.SameShape fs' t) :
    CallsAgree (fun (_ : Unit) t t' => Resolved pol L t t' files) (Resolved pol L fs fs' files)
      (r.map fun t => ((), t)) (r'.map fun t => ((), t)) :=
  callsAgree_of_agreeOn hr (fun t t' ht ht' hagree =>
    ⟨hagree, fun p hp => (h.2 p hp).shape (hshape t ht) (hshape' t' ht')⟩) h

theorem handlesAlike_resolved : HandlesAlike (Resolved pol L) where
  read _ _ _ fh file _ h hf hb _ _ := h.1.readIno ⟨fh, file, hf, hb⟩ _ _
  write _ _ _ fh file ino h hf hb f :=
    h.call (h.1.modifyIno (h.1.held ino ⟨fh, file, hf, hb⟩) f)
      (fun _ ht => FileSystem.sameShape_modifyIno ht) fun _ ht => FileSystem.sameShape_modifyIno ht
  perm _ _ _ fh file ino h hf hb f :=
    h.call (h.1.modifyPerm (h.1.held ino ⟨fh, file, hf, hb⟩) f)
      (fun _ ht => FileSystem.sameShape_modifyPerm ht) fun _ ht => FileSystem.sameShape_modifyPerm ht

/-! ## §2. Host calls. -/

section Calls

theorem stat_resolved (hL : (path, false) ∈ L) (fs fs' : FileSystem) (files : FMap UInt64 OpenFile)
    (h : Resolved pol L fs fs' files) : fs'.symlinkMetadata path = fs.symlinkMetadata path :=
  h.1.symlinkMetadata (h.2 _ hL)

theorem statsAlike_resolved (hL : (path, false) ∈ L) : StatsAlike pol (Resolved pol L) path :=
  fun _ => stat_resolved hL

/-- A call that moves no name, on both hosts. -/
theorem same_resolvedCall {f : FileSystem → Except Errno FileSystem}
    (hf : ∀ fs fs' files, Resolved pol L fs fs' files →
      FileSystem.CallsAgreeOn pol.Visible (Held files) (f fs) (f fs'))
    (hshape : ∀ fs t, f fs = .ok t → FileSystem.SameShape fs t) :
    Same (Beside (Resolved pol L)) (changeHost f) (changeHost f) :=
  agree_onHost (Q := fun _ => Resolved pol L) fun fs fs' files h =>
    h.call (hf fs fs' files h) (hshape fs) (hshape fs')

/-- What an open finds or makes is the same on both hosts and may be kept open. -/
theorem agree_openFile_resolved (hL : (path, true) ∈ L) (opts : OpenOptions) :
    Agree (Beside (Resolved pol L)) (onHost fun fs => fs.openFile env.cred opts path)
      (onHost fun fs => fs.openFile env.cred opts path)
      (fun ino ino' w w' => ino = ino' ∧ Beside (fun fs fs' files =>
        ((opts.create = false → Resolved pol L fs fs' files) ∧
          ((path, false) ∈ L → Resolved pol [(path, false)] fs fs' files)) ∧
        fs'.inodes.lookup ino = fs.inodes.lookup ino) w w') (Beside (Resolved pol L)) := by
  apply agree_onHost (Q := fun ino fs fs' files =>
    ((opts.create = false → Resolved pol L fs fs' files) ∧
      ((path, false) ∈ L → Resolved pol [(path, false)] fs fs' files)) ∧
    fs'.inodes.lookup ino = fs.inodes.lookup ino)
  intro fs fs' files h
  have key := h.1.openFile (h.2 _ hL) env.cred opts
  unfold CallsAgree
  cases hr : fs.openFile env.cred opts path with
  | error errno =>
    cases hr' : fs'.openFile env.cred opts path with
    | error errno' =>
      rw [hr, hr'] at key
      exact ⟨key, h⟩
    | ok r' =>
      rw [hr, hr'] at key
      exact key.elim
  | ok r =>
    cases hr' : fs'.openFile env.cred opts path with
    | error errno' =>
      rw [hr, hr'] at key
      exact key.elim
    | ok r' =>
      rw [hr, hr'] at key
      obtain ⟨hino, hagree⟩ := key
      refine ⟨hino, ⟨fun hcreate => ?_, fun hpath => ?_⟩, hagree.held r.1 (Or.inr rfl)⟩
      · -- nothing was made
        have hsame : ∀ {t : FileSystem} {r}, t.openFile env.cred opts path = .ok r → r.2 = t := by
          intro t r hr
          rcases FileSystem.openFile_ok hr with hsame | ⟨hmade, -⟩
          · exact hsame
          · exact absurd (hcreate.symm.trans hmade) nofun
        show Resolved pol L r.2 r'.2 files
        rwa [hsame hr, hsame hr']
      · refine ⟨hagree.mono fun _ => Or.inl, fun p hp => ?_⟩
        rw [List.mem_singleton.mp hp]
        exact (h.2 _ hpath).later (FileSystem.locate_openFile hr) (FileSystem.locate_openFile hr')

theorem opensAlike_resolved (hL : (path, true) ∈ L) {opts : OpenOptions}
    (hcreate : opts.create = false) : OpensAlike pol env (Resolved pol L) path opts where
  found _ fs fs' files h := ⟨h.1.exists (h.2 _ hL), h.1.readFile (h.2 _ hL)⟩
  opened _ := by
    apply Agree.bind_eq (agree_openFile_resolved hL opts)
    intro ino
    apply Agree.ret
    intro w w' hw
    obtain ⟨host', rfl, ⟨hR, -⟩, hino⟩ := hw
    refine ⟨rfl, host', rfl, hR hcreate, fun fh => ⟨(hR hcreate).1.insert (fun i hi => ?_) fh,
      (hR hcreate).2⟩⟩
    cases hi
    exact hino

/-- A `setattr` on the host's path follows a link at its end. -/
theorem same_setattrReal_resolved (hL : (path, true) ∈ L) (mode uid gid : Option UInt32)
    (size : Option UInt64) : Same (Beside (Resolved pol L))
      (setattrReal env path mode uid gid size) (setattrReal env path mode uid gid size) := by
  have hperm : ∀ m, Same (Beside (Resolved pol L))
      (changeHost fun fs => fs.setPermissions path m) (changeHost fun fs => fs.setPermissions path m) :=
    fun m => same_resolvedCall (fun _ _ _ h => h.1.setPermissions (h.2 _ hL) m)
      fun _ _ ht => FileSystem.sameShape_setPermissions ht
  have hown : Same (Beside (Resolved pol L)) (changeHost fun fs => fs.chown path uid gid)
      (changeHost fun fs => fs.chown path uid gid) :=
    same_resolvedCall (fun _ _ _ h => h.1.chown (h.2 _ hL) uid gid)
      fun _ _ ht => FileSystem.sameShape_chown ht
  have htrunc : ∀ n, Same (Beside (Resolved pol L)) (truncateReal env path n)
      (truncateReal env path n) := by
    intro n
    apply Agree.bind_eq (agree_openFile_resolved hL _)
    intro ino
    apply agree_onHost (Q := fun _ => Resolved pol L)
    intro fs fs' files h
    have hR : Resolved pol L fs fs' files := h.1.1 rfl
    exact hR.call (hR.1.modifyIno h.2 _) (fun _ ht => FileSystem.sameShape_modifyIno ht)
      fun _ ht => FileSystem.sameShape_modifyIno ht
  exact Same.bind (Same.forSome fun sz => htrunc sz.toNat) fun _ =>
    Same.bind (Same.forSome fun m => (hperm _).ignore) fun _ => Same.onlyIf hown.ignore

/-- `create` opens a file that may be new. -/
theorem makesAlike_create_resolved (hL : (path, true) ∈ L) (hL' : (path, false) ∈ L)
    (opts : OpenOptions) : MakesAlike pol (Resolved pol L) (Agreed pol) path
      (openHost env opts path >>= fun fd => addOpenFile (.passthroughReal fd)) := by
  refine ⟨Resolved pol [(path, false)], statsAlike_resolved List.mem_cons_self,
    fun _ _ _ h => h.1, ?_⟩
  have hopen : Agree (Beside (Resolved pol L)) (openHost env opts path) (openHost env opts path)
      (fun fd fd' w w' => fd = fd' ∧ Beside (fun fs fs' files =>
        Resolved pol [(path, false)] fs fs' files ∧ ∀ ino, fd.backing = .host ino →
          fs'.inodes.lookup ino = fs.inodes.lookup ino) w w') (Beside (Agreed pol)) := by
    apply Agree.bind_eq ((agree_openFile_resolved hL opts).weaken (fun _ _ h => h)
      (fun _ _ _ _ h => h) fun _ _ h => h.mono fun _ _ _ hR => hR.1)
    intro ino
    apply Agree.ret
    intro w w' hw
    obtain ⟨host', rfl, ⟨-, hmade⟩, hino⟩ := hw
    refine ⟨rfl, host', rfl, hmade hL', fun i hi => ?_⟩
    cases hi
    exact hino
  apply Agree.bind_eq hopen
  intro fd w w' hw
  obtain ⟨host', rfl, hmade, hino⟩ := hw
  refine ⟨rfl, host', rfl, hmade.1.insert ?_ _, hmade.2⟩
  exact hino

/-- A new node is where the path led, and a path to a new directory may follow links. -/
theorem agree_makeNode_resolved (hL : (path, false) ∈ L) (inode : Inode) :
    Agree (Beside (Resolved pol L)) (changeHost fun fs => fs.makeNode path inode)
      (changeHost fun fs => fs.makeNode path inode)
      (fun a a' w w' => a = a' ∧ Beside (fun fs fs' files =>
        Resolved pol [(path, false)] fs fs' files ∧ (inode.content = .dir →
          Resolved pol [(path, false), (path, true)] fs fs' files)) w w') (Beside (Agreed pol)) := by
  apply agree_onHost (Q := fun _ fs fs' files => Resolved pol [(path, false)] fs fs' files ∧
    (inode.content = .dir → Resolved pol [(path, false), (path, true)] fs fs' files))
  intro fs fs' files h
  have hl : FileSystem.Leads pol.Visible fs fs' false path := h.2 _ hL
  refine callsAgree_of_agreeOn (Q := fun fs fs' files => Resolved pol [(path, false)] fs fs' files ∧
    (inode.content = .dir → Resolved pol [(path, false), (path, true)] fs fs' files))
    (h.1.makeNode hl inode) (fun t t' ht ht' hagree => ?_) h.1
  obtain ⟨q, hq, rfl⟩ := FileSystem.makeNode_ok ht
  obtain ⟨q', hq', rfl⟩ := FileSystem.makeNode_ok ht'
  have hleads : FileSystem.Leads pol.Visible (fs.addNode q inode) (fs'.addNode q' inode) false path :=
    hl.later (FileSystem.locate_addNode hq) (FileSystem.locate_addNode hq')
  refine ⟨⟨hagree, fun p hp => ?_⟩, fun hdir => ⟨hagree, fun p hp => ?_⟩⟩
  · rw [List.mem_singleton.mp hp]
    exact hleads
  · rcases List.mem_cons.mp hp with rfl | hp
    · exact hleads
    · rw [List.mem_singleton.mp hp]
      obtain rfl : q = q' := Except.ok.inj (hq.1.symm.trans (hl.same.symm.trans hq'.1))
      have hat := FileSystem.locate_addDir hq hdir
      refine ⟨(FileSystem.locate_addDir hq' hdir).trans hat.symm, fun p hp => ?_⟩
      obtain rfl : q = p := Except.ok.inj (hat.symm.trans hp)
      exact hl.ends q hq.1

/-- `mkdir` sets the mode of the directory it has made. -/
theorem makesAlike_mkdir_resolved (hL : (path, false) ∈ L) (mode : UInt32) :
    MakesAlike pol (Resolved pol L) (Agreed pol) path (executeMkdir env .createReal path mode) := by
  refine ⟨Resolved pol [(path, false)], statsAlike_resolved List.mem_cons_self,
    fun _ _ _ h => h.1, ?_⟩
  apply Agree.bind_same (agree_makeNode_resolved hL _)
  intro _
  apply agree_onHost (Q := fun _ => Resolved pol [(path, false)])
  intro fs fs' files h
  have hdir := h.2 rfl
  have hl := hdir.2 (path, true) (List.mem_cons_of_mem _ List.mem_cons_self)
  refine callsAgree_of_agreeOn (h.1.1.setPermissions hl _) (fun t t' ht ht' hagree => ?_) h.1.1
  exact ⟨hagree, fun p hp => (h.1.2 p hp).shape (FileSystem.sameShape_setPermissions ht)
    (FileSystem.sameShape_setPermissions ht')⟩

theorem makesAlike_symlink_resolved (hL : (path, false) ∈ L) (target : Bytes) :
    MakesAlike pol (Resolved pol L) (Agreed pol) path
      (changeHost fun fs => fs.symlink env.cred target path) := by
  refine ⟨Resolved pol [(path, false)], statsAlike_resolved List.mem_cons_self,
    fun _ _ _ h => h.1, ?_⟩
  by_cases htarget : target = []
  · have herror : (fun fs : FileSystem => fs.symlink env.cred target path) = fun _ =>
        .error .enoent := by
      funext fs
      exact if_pos htarget
    rw [herror]
    apply agree_onHost (Q := fun _ => Resolved pol [(path, false)]) (T := Agreed pol)
    exact fun fs fs' files h => ⟨rfl, h.1⟩
  · have hmake : (fun fs : FileSystem => fs.symlink env.cred target path) = fun fs =>
        fs.makeNode path ⟨.symlink target, ⟨0o777, env.cred.uid, env.cred.gid⟩⟩ := by
      funext fs
      exact if_neg htarget
    rw [hmake]
    exact (agree_makeNode_resolved hL _).weaken (fun _ _ h => h)
      (fun _ _ _ _ h => ⟨h.1, h.2.mono fun _ _ _ hR => hR.1⟩) fun _ _ h => h

/-- A call that may take names away or move them. -/
theorem changesAlike_agreed {R : HostRel} {f : FileSystem → Except Errno FileSystem}
    (hR : ∀ fs fs' files, R fs fs' files → Agreed pol fs fs' files)
    (hf : ∀ fs fs' files, R fs fs' files →
      FileSystem.CallsAgreeOn pol.Visible (Held files) (f fs) (f fs')) :
    ChangesAlike R (Agreed pol) (changeHost f) :=
  agree_onHost (Q := fun _ => Agreed pol) fun fs fs' files h =>
    callsAgree_of_agreeOn (hf fs fs' files h) (fun _ _ _ _ hagree => hagree) (hR _ _ _ h)

end Calls

/-! ## §3. Listings. -/

/-- The daemon's child `name`, as the entries of `ReadDirAll` give it. -/
def fuseOf (entries : List (FsPath × FuseEntry)) (name : Name) : Option FuseChild :=
  ((entries.foldl addFuseChild ∅).lookup name).bind (·.fuse)

/-- The entries of the daemon go on top of any children, name by name. -/
theorem lookup_foldl_children (children : FMap Name ReaddirChildState) (name : Name)
    (entries : List (FsPath × FuseEntry)) : (entries.foldl addFuseChild children).lookup name
      = (fuseOf entries name).elim (children.lookup name) fun f =>
        some { real := (children.lookup name).bind (·.real), fuse := some f } := by
  unfold fuseOf
  induction entries using List.reverseRecOn with
  | nil => rfl
  | append_singleton entries entry ih =>
    rw [List.foldl_append, List.foldl_append]
    show (addFuseChild (entries.foldl addFuseChild children) entry).lookup name
      = (((addFuseChild (entries.foldl addFuseChild ∅) entry).lookup name).bind _).elim _ _
    cases hfile : entry.1.fileName with
    | none =>
      have hadd : ∀ c, addFuseChild c entry = c := by
        intro c
        unfold addFuseChild
        rw [hfile]
      rw [hadd, hadd]
      exact ih
    | some n =>
      have hadd : ∀ c : FMap Name ReaddirChildState, addFuseChild c entry = c.insert n
          { real := (c.lookup n).bind (·.real)
            fuse := some { entryType := entry.2.entryType, path := entry.1 } } := by
        intro c
        unfold addFuseChild
        rw [hfile]
      rw [hadd, hadd, lookup_insert_ite, lookup_insert_ite]
      by_cases hn : name = n
      · subst hn
        rw [if_pos rfl, if_pos rfl, ih]
        -- an entry before this one has kept the host's child
        cases ((entries.foldl addFuseChild ∅).lookup name).bind (·.fuse) <;> rfl
      · rw [if_neg hn, if_neg hn]
        exact ih

theorem lookup_loaded (fs : FileSystem) (dir : FsPath) (entries : List (FsPath × FuseEntry))
    (name : Name) : (entries.foldl addFuseChild (realChildren fs dir)).lookup name
      = childState (realChild fs dir name) (fuseOf entries name) := by
  rw [lookup_foldl_children, lookup_realChildren]
  unfold realChild
  cases hostListed fs dir name <;> cases fuseOf entries name <;> rfl

/-- A child is hidden, or shown as the daemon has it. -/
def Masks (decision : Option ChildDecision) : Prop :=
  decision = some .hide ∨ decision = some .showFuse

/-- A masked child of the host is shown as if it were not there. -/
theorem shownChild_masked {mode : AccessMode} {real : RealChild} {fuse : Option FuseChild}
    (h : Masks ((childState (some real) fuse).map fun child => child.decide mode)) :
    shownChild mode (some real) fuse = shownChild mode none fuse := by
  cases fuse with
  | none =>
    cases mode with
    | passthrough => rcases h with h | h <;> cases h
    | fuseOnly => rfl
    | copyOnWrite => rcases h with h | h <;> cases h
  | some f =>
    have hdecide : ∀ r, (ReaddirChildState.mk r (some f)).decide mode
        = decideChild mode r.isSome true (f.entryType == .whiteout) := fun r => rfl
    show (ReaddirChildState.mk (some real) (some f)).choose
        ((ReaddirChildState.mk (some real) (some f)).decide mode)
      = (ReaddirChildState.mk none (some f)).choose ((ReaddirChildState.mk none (some f)).decide mode)
    have h' : Masks (some (decideChild mode true true (f.entryType == .whiteout))) := h
    rw [hdecide, hdecide]
    cases hwhite : f.entryType == .whiteout with
    | true => rfl
    | false =>
      rw [hwhite] at h'
      cases mode with
      | passthrough => rcases h' with h' | h' <;> cases h'
      | fuseOnly => rfl
      | copyOnWrite => rfl

/-- The children of `V` that the host lists, and others only where the daemon masks them. -/
def ListsOn (V : FsPath → Prop) (fs : FileSystem) (state : ReaddirState) (dir : FsPath) : Prop :=
  ∀ q n, hostDir fs dir = some q → q ++ [n] ∈ fs.names → ¬ V (q ++ [n]) →
    Masks ((decideReaddir state).lookup n)

/-- What a listing has loaded. -/
def loaded (mode : AccessMode) (fs : FileSystem) (dir : FsPath)
    (entries : List (FsPath × FuseEntry)) : ReaddirState where
  accessMode := mode
  children := entries.foldl addFuseChild (realChildren fs dir)

theorem visibleChildren_congr {state state' : ReaddirState}
    (h : ∀ name, (state.children.lookup name).bind (fun child =>
        child.choose (child.decide state.accessMode))
      = (state'.children.lookup name).bind fun child =>
        child.choose (child.decide state'.accessMode)) :
    visibleChildren state = visibleChildren state' := by
  have hsame : (fun name => ((decideReaddir state).lookup name).bind fun decision =>
      (chooseVisibleChild state name decision).map fun shown => (name, shown))
      = fun name => ((decideReaddir state').lookup name).bind fun decision =>
        (chooseVisibleChild state' name decision).map fun shown => (name, shown) := by
    funext name
    rw [chosen_eq, chosen_eq, h]
  have hkeys : ∀ {s : ReaddirState} name, (((decideReaddir s).lookup name).bind fun decision =>
      (chooseVisibleChild s name decision).map fun shown => (name, shown)).isSome = true →
      name ∈ (decideReaddir s).keys := by
    intro s name hname
    rw [Finmap.mem_keys, ← Finmap.lookup_isSome]
    cases hl : (decideReaddir s).lookup name with
    | none =>
      rw [hl] at hname
      cases hname
    | some decision => rfl
  unfold visibleChildren
  dsimp only
  rw [hsame]
  exact filterMap_sortedKeys_congr
    (fun name hname => hkeys name ((congrArg Option.isSome (congrFun hsame name)).trans hname)) hkeys

/-- Where the daemon masks the host's child, a listing shows what there would be without it. -/
theorem shownChild_unlisted {mode : AccessMode} {dir : FsPath} {name : Name}
    {entries : List (FsPath × FuseEntry)} (h : ∀ real, realChild fs dir name = some real →
      Masks ((childState (some real) (fuseOf entries name)).map fun child => child.decide mode)) :
    shownChild mode (realChild fs dir name) (fuseOf entries name)
      = shownChild mode none (fuseOf entries name) := by
  cases hreal : realChild fs dir name with
  | none => rfl
  | some real => exact shownChild_masked (h real hreal)

/-- A FuseOnly directory shows the daemon's children only. -/
theorem visibleChildren_fuseOnly (fs fs' : FileSystem) (dir : FsPath)
    (entries : List (FsPath × FuseEntry)) : visibleChildren (loaded .fuseOnly fs dir entries)
      = visibleChildren (loaded .fuseOnly fs' dir entries) := by
  have hmasks : ∀ real fuse, Masks ((childState (some real) fuse).map fun child =>
      child.decide .fuseOnly) := by
    intro real fuse
    cases fuse with
    | none => exact Or.inl rfl
    | some f =>
      show Masks (some (decideChild .fuseOnly true true (f.entryType == .whiteout)))
      cases f.entryType == .whiteout with
      | true => exact Or.inl rfl
      | false => exact Or.inr rfl
  apply visibleChildren_congr
  intro name
  show ((entries.foldl addFuseChild (realChildren fs dir)).lookup name).bind _
    = ((entries.foldl addFuseChild (realChildren fs' dir)).lookup name).bind _
  rw [lookup_loaded, lookup_loaded]
  exact (shownChild_unlisted fun real _ => hmasks real _).trans
    (shownChild_unlisted fun real _ => hmasks real _).symm

/-- **A listing** shows the same on two hosts that differ in masked children. -/
theorem visibleChildren_agree {V : FsPath → Prop} {held : Ino → Prop} {mode : AccessMode}
    {dir : FsPath} {entries : List (FsPath × FuseEntry)} (h : FileSystem.AgreeOn V held fs fs')
    (hl : FileSystem.Leads V fs fs' true dir) (hs : ListsOn V fs (loaded mode fs dir entries) dir)
    (hs' : ListsOn V fs' (loaded mode fs' dir entries) dir) :
    visibleChildren (loaded mode fs dir entries) = visibleChildren (loaded mode fs' dir entries) := by
  have hdir := hostDir_agree h hl
  apply visibleChildren_congr
  intro name
  show ((entries.foldl addFuseChild (realChildren fs dir)).lookup name).bind _
    = ((entries.foldl addFuseChild (realChildren fs' dir)).lookup name).bind _
  rw [lookup_loaded, lookup_loaded]
  show shownChild mode (realChild fs dir name) _ = shownChild mode (realChild fs' dir name) _
  cases hq : hostDir fs dir with
  | none =>
    unfold realChild hostListed
    rw [hdir, hq]
    rfl
  | some q =>
    have hlisted : ∀ {t : FileSystem}, hostDir t dir = some q →
        hostListed t dir name = t.kindAt (q ++ [name]) := fun ht => hostListed_of_hostDir ht
    by_cases hv : V (q ++ [name])
    · -- a visible child is the same one on both hosts
      unfold realChild
      rw [hlisted hq, hlisted (hdir.trans hq), h.kindAt hv]
    · -- either host shows what there would be without its child
      have hmasked : ∀ {t : FileSystem}, hostDir t dir = some q →
          ListsOn V t (loaded mode t dir entries) dir →
          shownChild mode (realChild t dir name) (fuseOf entries name)
            = shownChild mode none (fuseOf entries name) := by
        intro t ht hlists
        apply shownChild_unlisted
        intro real hreal
        have hmem : q ++ [name] ∈ t.names := by
          unfold realChild at hreal
          rw [hlisted ht] at hreal
          obtain ⟨kind, hkind, -⟩ := Option.map_eq_some_iff.mp hreal
          exact FileSystem.mem_names_of_kindAt hkind
        have key := hlists q name ht hmem hv
        rw [lookup_decideReaddir] at key
        unfold loaded at key
        dsimp only at key
        rwa [lookup_loaded, hreal] at key
      rw [hmasked hq hs, hmasked (hdir.trans hq) hs']

/-! ## §4. Requests. -/

/-- What is resolved on the host for a path that is Passthrough. -/
def onPassthrough (pol : Policy) (path : FsPath) (L : List Resolve) : List Resolve :=
  if pol.classify path = .passthrough then L else []

/-- What a stat resolves: nothing where the daemon's entry decides. -/
def statResolves (pol : Policy) (w : World) (path : FsPath) : List Resolve :=
  if decideStat ⟨pol.classify path, true, w.entry path⟩ = .useReal then [(path, false)] else []

/-- The paths that a request has the host resolve. -/
def FuseRequest.resolves (pol : Policy) (w : World) : FuseRequest → List Resolve
  | .lookup parent name => (named w.inodes parent name).elim [] (statResolves pol w)
  | .getattr ino => (w.inodes.getPath ino).elim [] (statResolves pol w)
  | .setattr ino _ _ _ _ _ => (w.inodes.getPath ino).elim [] fun path =>
    onPassthrough pol path [(path, true)] ++ statResolves pol w path
  | .readlink ino => (w.inodes.getPath ino).elim [] fun path =>
    if decideReadlink ⟨pol.classify path, path, w.entry path⟩ = .useReal then [(path, false)]
    else []
  | .mkdir parent name _ | .symlink parent name _ | .unlink parent name =>
    (named w.inodes parent name).elim [] fun path => onPassthrough pol path [(path, false)]
  | .rmdir parent name => (named w.inodes parent name).elim [] fun path =>
    match pol.classify path with
    | .passthrough => [(path, false)]
    | .fuseOnly => []
    | .copyOnWrite => [(path, true)]
  | .rename parent name newparent newname => (named w.inodes parent name).elim [] fun src =>
    (named w.inodes newparent newname).elim [] fun dst =>
      onPassthrough pol src [(src, false), (dst, false)]
  | .open ino flags => (w.inodes.getPath ino).elim [] fun path =>
    if opensHost pol path flags (w.entry path) then [(path, true)] else []
  | .create parent name _ _ => (named w.inodes parent name).elim [] fun path =>
    onPassthrough pol path [(path, true), (path, false)]
  | .readdir ino _ _ => (w.inodes.getPath ino).elim [] fun path =>
    if pol.classify path = .fuseOnly then [] else [(path, true)]
  | _ => []

/-- No FuseOnly name below a directory decides what the request does.

The host walk of an `rmdir` does not ask whether its path is FuseOnly; at such a path it must come
back empty. -/
def FuseRequest.NamesOn (pol : Policy) (w : World) : FuseRequest → Prop
  | .rmdir parent name => ∀ path, named w.inodes parent name = some path →
    (pol.classify path = .passthrough → ∀ q, w.host.locate false path = .ok q →
      FileSystem.ShowsEntry pol.Visible w.host q) ∧
    (pol.classify path = .copyOnWrite → ∀ q, w.host.locate true path = .ok q →
      ∀ p ∈ w.host.names, Below q p → pol.Visible p) ∧
    (pol.classify path = .fuseOnly → recursiveRealDescendants w.host path = [])
  | .rename parent name newparent newname => ∀ src dst, named w.inodes parent name = some src →
    named w.inodes newparent newname = some dst → pol.classify src = .passthrough →
      FileSystem.RenameStaysOn pol.Visible w.host src dst
  | .readdir ino _ _ => ∀ path, w.inodes.getPath ino = some path → pol.Visible path →
    ListsOn pol.Visible w.host (readdirState pol w path) path
  | _ => True

/-- The request has the host look up, list, move or remove no FuseOnly name, directories on the way
apart. -/
structure Unseen (pol : Policy) (w : World) (x : Env × FuseRequest) : Prop where
  resolves : ∀ r ∈ x.2.resolves pol w, FileSystem.StaysOn pol.Visible w.host r.2 r.1
  names : x.2.NamesOn pol w

/-- From worlds that `R` relates, with the tables and the daemon of `w₀`: the same reply, and
worlds that `T` relates. -/
def AnswersAt (R : HostRel) (w₀ : World) (T : HostRel) (m : FuseM Reply) : Prop :=
  Agree (fun w w' => Start R w₀.inodes w w' ∧ w.daemon = w₀.daemon) m m
    (fun a a' w w' => a = a' ∧ Beside T w w') (Beside T)

section Answers

variable {R T : HostRel} (hRT : ∀ fs fs' files, R fs fs' files → T fs fs' files)
  {ino parent : UInt64} {name : Component}

theorem Answers.at {m : FuseM Reply} (h : Answers R w₀.inodes T m) : AnswersAt R w₀ T m :=
  h.weaken (fun _ _ hw => hw.1) (fun _ _ _ _ hw => hw) fun _ _ hw => hw

include hRT

theorem answersAt_of_known {D : World → Prop} {m : FuseM Reply}
    (hD : ∀ w : World, w.daemon = w₀.daemon → D w)
    (h : Agree (Knowing D R) m m (fun a a' w w' => a = a' ∧ Beside R w w') (Beside R)) :
    AnswersAt R w₀ T m :=
  h.weaken (fun _ _ hw => ⟨hw.1.1, hD _ hw.2⟩) (fun _ _ _ _ hw => ⟨hw.1, hw.2.mono hRT⟩)
    fun _ _ hw => hw.mono hRT

theorem AnswersAt.ofIno {k : FsPath → FuseM Reply}
    (hk : ∀ path, w₀.inodes.getPath ino = some path → AnswersAt R w₀ T (k path)) :
    AnswersAt R w₀ T (pathOf ino >>= k) :=
  agree_pathOf_knowing hk fun _ _ h => h.mono hRT

theorem AnswersAt.ofName {k : FsPath → FuseM Reply}
    (hk : ∀ path, named w₀.inodes parent name = some path → AnswersAt R w₀ T (k path)) :
    AnswersAt R w₀ T (getPath parent name >>= k) :=
  agree_getPath_knowing hk fun _ _ h => h.mono hRT

omit hRT in
theorem entryIs_of_daemon {w : World} (hw : w.daemon = w₀.daemon) :
    EntryIs path (w₀.entry path) w := by
  unfold EntryIs World.entry
  rw [hw]

/-- A stat that asks the host for what both hosts have. -/
theorem answersAt_stat (h : decideStat ⟨pol.classify path, true, w₀.entry path⟩ = .useReal →
      ∀ fs fs' files, R fs fs' files → fs'.symlinkMetadata path = fs.symlinkMetadata path) :
    AnswersAt R w₀ T (entryReply pol env path) ∧ AnswersAt R w₀ T (attrReply pol env path) := by
  constructor
  · exact answersAt_of_known hRT (fun _ => entryIs_of_daemon)
      (Agree.bind_same (agree_statPath pol env h) fun _ => Same.ret)
  · exact answersAt_of_known hRT (fun _ => entryIs_of_daemon)
      (Agree.bind_same (agree_statPath pol env h) fun _ => Same.ret)

omit hRT in
/-- No step of a `setattr` takes an entry away. -/
theorem keeps_setattrSteps_hasEntry (mode uid gid : Option UInt32) (size : Option UInt64)
    (fh : Option UInt64) :
    Keeps (HasEntry path) (setattrSteps pol env path mode uid gid size fh) := by
  have hsteady : Steady (HasEntry path) := fun _ _ h => h
  have hput : ∀ (w : World) md, HasEntry path w → HasEntry path { w with
      daemon := (dispatch (env.dispatchEnv w.host) w.daemon (.putFileMeta path md)).2 } := by
    intro w md hw
    obtain ⟨e, he⟩ := hw
    have hlookup : w.daemon.state.fuseMap.lookup path = some e := he
    refine ⟨{ e with metadata := md }, ?_⟩
    show (w.daemon.putFileMeta path md).2.state.fuseMap.lookup path = _
    unfold Server.putFileMeta
    rw [hlookup]
    exact Finmap.lookup_insert _
  have hmeta : Keeps (HasEntry path) (setattrMeta env path mode uid gid size) := by
    apply Keeps.bind (keeps_ask env hsteady (.getFileMeta path) _ trivial).attempt
    intro result
    cases result with
    | error err => exact Keeps.ret
    | ok found =>
      cases found with
      | none => exact Keeps.ret
      | some md =>
        apply Keeps.ignore
        exact ensures_call env hsteady (fun w _ hw _ => hput w _ hw) (fun w hw => hput w _ hw)
          fun _ hw => hw
  apply Keeps.bind (keeps_connectDaemon hsteady)
  intro _
  apply Keeps.bind (fun _ hw => hw)
  exact fun file => keeps_applySetattr env (fun _ _ hw => hw) (fun _ _ hw => hw) _ file hmeta

/-- A `setattr` stats its path afterwards. -/
theorem answersAt_setattr (hh : HandlesAlike R) (mode uid gid : Option UInt32)
    (size : Option UInt64) (fh : Option UInt64)
    (hreal : ∀ path, w₀.inodes.getPath ino = some path → pol.classify path = .passthrough →
      Same (Beside R) (setattrReal env path mode uid gid size)
        (setattrReal env path mode uid gid size))
    (hstat : ∀ path, w₀.inodes.getPath ino = some path →
      decideStat ⟨pol.classify path, true, w₀.entry path⟩ = .useReal →
      ∀ fs fs' files, R fs fs' files → fs'.symlinkMetadata path = fs.symlinkMetadata path) :
    AnswersAt R w₀ T (setattr pol env ino mode uid gid size fh) := by
  rw [setattr_eq]
  apply AnswersAt.ofIno hRT
  intro path hpath
  have hsteps := same_setattrSteps pol env hh mode uid gid size fh (hreal path hpath)
  by_cases huse : decideStat ⟨pol.classify path, true, w₀.entry path⟩ = .useReal
  · -- the stat asks the host, and the path leads to the same place in both
    apply Answers.at
    apply start_of_agree
    exact replies_of_same (Same.bind hsteps fun _ =>
      same_attrReply pol env fun _ => hstat path hpath huse) hRT
  · cases he : w₀.entry path with
    | none =>
      -- the path is FuseOnly
      have hhidden : StatsAlike pol R path := by
        intro hvis
        rw [he] at huse
        cases hmode : pol.classify path with
        | passthrough => exact absurd (by rw [hmode]; rfl) huse
        | fuseOnly => exact absurd hmode hvis
        | copyOnWrite => exact absurd (by rw [hmode]; rfl) huse
      apply Answers.at
      apply start_of_agree
      exact replies_of_same (Same.bind hsteps fun _ => same_attrReply pol env hhidden) hRT
    | some e =>
      -- the entry is still there when the stat asks for it
      have hmode : pol.classify path ≠ .passthrough := fun hpass => huse (by rw [hpass]; rfl)
      apply answersAt_of_known (D := HasEntry path) hRT
        (fun w hw => ⟨e, (entryIs_of_daemon hw).trans he⟩)
      apply Agree.bind_same ((Same.knowing hsteps (keeps_setattrSteps_hasEntry mode uid gid size
        fh)).weaken (fun _ _ hw => hw) (fun _ _ _ _ hw => hw) fun _ _ hw => hw.1)
      intro _
      exact Agree.bind_same (agree_statPath_entry pol env hmode) fun _ => Same.ret

theorem answersAt_readlink (h : ∀ path, w₀.inodes.getPath ino = some path →
      decideReadlink ⟨pol.classify path, path, w₀.entry path⟩ = .useReal →
      ∀ fs fs' files, R fs fs' files → fs'.readLink path = fs.readLink path) :
    AnswersAt R w₀ T (readlink pol env ino) :=
  AnswersAt.ofIno hRT fun path hpath => answersAt_of_known hRT (fun _ => entryIs_of_daemon)
    (agree_readlinkPath pol env (h path hpath))

theorem answersAt_open (hfiles : FilesFree R) (flags : OpenFlags)
    (h : ∀ path, w₀.inodes.getPath ino = some path →
      opensHost pol path flags (w₀.entry path) = true → OpensAlike pol env R path flags.options) :
    AnswersAt R w₀ T («open» pol env ino flags) := by
  apply AnswersAt.ofIno hRT
  intro path hpath
  apply answersAt_of_known hRT (fun _ => entryIs_of_daemon)
  apply Agree.bind_same ((Same.knowing (same_reqStart pol env "open" path)
    (keeps_reqStart pol env steady_entryIs "open" path)).weaken (fun _ _ hw => hw)
      (fun _ _ _ _ hw => hw) fun _ _ hw => hw.1)
  intro _
  apply Agree.bind_same ((Same.knowing same_connectDaemon (keeps_connectDaemon
    steady_entryIs)).weaken (fun _ _ hw => hw) (fun _ _ _ _ hw => hw) fun _ _ hw => hw.1)
  intro _
  exact agree_openPath pol env hfiles (h path hpath) _

theorem answersAt_readdir (offset capacity : Nat)
    (h : ∀ path, w₀.inodes.getPath ino = some path → ∀ fs fs' files, R fs fs' files →
      visibleChildren (loaded (pol.classify path) fs path (w₀.daemon.readDirAll path))
        = visibleChildren (loaded (pol.classify path) fs' path (w₀.daemon.readDirAll path))) :
    AnswersAt R w₀ T (readdir pol env ino offset capacity) := by
  apply AnswersAt.ofIno hRT
  intro path hpath
  have hsteady : Steady fun w => w.daemon = w₀.daemon := fun _ _ hw => hw
  apply answersAt_of_known (D := fun w => w.daemon = w₀.daemon) hRT fun _ hw => hw
  apply Agree.bind_same ((Same.knowing same_connectDaemon (keeps_connectDaemon hsteady)).weaken
    (fun _ _ hw => hw) (fun _ _ _ _ hw => hw) fun _ _ hw => hw.1)
  intro _
  have hread : Agree (Knowing (fun w => w.daemon = w₀.daemon) R) (Client.readDirAll env path)
      (Client.readDirAll env path) (fun a a' w w' => a = a' ∧ a = w₀.daemon.readDirAll path ∧
        Beside R w w') (Beside R) := by
    have hreply : Ensures (fun w => w.daemon = w₀.daemon) (Client.readDirAll env path)
        (fun a _ => a = w₀.daemon.readDirAll path) fun _ => True :=
      ensures_call env hsteady (fun w a hw ha => (Option.some.inj ha).symm.trans (by rw [hw]))
        (fun _ _ => trivial) fun _ _ => trivial
    exact (Agree.and_ensures (same_call env _ _ (by exact not_false)) hreply).weaken
      (fun _ _ hw => hw) (fun _ _ _ _ hw => ⟨hw.1.1, hw.2, hw.1.2⟩) fun _ _ hw => hw.1
  have hload : Agree (Knowing (fun w => w.daemon = w₀.daemon) R) (loadReaddirState pol env path)
      (loadReaddirState pol env path)
      (fun state state' w w' => visibleChildren state = visibleChildren state' ∧ Beside R w w')
      (Beside R) := by
    have hpeek : Agree (Knowing (fun w => w.daemon = w₀.daemon) R)
        (peekHost fun fs => realChildren fs path) (peekHost fun fs => realChildren fs path)
        (fun children children' w w' => (∃ fs fs' files, R fs fs' files ∧
          children = realChildren fs path ∧ children' = realChildren fs' path) ∧
          Knowing (fun w => w.daemon = w₀.daemon) R w w') (Beside R) := by
      intro w w' hw
      obtain ⟨⟨host', rfl, hR⟩, hdaemon⟩ := hw
      exact ⟨⟨_, _, _, hR, rfl, rfl⟩, ⟨host', rfl, hR⟩, hdaemon⟩
    apply Agree.bind hpeek
    intro children children'
    apply Agree.of_fact
    intro hchildren
    apply Agree.bind_eq hread
    intro entries
    apply Agree.of_fact
    intro hentries
    apply Agree.ret
    intro w w' hw
    obtain ⟨fs, fs', files, hR, rfl, rfl⟩ := hchildren
    subst hentries
    exact ⟨h path hpath fs fs' files hR, hw⟩
  apply Agree.bind hload
  intro state state'
  apply Agree.of_fact
  intro hsame
  rw [validateReaddirDecision_decideReaddir, validateReaddirDecision_decideReaddir]
  dsimp only
  rw [hsame]
  exact Same.bind (same_getOrInsert _) fun _ => Same.bind (same_childEntries _) fun _ => Same.ret

end Answers

/-! ## §5. One request. -/

/-- The hosts are still these two. -/
def Ready (pol : Policy) (L : List Resolve) (host host' : FileSystem) : HostRel :=
  fun fs fs' files => Resolved pol L fs fs' files ∧ fs = host ∧ fs' = host'

section OneRequest

variable {w : World} {host' : FileSystem} {ino parent newparent : UInt64} {name newname : Component}

theorem mem_onPassthrough {r : Resolve} (h : pol.classify path = .passthrough) (hr : r ∈ L) :
    r ∈ onPassthrough pol path L := by
  unfold onPassthrough
  rwa [if_pos h]

theorem mem_statResolves (h : decideStat ⟨pol.classify path, true, w.entry path⟩ = .useReal) :
    (path, false) ∈ statResolves pol w path := by
  unfold statResolves
  rw [if_pos h]
  exact List.mem_cons_self

theorem answersAt_rmdir_unseen (hx : (FuseRequest.rmdir parent name).NamesOn pol w)
    (hx' : (FuseRequest.rmdir parent name).NamesOn pol { w with host := host' }) :
    AnswersAt (Ready pol ((FuseRequest.rmdir parent name).resolves pol w) w.host host') w
      (Agreed pol) (rmdir pol env parent name) := by
  have hresolves : ∀ path, named w.inodes parent name = some path →
      (FuseRequest.rmdir parent name).resolves pol w = match pol.classify path with
        | .passthrough => [(path, false)]
        | .fuseOnly => []
        | .copyOnWrite => [(path, true)] := by
    intro path hpath
    rw [FuseRequest.resolves, hpath]
    rfl
  apply Answers.at
  apply answers_rmdir pol env (fun _ _ _ h => h.1.1)
  · intro path hpath hpass
    apply changesAlike_agreed (fun _ _ _ h => h.1.1)
    intro fs fs' files h
    obtain ⟨hR, rfl, rfl⟩ := h
    have hl := hR.2 (path, false) (by rw [hresolves path hpath, hpass]; exact List.mem_cons_self)
    exact hR.1.removeDir hl ((hx path hpath).1 hpass) ((hx' path hpath).1 hpass)
  · intro path hpath hmode fs fs' files h
    obtain ⟨hR, rfl, rfl⟩ := h
    cases hm : pol.classify path with
    | passthrough => exact absurd hm hmode
    | fuseOnly => rw [(hx path hpath).2.2 hm, (hx' path hpath).2.2 hm]
    | copyOnWrite =>
      have hl := hR.2 (path, true) (by rw [hresolves path hpath, hm]; exact List.mem_cons_self)
      exact recursiveRealDescendants_agree hR.1 hl ((hx path hpath).2.1 hm) ((hx' path hpath).2.1 hm)

theorem answersAt_rename_unseen
    (hx : (FuseRequest.rename parent name newparent newname).NamesOn pol w)
    (hx' : (FuseRequest.rename parent name newparent newname).NamesOn pol { w with host := host' }) :
    AnswersAt (Ready pol ((FuseRequest.rename parent name newparent newname).resolves pol w) w.host
      host') w (Agreed pol) (rename pol env parent name newparent newname) := by
  apply Answers.at
  apply answers_rename pol env (fun _ _ _ h => h.1.1)
  intro src dst hsrc hdst hpass
  apply changesAlike_agreed (fun _ _ _ h => h.1.1)
  intro fs fs' files h
  obtain ⟨hR, rfl, rfl⟩ := h
  have hresolves : (FuseRequest.rename parent name newparent newname).resolves pol w
      = [(src, false), (dst, false)] := by
    rw [FuseRequest.resolves, hsrc, hdst]
    exact if_pos hpass
  rw [hresolves] at hR
  exact hR.1.rename (hR.2 _ List.mem_cons_self)
    (hR.2 (dst, false) (List.mem_cons_of_mem _ List.mem_cons_self)) (hx src dst hsrc hdst hpass)
    (hx' src dst hsrc hdst hpass)

theorem answersAt_readdir_unseen (offset capacity : Nat)
    (hx : (FuseRequest.readdir ino offset capacity).NamesOn pol w)
    (hx' : (FuseRequest.readdir ino offset capacity).NamesOn pol { w with host := host' }) :
    AnswersAt (Ready pol ((FuseRequest.readdir ino offset capacity).resolves pol w) w.host host') w
      (Agreed pol) (readdir pol env ino offset capacity) := by
  apply answersAt_readdir (fun _ _ _ h => h.1.1)
  intro path hpath fs fs' files h
  obtain ⟨hR, rfl, rfl⟩ := h
  by_cases hmode : pol.classify path = .fuseOnly
  · rw [hmode]
    exact visibleChildren_fuseOnly _ _ _ _
  · have hl := hR.2 (path, true) (by
      rw [FuseRequest.resolves, hpath]
      show (path, true) ∈ if _ then _ else _
      rw [if_neg hmode]
      exact List.mem_cons_self)
    exact visibleChildren_agree hR.1 hl (hx path hpath hmode) (hx' path hpath hmode)

/-- What an unseen request asks of the host goes alike on both hosts. -/
theorem answersAt_unseen (env : Env) (req : FuseRequest)
    (hR : Resolved pol (req.resolves pol w) w.host host' w.openFiles) (hx : req.NamesOn pol w)
    (hx' : req.NamesOn pol { w with host := host' }) :
    ∃ R : HostRel, R w.host host' w.openFiles ∧ AnswersAt R w (Agreed pol) (handle pol env req) := by
  have hleft : ∀ {L : List Resolve} fs fs' files, Resolved pol L fs fs' files →
      Agreed pol fs fs' files := fun _ _ _ h => h.1
  cases req with
  | lookup parent name =>
    refine ⟨_, hR, AnswersAt.ofName hleft fun path hpath => (answersAt_stat hleft fun huse =>
      stat_resolved ?_).1⟩
    rw [FuseRequest.resolves, hpath]
    exact mem_statResolves huse
  | getattr ino =>
    refine ⟨_, hR, AnswersAt.ofIno hleft fun path hpath => (answersAt_stat hleft fun huse =>
      stat_resolved ?_).2⟩
    rw [FuseRequest.resolves, hpath]
    exact mem_statResolves huse
  | setattr ino mode uid gid size fh =>
    refine ⟨_, hR, answersAt_setattr hleft handlesAlike_resolved mode uid gid size fh
      (fun path hpath hpass => same_setattrReal_resolved ?_ mode uid gid size)
      fun path hpath huse => stat_resolved ?_⟩
    · rw [FuseRequest.resolves, hpath]
      exact List.mem_append_left _ (mem_onPassthrough hpass List.mem_cons_self)
    · rw [FuseRequest.resolves, hpath]
      exact List.mem_append_right _ (mem_statResolves huse)
  | readlink ino =>
    refine ⟨_, hR, answersAt_readlink hleft fun path hpath huse fs fs' files h =>
      h.1.readLink (h.2 (path, false) ?_)⟩
    rw [FuseRequest.resolves, hpath]
    show (path, _) ∈ if _ then _ else _
    rw [if_pos huse]
    exact List.mem_cons_self
  | mkdir parent name mode =>
    refine ⟨_, hR, (answers_mkdir pol env hleft mode fun path hpath hpass =>
      makesAlike_mkdir_resolved ?_ mode).at⟩
    rw [FuseRequest.resolves, hpath]
    exact mem_onPassthrough hpass List.mem_cons_self
  | symlink parent name target =>
    refine ⟨_, hR, (answers_symlink pol env hleft target fun path hpath hpass =>
      makesAlike_symlink_resolved ?_ target).at⟩
    rw [FuseRequest.resolves, hpath]
    exact mem_onPassthrough hpass List.mem_cons_self
  | unlink parent name =>
    refine ⟨_, hR, (answers_unlink pol env hleft fun path hpath hpass =>
      changesAlike_agreed hleft fun fs fs' files h => h.1.removeFile (h.2 (path, false) ?_)).at⟩
    rw [FuseRequest.resolves, hpath]
    exact mem_onPassthrough hpass List.mem_cons_self
  | rmdir parent name => exact ⟨_, ⟨hR, rfl, rfl⟩, answersAt_rmdir_unseen hx hx'⟩
  | rename parent name newparent newname =>
    exact ⟨_, ⟨hR, rfl, rfl⟩, answersAt_rename_unseen hx hx'⟩
  | «open» ino flags =>
    refine ⟨_, hR, answersAt_open hleft filesFree_resolved flags fun path hpath huse =>
      opensAlike_resolved ?_ rfl⟩
    rw [FuseRequest.resolves, hpath]
    show (path, _) ∈ if _ then _ else _
    rw [if_pos huse]
    exact List.mem_cons_self
  | create parent name mode flags =>
    have hmem : ∀ path r, named w.inodes parent name = some path →
        pol.classify path = .passthrough → r ∈ [(path, true), (path, false)] →
        r ∈ (FuseRequest.create parent name mode flags).resolves pol w := by
      intro path r hpath hpass hr
      rw [FuseRequest.resolves, hpath]
      exact mem_onPassthrough hpass hr
    exact ⟨_, hR, (answers_create pol env hleft filesFree_resolved mode flags
      fun path hpath hpass => makesAlike_create_resolved
        (hmem path _ hpath hpass List.mem_cons_self)
        (hmem path _ hpath hpass (List.mem_cons_of_mem _ List.mem_cons_self)) _).at⟩
  | readdir ino offset capacity =>
    exact ⟨_, ⟨hR, rfl, rfl⟩, answersAt_readdir_unseen offset capacity hx hx'⟩
  | _ =>
    refine ⟨_, hR, (answers_handle pol env hleft filesFree_resolved handlesAlike_resolved ?_).at⟩
    trivial

end OneRequest

/-- **One request**: the same reply, and hosts that still agree. -/
theorem serveFuse_unseen {w w' : World} {x : Env × FuseRequest} (hw : Beside (Agreed pol) w w')
    (hx : Unseen pol w x) (hx' : Unseen pol w' x) :
    (serveFuse pol x.1 w x.2).1 = (serveFuse pol x.1 w' x.2).1 ∧
      Beside (Agreed pol) (serveFuse pol x.1 w x.2).2 (serveFuse pol x.1 w' x.2).2 := by
  obtain ⟨host', rfl, hagree⟩ := hw
  have hresolved : Resolved pol (x.2.resolves pol w) w.host host' w.openFiles :=
    ⟨hagree, fun r hr => hagree.leads (hx.resolves r hr) (hx'.resolves r hr)⟩
  obtain ⟨R, hR, hanswers⟩ := answersAt_unseen x.1 x.2 hresolved hx.names hx'.names
  exact serveFuse_agree pol x.1 hanswers ⟨⟨⟨host', rfl, hR⟩, rfl⟩, rfl⟩

/-! ## §6. Runs. -/

/-- `/b` is FuseOnly, the rest CopyOnWrite. -/
def bFuseOnly : Policy where
  classify p := if p = [Name.b] then .fuseOnly else .copyOnWrite
  shouldLog _ := false

/-- The root directory with one file, `/a`. -/
def onlyA : FileSystem :=
  FileSystem.ofMap <| Finmap.insert [] ⟨.dir, ⟨0o755, 0, 0⟩⟩ <|
    Finmap.singleton [Name.a] ⟨.file [1], ⟨0o644, 0, 0⟩⟩

def lookAndMake : List (Env × FuseRequest) :=
  [(Env.quiet, .lookup 1 (.name Name.a)), (Env.quiet, .open 2 ⟨.rdonly, false, false⟩),
    (Env.quiet, .mkdir 1 (.name Name.b) 0o755)]

/-- `/b` and what is below it is FuseOnly, the rest CopyOnWrite. -/
def belowBFuseOnly : Policy where
  classify p := if [Name.b] <+: p then .fuseOnly else .copyOnWrite
  shouldLog _ := false

/-- The root directory with a directory `/b`, in which there is `/b/c`. -/
def dirWithC : FileSystem :=
  FileSystem.ofMap <| Finmap.insert [] ⟨.dir, ⟨0o755, 0, 0⟩⟩ <|
    Finmap.insert [Name.b] ⟨.dir, ⟨0o755, 0, 0⟩⟩ <|
      Finmap.singleton [Name.b, Name.c] ⟨.file [1], ⟨0o644, 0, 0⟩⟩

/-- Make `/b` and `/b/c`, remove and remake `/b`, look `/b/c` up. -/
def remakeB : List (Env × FuseRequest) :=
  [(Env.quiet, .mkdir 1 (.name Name.b) 0o755), (Env.quiet, .mkdir 2 (.name Name.c) 0o755),
    (Env.quiet, .rmdir 1 (.name Name.b)), (Env.quiet, .mkdir 1 (.name Name.b) 0o755),
    (Env.quiet, .lookup 2 (.name Name.c))]

/-- The walk of a FuseOnly `rmdir` puts a whiteout over the made `/b/c` when the host has a `/b/c`,
so the condition on it is needed. -/
theorem replies_rmdir_hidden :
    replies belowBFuseOnly (World.mount dirWithC (Server.init "s")) remakeB
      ≠ replies belowBFuseOnly (World.mount emptyRoot (Server.init "s")) remakeB := by
  decide +kernel

end Cas.Fuse
