/-
  Cas.Fuse.Observers — what readdir, stat, open and readlink say about one
  name.

  Each of the four has a loader and a decision table of its own over the
  same entry and the same host node.  §1 reduces the host's side to the
  kind of the node; §2 to §6 say what each observer replies; §7 compares
  them, per access mode (`observersAgree_iff`).
-/
import Cas.Fuse.CopyOnWrite
import Cas.Fuse.Readdir
import Cas.Fuse.Rename
import Cas.Fuse.Stat

namespace Cas.Fuse

open Cas.Lib Cas.Host Cas.Syncing Descriptive

/-! ## §1. The host. -/

/-- The kind that the host's `lstat` reports. -/
def hostKind (fs : FileSystem) (p : FsPath) : Option Kind :=
  (fs.symlinkMetadata p).toOption.map fun inode => inode.content.kind

/-- The host's `open` for reading fails with ENOENT: a directory on the way is missing, or what the
links lead to is. -/
def HostMisses (fs : FileSystem) (p : FsPath) : Prop :=
  match fs.locate true p with
  | .error errno => errno = .enoent
  | .ok q => fs.names.lookup q = none

section Host

variable {fs : FileSystem}

theorem openFile_rdonly_iff (cred : Cred) (p : FsPath) :
    fs.openFile cred rdonly.options p = .error .enoent ↔ HostMisses fs p := by
  unfold FileSystem.openFile HostMisses
  have hopts : ¬ (rdonly.options.create ∧ rdonly.options.write = false ∧
      rdonly.options.append = false) := fun h => by cases h.1
  rw [if_neg hopts]
  cases fs.locate true p with
  | error errno => simp
  | ok q =>
    cases hname : fs.names.lookup q with
    | none => simp [hname, rdonly, OpenFlags.options]
    | some ino => simp [hname, rdonly, OpenFlags.options, OpenFlags.needWrite]

theorem hostKind_eq (p : FsPath) :
    hostKind fs p = (fs.locate false p).toOption.bind fs.kindAt := by
  unfold hostKind FileSystem.symlinkMetadata FileSystem.find
  cases fs.locate false p with
  | error errno => rfl
  | ok q =>
    show _ = fs.kindAt q
    unfold FileSystem.kindAt FileSystem.node
    cases hname : fs.names.lookup q with
    | none => simp [hname, Except.map, Except.toOption]
    | some ino =>
      cases hinode : fs.inodes.lookup ino with
      | none => simp [hname, hinode, Except.map, Except.toOption]
      | some inode => simp [hname, hinode, Except.map, Except.toOption]

/-- Where the host directory `dir` is, whether it can be read or not. -/
def dirPlace (fs : FileSystem) (dir : FsPath) : Option FsPath :=
  dirOf fs.kindAt (fs.locate true dir)

theorem hostDir_eq (dir : FsPath) :
    hostDir fs dir = (dirPlace fs dir).filter fun q => fs.readable q := by
  unfold hostDir FileSystem.find dirPlace dirOf
  cases fs.locate true dir with
  | error errno => rfl
  | ok q =>
    show _ = Option.filter _ (Option.filter _ (some q))
    unfold FileSystem.readable FileSystem.kindAt FileSystem.node
    cases hname : fs.names.lookup q with
    | none => simp [hname, Option.filter]
    | some ino =>
      cases hinode : fs.inodes.lookup ino with
      | none => simp [hname, hinode, Option.filter]
      | some inode =>
        cases hc : inode.content <;> cases hr : fs.reader.reads inode.perm <;>
          simp [hname, hinode, Option.filter, Content.kind, hc, hr]

/-- An `lstat` of a child does not ask whether the directory can be read. -/
theorem hostKind_child (hroot : fs.kindAt [] = some .dir) (dir : FsPath) (name : Name) :
    hostKind fs (dir ++ [name]) = (dirPlace fs dir).bind fun q => fs.kindAt (q ++ [name]) := by
  have hchild : (fs.locate false (dir ++ [name])).toOption = _ := locate_child hroot dir name
  rw [hostKind_eq, hchild]
  show _ = (dirOf fs.kindAt (Host.locate fs.kindAt true dir)).bind _
  cases dirOf fs.kindAt (Host.locate fs.kindAt true dir) <;> rfl

/-- **The host agrees with itself**: its listing has the names that its `lstat` finds, or none
because the directory cannot be read. -/
theorem hostListed_eq (hroot : fs.kindAt [] = some .dir) (dir : FsPath) (name : Name) :
    hostListed fs dir name = hostKind fs (dir ++ [name]) ∨ hostListed fs dir name = none := by
  rw [hostKind_child hroot]
  unfold hostListed
  rw [hostDir_eq]
  cases dirPlace fs dir with
  | none => exact Or.inl rfl
  | some q =>
    cases hr : fs.readable q with
    | true => exact Or.inl (by simp [Option.filter, hr])
    | false => exact Or.inr (by simp [Option.filter, hr])

theorem hostListed_none (hroot : fs.kindAt [] = some .dir) {dir : FsPath} {name : Name}
    (h : hostKind fs (dir ++ [name]) = none) : hostListed fs dir name = none := by
  rcases hostListed_eq hroot dir name with heq | hnone
  · exact heq.trans h
  · exact hnone

theorem readLink_isOk_iff (p : FsPath) :
    (∃ target, fs.readLink p = .ok target) ↔ ∃ target, hostKind fs p = some (.symlink target) := by
  unfold FileSystem.readLink hostKind FileSystem.symlinkMetadata
  cases fs.find false p with
  | error errno => simp [Except.toOption, Except.map]
  | ok found => cases hc : found.inode.content <;> simp [Except.toOption, Except.map, Content.kind, hc]

end Host

/-! ## §2. stat. -/

/-- The kind that stat reports. -/
def statKind (pol : Policy) (w : World) (p : FsPath) : Option FileType :=
  match pol.classify p with
  | .passthrough => (hostKind w.host p).map .ofKind
  | .fuseOnly => (w.entry p).bind kindFromEntry
  | .copyOnWrite =>
    match w.entry p with
    | none => (hostKind w.host p).map .ofKind
    | some e => kindFromEntry e

/-- What a stat returns when it reports `kind`. -/
def StatShows (kind : Option FileType) (result : Except Error (FileType × FileAttr)) : Prop :=
  match kind with
  | none => result = .error (.ofErrno .enoent)
  | some kind => ∃ attr : FileAttr, result = .ok (kind, attr) ∧ attr.kind = kind

theorem hostShown_kind {fs : FileSystem} {p : FsPath} :
    (hostShown fs p).map (·.kind) = (hostKind fs p).map .ofKind := by
  unfold hostKind hostShown
  rw [Option.map_map, Option.map_map]
  rfl

theorem entryShown_kind (e : FuseEntry) : (entryShown e).map (·.kind) = kindFromEntry e := by
  unfold entryShown
  cases kindFromEntry e <;> rfl

theorem statKind_eq (pol : Policy) (w : World) (p : FsPath) :
    statKind pol w p = (shownAt pol w p).map (·.kind) := by
  unfold statKind shownAt
  cases pol.classify p with
  | passthrough => exact hostShown_kind.symm
  | fuseOnly =>
    cases w.entry p with
    | none => rfl
    | some e => exact (entryShown_kind e).symm
  | copyOnWrite =>
    cases w.entry p with
    | none => exact hostShown_kind.symm
    | some e => exact (entryShown_kind e).symm

/-- **stat** reports `statKind`, and ENOENT where there is none. -/
theorem statPath_kind {pol : Policy} {env : Env} {w : World} {p : FsPath} (hq : w.faults = []) :
    StatShows (statKind pol w p) (outcome (statPath pol env p w)) := by
  have key : Reports (shownAt pol w p) (outcome (statPath pol env p w)) := statPath_reports hq
  rw [statKind_eq]
  cases hshown : shownAt pol w p with
  | none =>
    rw [hshown] at key
    exact key
  | some s =>
    rw [hshown] at key
    obtain ⟨attr, hres, rfl⟩ := key
    exact ⟨attr, hres, rfl⟩

/-! ## §3. readdir. -/

/-- The kind that a listing of `dir` has at `name`. -/
def listKind (pol : Policy) (w : World) (dir : FsPath) (name : Name) : Option FileType :=
  (shownChild (pol.classify dir) (realChild w.host dir name) (fuseChild w.daemon dir name)).map
    Prod.fst

/-! ## §4. Replies. -/

/-- A stat of `name` in the directory `dir` reports `kind`. -/
def StatsAs (pol : Policy) (env : Env) (w : World) (dir : UInt64) (name : Name)
    (kind : FileType) : Prop :=
  ∃ attr : FileAttr, (serveFuse pol env w (.lookup dir (.name name))).1 = .entry attr ∧
    attr.kind = kind

/-- Some listing of `dir` has `name`, as a `kind`. -/
def ListsAs (pol : Policy) (env : Env) (w : World) (dir : UInt64) (name : Name)
    (kind : FileType) : Prop :=
  ∃ offset capacity entries, (serveFuse pol env w (.readdir dir offset capacity)).1
      = .directory entries ∧
    ∃ entry ∈ entries, entry.name = name.bytes ∧ entry.kind = kind

section Replies

variable (pol : Policy) {env : Env} {w : World} {d : FsPath} {dir : UInt64}
  (hq : env.faults = []) (hdir : w.inodes.getPath dir = some d) (name : Name)

include hq hdir

theorem lookup_reply : match statKind pol w (d ++ [name]) with
    | none => (serveFuse pol env w (.lookup dir (.name name))).1 = .error .enoent
    | some kind => ∃ attr : FileAttr, (serveFuse pol env w (.lookup dir (.name name))).1
        = .entry attr ∧ attr.kind = kind := by
  have hpath : getPath dir (.name name) { w with faults := env.faults }
      = .ok (d ++ [name]) { w with faults := env.faults } := by
    apply getPath_ok
    show (w.inodes.getPath dir).map (Component.name name).under = _
    rw [hdir]
    rfl
  have hstat : StatShows (statKind pol w (d ++ [name]))
      (outcome (statPath pol env (d ++ [name]) { w with faults := env.faults })) :=
    statPath_kind (w := { w with faults := env.faults }) hq
  have hreply : (serveFuse pol env w (.lookup dir (.name name))).1
      = replyOf ((outcome (statPath pol env (d ++ [name]) { w with faults := env.faults })).map
          fun r => .entry r.2) := by
    rw [serveFuse_reply]
    show replyOf (outcome ((getPath dir (.name name) >>= entryReply pol env : FuseM Reply) _)) = _
    rw [run_bind_ok hpath]
    unfold entryReply
    rw [run_bind]
    cases statPath pol env (d ++ [name]) { w with faults := env.faults } <;> rfl
  rw [hreply]
  unfold StatShows at hstat
  cases hkind : statKind pol w (d ++ [name]) with
  | none =>
    rw [hkind] at hstat
    rw [show outcome _ = _ from hstat]
    rfl
  | some kind =>
    rw [hkind] at hstat
    obtain ⟨attr, hok, hattr⟩ := hstat
    rw [hok]
    exact ⟨attr, rfl, hattr⟩

theorem statsAs_iff (kind : FileType) :
    StatsAs pol env w dir name kind ↔ statKind pol w (d ++ [name]) = some kind := by
  have key := lookup_reply pol hq hdir name
  unfold StatsAs
  cases hkind : statKind pol w (d ++ [name]) with
  | none =>
    rw [hkind] at key
    rw [show (serveFuse _ _ _ _).1 = _ from key]
    simp
  | some shown =>
    rw [hkind] at key
    obtain ⟨attr, hreply, rfl⟩ := key
    rw [hreply]
    simp

theorem lookup_enoent_iff : (serveFuse pol env w (.lookup dir (.name name))).1 = .error .enoent
    ↔ statKind pol w (d ++ [name]) = none := by
  have key := lookup_reply pol hq hdir name
  cases hkind : statKind pol w (d ++ [name]) with
  | none =>
    rw [hkind] at key
    exact iff_of_true key rfl
  | some shown =>
    rw [hkind] at key
    obtain ⟨attr, hreply, -⟩ := key
    rw [hreply]
    simp

omit hq hdir in
/-- The visible children of a directory are those that `listKind` shows. -/
theorem exists_visible_iff (hgood : GoodStore w.daemon) (kind : FileType) :
    (∃ full, (name, kind, full) ∈ visibleChildren (readdirState pol w d)) ↔
      listKind pol w d name = some kind := by
  obtain ⟨S, hS⟩ := hgood.table
  have hchildren : (readdirState pol w d).children.lookup name
      = childState (realChild w.host d name) (fuseChild w.daemon d name) :=
    lookup_children hS w.host d name
  have hshown : ((readdirState pol w d).children.lookup name).bind
      (fun child => child.choose (child.decide (readdirState pol w d).accessMode))
        = shownChild (pol.classify d) (realChild w.host d name) (fuseChild w.daemon d name) := by
    rw [hchildren]
    rfl
  unfold listKind
  simp only [mem_visibleChildren, hshown, Option.map_eq_some_iff, Prod.exists, exists_and_right]
  simp

theorem listsAs_iff (hgood : GoodStore w.daemon) (kind : FileType) :
    ListsAs pol env w dir name kind ↔ listKind pol w d name = some kind := by
  obtain ⟨parentIno, entries, hmap, hlisting⟩ : ∃ parentIno entries,
      entries.map Prod.snd = (visibleChildren (readdirState pol w d)).map
        (fun child => (child.2.1, child.1.bytes)) ∧
      listing pol w dir
        = some ((dir, .directory, [46]) :: (parentIno, .directory, [46, 46]) :: entries) := by
    unfold listing
    rw [hdir]
    exact ⟨_, _, snd_numberChildren _ _, rfl⟩
  have hreply : ∀ offset capacity, (serveFuse pol env w (.readdir dir offset capacity)).1
      = .directory (fillReply capacity offset
        (((dir, .directory, [46]) :: (parentIno, .directory, [46, 46]) :: entries).drop offset)) :=
    serveFuse_readdir hq hlisting
  rw [← exists_visible_iff pol name hgood kind]
  unfold ListsAs
  simp only [hreply]
  constructor
  · intro h
    obtain ⟨offset, capacity, replied, hreplied, entry, hentry, hname, rfl⟩ := h
    rw [← Reply.directory.inj hreplied] at hentry
    have hmem := List.mem_map_of_mem (f := Prod.snd) (mem_fillReply _ _ hentry)
    rw [List.map_drop] at hmem
    have hall := List.mem_of_mem_drop hmem
    rw [List.map_cons, List.map_cons, hmap, hname, List.mem_cons, List.mem_cons,
      List.mem_map] at hall
    -- `.` and `..` are no names
    obtain hdot | hdots | ⟨child, hchild, hpair⟩ := hall
    · exact absurd (Prod.ext_iff.mp hdot).2 name.valid.2.2.1
    · exact absurd (Prod.ext_iff.mp hdots).2 name.valid.2.2.2
    · obtain ⟨n, kind, full⟩ := child
      obtain ⟨hkind, hbytes⟩ := Prod.ext_iff.mp hpair
      have hn : n = name := Name.key_injective (congrArg (List.map UInt8.toFin) hbytes)
      have hkind' : kind = entry.kind := hkind
      rw [hn, hkind'] at hchild
      exact ⟨full, hchild⟩
  · intro h
    obtain ⟨full, hfull⟩ := h
    have hpair : (kind, name.bytes) ∈ entries.map Prod.snd := by
      rw [hmap]
      exact List.mem_map.mpr ⟨(name, kind, full), hfull, rfl⟩
    obtain ⟨⟨ino, shown⟩, hmem, rfl⟩ := List.mem_map.mp hpair
    obtain ⟨i, hi⟩ := List.getElem?_of_mem
      (List.mem_cons_of_mem (dir, .directory, [46])
        (List.mem_cons_of_mem (parentIno, .directory, [46, 46]) hmem))
    refine ⟨i, direntSize name.bytes, _, congrArg Reply.directory (fillReply_at hi), ?_⟩
    exact ⟨_, List.mem_singleton_self _, rfl, rfl⟩

end Replies

/-! ## §5. open. -/

/-- A result that the client sees as ENOENT. -/
def IsEnoent {α : Type} (result : Except Error α) : Prop :=
  ∃ err, result = .error err ∧ errToErrno err = .enoent

@[simp] theorem isEnoent_ok {α : Type} (a : α) : ¬ IsEnoent (.ok a : Except Error α) := by
  simp [IsEnoent]

@[simp] theorem isEnoent_error {α : Type} (err : Error) :
    IsEnoent (.error err : Except Error α) ↔ errToErrno err = .enoent := by
  simp [IsEnoent]

/-- An open for reading finds nothing: a whiteout, a name the host does not have, or the id of an
object that is gone. -/
def OpenMisses (pol : Policy) (w : World) (p : FsPath) : Prop :=
  isWhiteoutEntry (w.entry p) = true ∨
    match pol.classify p with
    | .passthrough => HostMisses w.host p
    | .fuseOnly => ∃ id, (w.entry p).bind (·.objectId) = some id ∧ w.stored id = none
    | .copyOnWrite => (w.entry p).bind (·.objectId) = none ∧ HostMisses w.host p

theorem stored_none_iff {w : World} {id : UInt64} :
    w.stored id = none ↔ objectPath id ∉ w.daemon.storage.objects := by
  rw [← Finmap.lookup_isSome]
  unfold World.stored World.objects
  split <;> simp_all

section Quiet

variable {env : Env} {w : World} {p : FsPath} {md : FileMetadata}

theorem executeOpen_real_isEnoent :
    IsEnoent (outcome (executeOpen env .openReal p rdonly md w)) ↔ HostMisses w.host p := by
  rw [← openFile_rdonly_iff env.cred]
  show IsEnoent (outcome ((openHost env rdonly.options p >>= fun file =>
    pure (.passthroughReal file) : FuseM OpenFile) w)) ↔ _
  cases hopen : w.host.openFile env.cred rdonly.options p with
  | ok r =>
    have hfile : openHost env rdonly.options p w
        = .ok (fdOf rdonly.options (.host r.1)) { w with host := r.2 } := by
      unfold openHost
      rw [run_bind_ok (onHost_ok (show _ = Except.ok (r.1, r.2) from hopen))]
      rfl
    rw [run_bind_ok hfile]
    exact iff_of_false (isEnoent_ok _) (by simp)
  | error errno =>
    have hfile : openHost env rdonly.options p w = .error (.ofErrno errno) w := by
      unfold openHost
      exact run_bind_error (onHost_error hopen)
    rw [run_bind_error hfile]
    show IsEnoent (.error (.ofErrno errno)) ↔ _
    rw [isEnoent_error, Except.error.injEq]
    exact Iff.rfl

theorem openObject_missing {path : ObjectPath} (h : path ∉ w.daemon.storage.objects) :
    openObject rdonly.options path w = .error (.ofErrno .enoent) w := by
  have hcreate : ¬ (rdonly.options.create = true ∧ rdonly.options.write = false ∧
      rdonly.options.append = false) := fun hc => by cases hc.1
  unfold openObject
  apply run_bind_error
  apply onObjects_error
  rw [if_neg hcreate, if_neg h]
  rfl

theorem openObject_isEnoent (path : ObjectPath) :
    IsEnoent (outcome (openObject rdonly.options path w)) ↔
      path ∉ w.daemon.storage.objects := by
  by_cases hmem : path ∈ w.daemon.storage.objects
  · obtain ⟨data, hdata⟩ := Finmap.mem_iff.mp hmem
    rw [openObject_existing (fun hc => by cases hc.1) hdata]
    exact iff_of_false (isEnoent_ok _) (fun h => h hmem)
  · rw [openObject_missing hmem]
    exact iff_of_true ⟨_, rfl, rfl⟩ hmem

/-- Once the object is known, an open misses when its file is gone. -/
theorem executeOpen_object_isEnoent {known : Option UInt64} {ensure : Bool} {id : UInt64}
    {path : ObjectPath} {w' : World}
    (h : objectForOpen env p md known ensure false w = .ok (id, path) w') :
    IsEnoent (outcome (executeOpen env (.openObject known ensure false false) p rdonly md w)) ↔
      path ∉ w'.daemon.storage.objects := by
  rw [executeOpen_openObject, run_bind_ok h,
    run_bind_ok (show onlyIf false (ignore (copyToObject p path)) w' = .ok () w' from rfl),
    run_bind_ok (show onlyIf false (ignore (Client.deleteWhiteout env p)) w' = .ok () w' from rfl),
    ← openObject_isEnoent, run_bind]
  have hoptions : rdonly.options = OpenFlags.options rdonly := rfl
  cases openObject rdonly.options path w' with
  | ok file w'' => exact iff_of_false (isEnoent_ok _) (isEnoent_ok _)
  | error err w'' => exact (isEnoent_error err).trans (isEnoent_error err).symm

variable (hq : w.faults = [])

include hq

/-- An allocation that fails is an I/O error. -/
theorem ensureFileObject_fails (hfree : (w.entry p).bind (·.objectId) = none) {msg : String}
    {store : ObjectStore} (halloc : w.daemon.objects.allocEmpty env.storeIo = (.error msg, store)) :
    ∃ w', Client.ensureFileObject env p md w = .error (.syncingClient (.server msg)) w' := by
  have hrun : Client.ensureFileObject env p md w = _ :=
    ensure_made hq (noReuse_of_noObject hfree) (fun store => store.allocEmpty env.storeIo) rfl
  rw [hrun, halloc]
  exact ⟨_, rfl⟩

theorem ensureFileObject_reuses {e : FuseEntry} (he : w.entry p = some e) {id : UInt64}
    (hid : e.reusableObject = some id) :
    ∃ w', Client.ensureFileObject env p md w = .ok (id, objectPath id) w' ∧
      w'.daemon.storage.objects = w.daemon.storage.objects := by
  have hreuse : (w.entry p).bind FuseEntry.reusableObject = some id := by
    rw [he]
    exact hid
  exact ⟨w.published p md id, ensure_reused hq hreuse
    (fun store => store.allocEmpty env.storeIo) rfl, rfl⟩

/-- An open that asks for an object misses when the entry has one whose file is gone. -/
theorem executeOpen_ensure_isEnoent (hgood : ∀ e, w.entry p = some e → GoodEntry e)
    (known : Option UInt64) :
    IsEnoent (outcome (executeOpen env (.openObject known true false false) p rdonly md w)) ↔
      ∃ id, (w.entry p).bind (·.objectId) = some id ∧ w.stored id = none := by
  cases hobj : (w.entry p).bind (·.objectId) with
  | some id =>
    obtain ⟨e, he, hid⟩ := Option.bind_eq_some_iff.mp hobj
    have hreuse : e.reusableObject = some id := by
      have hshape := (hgood e he).shape
      have htype : e.entryType = .file := hshape.1.mp (by rw [hid]; rfl)
      have htarget : e.symlinkTarget = none := by
        by_contra hne
        have hlink := hshape.2.mp (Option.isSome_iff_ne_none.mpr hne)
        rw [htype] at hlink
        cases hlink
      unfold FuseEntry.reusableObject
      rw [if_pos ⟨htype, htarget⟩, hid]
    obtain ⟨w', hens, hobjects⟩ : ∃ w', Client.ensureFileObject env p md w
        = .ok (id, objectPath id) w' ∧ w'.daemon.storage.objects = w.daemon.storage.objects :=
      ensureFileObject_reuses hq he hreuse
    rw [executeOpen_object_isEnoent (show objectForOpen env p md known true false w = _ from hens),
      hobjects, ← stored_none_iff]
    simp
  | none =>
    apply iff_of_false
    · have hfails : ∀ msg store, w.daemon.objects.allocEmpty env.storeIo = (.error msg, store) →
          ¬ IsEnoent (outcome (executeOpen env (.openObject known true false false) p rdonly md w)) := by
        intro msg store halloc
        obtain ⟨w', herror⟩ : ∃ w', Client.ensureFileObject env p md w
            = .error (.syncingClient (.server msg)) w' := ensureFileObject_fails hq hobj halloc
        rw [executeOpen_openObject,
          run_bind_error (show objectForOpen env p md known true false w = _ from herror)]
        show ¬ IsEnoent (.error _)
        rw [isEnoent_error]
        simp [errToErrno]
      cases hio : env.storeIo with
      | ok =>
        rw [executeOpen_object_isEnoent (show objectForOpen env p md known true false w = _ from
          ensureFileObject_quiet hq hio hobj md)]
        -- the new object is there
        rw [not_not, ← Finmap.lookup_isSome]
        exact Option.isSome_of_eq_some (Finmap.lookup_insert _)
      | createFails err =>
        apply hfails
        rw [hio]
        rfl
      | writeFails n err =>
        apply hfails
        rw [hio]
        rfl
    · rintro ⟨id, hid, -⟩
      cases hid

/-- An open of an object that is there does not miss. -/
theorem executeOpen_stored {id : UInt64} {path : ObjectPath} (hstored : w.stored id = some path) :
    ¬ IsEnoent (outcome
      (executeOpen env (.openObject (some id) false false false) p rdonly md w)) := by
  have hfor : objectForOpen env p md (some id) false false w = .ok (id, path) w := by
    show (Client.getObjectPath env id >>= fun path => pure (id, path)
      : FuseM (UInt64 × ObjectPath)) w = _
    have hget : Client.getObjectPath env id w = .ok path w := by
      rw [getObjectPath_quiet hq, hstored]
    rw [run_bind_ok hget]
    rfl
  rw [executeOpen_object_isEnoent hfor, not_not]
  unfold World.stored at hstored
  split at hstored
  · next hsome =>
    cases hstored
    exact Finmap.lookup_isSome.mp hsome
  · cases hstored

omit hq in
/-- What an open for reading decides. -/
theorem decideOpen_rdonly (state : OpenState) (hread : state.needWrite = false) :
    decideOpen state = if isWhiteoutEntry state.fuseEntry then .notFound
      else match state.accessMode with
        | .passthrough => .openReal
        | .fuseOnly => .openObject (state.fuseEntry.bind (·.objectId))
          ((state.fuseEntry.bind (·.objectId)).isNone || !state.objectPath.isSome) false false
        | .copyOnWrite =>
          match state.fuseEntry.bind (·.objectId), state.objectPath.isSome with
          | some id, true => .openObject (some id) false false false
          | some _, false => .error
          | none, _ => .openReal := by
  unfold decideOpen computeOpenBehavior
  split
  · rfl
  · cases state.accessMode with
    | passthrough => rfl
    | fuseOnly => rfl
    | copyOnWrite =>
      cases state.fuseEntry.bind (·.objectId) <;> cases state.objectPath.isSome <;> rfl

/-- **An open for reading** replies ENOENT exactly when it misses. -/
theorem executeOpen_isEnoent {pol : Policy} (hgood : ∀ e, w.entry p = some e → GoodEntry e)
    {state : OpenState} (hload : loadOpenState pol env p false false w = .ok state w) :
    IsEnoent (outcome (executeOpen env (decideOpen state) p rdonly md w)) ↔ OpenMisses pol w p := by
  obtain rfl := (EStateM.Result.ok.inj ((loadOpenState_quiet hq _ _).symm.trans hload)).1
  rw [decideOpen_rdonly]
  swap
  · rfl
  unfold OpenMisses
  by_cases hwhite : isWhiteoutEntry (w.entry p) = true
  · rw [if_pos hwhite]
    exact iff_of_true ⟨_, rfl, rfl⟩ (Or.inl hwhite)
  · rw [if_neg hwhite, or_iff_right hwhite]
    cases pol.classify p with
    | passthrough => exact executeOpen_real_isEnoent
    | fuseOnly =>
      have hensure : ∀ known, IsEnoent (outcome
          (executeOpen env (.openObject known true false false) p rdonly md w)) ↔ _ :=
        executeOpen_ensure_isEnoent hq hgood
      cases hobj : (w.entry p).bind (·.objectId) with
      | none =>
        rw [hobj] at hensure
        exact hensure none
      | some id =>
        rw [hobj] at hensure
        cases hstored : w.stored id with
        | none =>
          show IsEnoent (outcome (executeOpen env (.openObject (some id)
            (false || !(w.stored id).isSome) false false) p rdonly md w)) ↔ _
          rw [hstored]
          exact hensure (some id)
        | some path =>
          show IsEnoent (outcome (executeOpen env (.openObject (some id)
            (false || !(w.stored id).isSome) false false) p rdonly md w)) ↔ _
          rw [hstored]
          apply iff_of_false (executeOpen_stored hq hstored)
          rintro ⟨id', hid, hnone⟩
          rw [← Option.some.inj hid, hstored] at hnone
          cases hnone
    | copyOnWrite =>
      cases hobj : (w.entry p).bind (·.objectId) with
      | none => exact executeOpen_real_isEnoent.trans (and_iff_right rfl).symm
      | some id =>
        refine iff_of_false ?_ fun h => by cases h.1
        cases hstored : w.stored id with
        | none =>
          show ¬ IsEnoent (outcome (executeOpen env (match some id, (w.stored id).isSome with
            | some id, true => .openObject (some id) false false false
            | some _, false => .error
            | none, _ => .openReal) p rdonly md w))
          rw [hstored]
          show ¬ IsEnoent (.error (.ofErrno .eio))
          rw [isEnoent_error]
          decide
        | some path =>
          show ¬ IsEnoent (outcome (executeOpen env (match some id, (w.stored id).isSome with
            | some id, true => .openObject (some id) false false false
            | some _, false => .error
            | none, _ => .openReal) p rdonly md w))
          rw [hstored]
          exact executeOpen_stored hq hstored

omit hq in
theorem open_enoent_iff (pol : Policy) (hgood : GoodStore w.daemon) (hfaults : env.faults = [])
    {ino : UInt64} (hino : w.inodes.getPath ino = some p) :
    (serveFuse pol env w (.open ino rdonly)).1 = .error .enoent ↔ OpenMisses pol w p := by
  have hpath : pathOf ino { w with faults := env.faults } = .ok p { w with faults := env.faults } :=
    pathOf_ok hino
  obtain ⟨state, hload⟩ : ∃ state, loadOpenState pol env p rdonly.needWrite rdonly.trunc
      { w with faults := env.faults } = .ok state { w with faults := env.faults } :=
    ⟨_, loadOpenState_quiet hfaults _ _⟩
  have hexec : IsEnoent (outcome (executeOpen env (decideOpen state) p rdonly
      (fileMetaNow env 0 (S_IFREG ||| 0o644) env.uid env.gid) { w with faults := env.faults })) ↔
        OpenMisses pol w p :=
    executeOpen_isEnoent (w := { w with faults := env.faults }) hfaults
      (fun e he => hgood.entries p e he) hload
  rw [← hexec, serveFuse_reply]
  show replyOf (outcome («open» pol env ino rdonly { w with faults := env.faults })) = _ ↔ _
  unfold «open»
  rw [run_bind_ok hpath, run_bind_ok (reqStart_quiet hfaults _ _),
    run_bind_ok (connectDaemon_quiet hfaults), run_bind_ok hload]
  cases hrun : executeOpen env (decideOpen state) p rdonly
      (fileMetaNow env 0 (S_IFREG ||| 0o644) env.uid env.gid) { w with faults := env.faults } with
  | ok file w' =>
    have hfh : addOpenFile file w' = .ok w'.nextFh { w' with
      nextFh := w'.nextFh + 1, openFiles := w'.openFiles.insert w'.nextFh file } := rfl
    rw [run_bind_ok hrun, run_bind_ok hfh]
    refine iff_of_false ?_ (isEnoent_ok _)
    intro h
    cases h
  | error err w' =>
    rw [run_bind_error hrun]
    show Reply.error (errToErrno err) = .error .enoent ↔ IsEnoent (.error err)
    rw [isEnoent_error, Reply.error.injEq]

end Quiet

/-! ## §6. readlink. -/

/-- A readlink finds a target. -/
def LinkShown (pol : Policy) (w : World) (p : FsPath) : Prop :=
  match pol.classify p with
  | .passthrough => ∃ target, hostKind w.host p = some (.symlink target)
  | .fuseOnly => (w.entry p).map FuseEntry.entryType = some .symlink
  | .copyOnWrite =>
    match (w.entry p).map FuseEntry.entryType with
    | some .whiteout => False
    | some .symlink => True
    | _ => ∃ target, hostKind w.host p = some (.symlink target)

section Quiet

variable {pol : Policy} {env : Env} {w : World} {p : FsPath}

theorem executeReadlink_real :
    (∃ data, outcome (executeReadlink env .useReal p w) = .ok data) ↔
      ∃ target, hostKind w.host p = some (.symlink target) := by
  rw [← readLink_isOk_iff]
  show (∃ data, outcome (readHost (fun fs => fs.readLink p) w) = .ok data) ↔ _
  cases hread : w.host.readLink p with
  | ok target =>
    rw [readHost_ok hread]
    exact iff_of_true ⟨target, rfl⟩ ⟨target, rfl⟩
  | error errno =>
    rw [readHost_error hread]
    apply iff_of_false
    · rintro ⟨data, h⟩
      cases h
    · rintro ⟨target, h⟩
      cases h

theorem executeReadlink_fuse (hq : w.faults = []) :
    ∃ data, outcome (executeReadlink env .useFuse p w) = .ok data := by
  show ∃ data, outcome ((Client.getEntry env p >>= fun entry =>
    pure ((entry.bind (·.symlinkTarget)).getD []) : FuseM Bytes) w) = .ok data
  rw [run_bind_ok (getEntry_quiet hq)]
  exact ⟨_, rfl⟩

theorem executeReadlink_notFound :
    ¬ ∃ data, outcome (executeReadlink env .notFound p w) = .ok data := by
  rintro ⟨data, h⟩
  cases h

theorem executeReadlink_iff (hq : w.faults = []) :
    (∃ data, outcome (executeReadlink env (decideReadlink ⟨pol.classify p, p, w.entry p⟩) p w)
      = .ok data) ↔ LinkShown pol w p := by
  unfold LinkShown decideReadlink
  cases pol.classify p with
  | passthrough => exact executeReadlink_real
  | fuseOnly =>
    dsimp only
    cases (w.entry p).map FuseEntry.entryType with
    | none => exact iff_of_false executeReadlink_notFound fun h => by cases h
    | some t =>
      cases t with
      | symlink => exact iff_of_true (executeReadlink_fuse hq) rfl
      | _ => exact iff_of_false executeReadlink_notFound fun h => by cases h
  | copyOnWrite =>
    dsimp only
    cases (w.entry p).map FuseEntry.entryType with
    | none => exact executeReadlink_real
    | some t =>
      cases t with
      | symlink => exact iff_of_true (executeReadlink_fuse hq) trivial
      | whiteout => exact iff_of_false executeReadlink_notFound id
      | _ => exact executeReadlink_real

theorem readlink_data_iff (pol : Policy) (hfaults : env.faults = []) {ino : UInt64}
    (hino : w.inodes.getPath ino = some p) :
    (∃ data, (serveFuse pol env w (.readlink ino)).1 = .data data) ↔ LinkShown pol w p := by
  have hpath : pathOf ino { w with faults := env.faults } = .ok p { w with faults := env.faults } :=
    pathOf_ok hino
  have hload : loadReadlinkState pol env p { w with faults := env.faults }
      = .ok ⟨pol.classify p, p, w.entry p⟩ { w with faults := env.faults } := by
    unfold loadReadlinkState
    rw [run_bind_ok (getEntry_quiet hfaults)]
    rfl
  have hexec : (∃ data, outcome (executeReadlink env
      (decideReadlink ⟨pol.classify p, p, w.entry p⟩) p { w with faults := env.faults }) = .ok data) ↔
        LinkShown pol w p := executeReadlink_iff (w := { w with faults := env.faults }) hfaults
  rw [← hexec, serveFuse_reply]
  show (∃ data, replyOf (outcome (readlink pol env ino { w with faults := env.faults }))
    = .data data) ↔ _
  unfold readlink
  rw [run_bind_ok hpath, run_bind_ok (connectDaemon_quiet hfaults), run_bind_ok hload]
  cases hrun : executeReadlink env (decideReadlink ⟨pol.classify p, p, w.entry p⟩) p
      { w with faults := env.faults } with
  | ok data w' =>
    rw [run_bind_ok hrun]
    exact iff_of_true ⟨data, rfl⟩ ⟨data, rfl⟩
  | error err w' =>
    rw [run_bind_error hrun]
    apply iff_of_false
    · rintro ⟨data, h⟩
      cases h
    · rintro ⟨data, h⟩
      cases h

end Quiet

/-! ## §7. Agreement. -/

/-- The four observers say the same about `name` in `dir`; `ino` is the inode number of the child.
An open concerns a regular file, or a number whose name is gone: the kernel opens a directory with
another request, and no symbolic link at all. -/
structure ObserversAgree (pol : Policy) (env : Env) (w : World) (dir ino : UInt64)
    (name : Name) : Prop where
  readdir : ∀ kind, ListsAs pol env w dir name kind ↔ StatsAs pol env w dir name kind
  «open» : (∀ kind, StatsAs pol env w dir name kind → kind = .regularFile) →
    ((serveFuse pol env w (.open ino rdonly)).1 = .error .enoent ↔
      (serveFuse pol env w (.lookup dir (.name name))).1 = .error .enoent)
  readlink : (∃ data, (serveFuse pol env w (.readlink ino)).1 = .data data) ↔
    StatsAs pol env w dir name .symlink

/-- The entry of `name` in `d`, its place in the table, its object, the host's node and the host's
listing of `d` fit together. -/
def Coherent (pol : Policy) (w : World) (d : FsPath) (name : Name) : Prop :=
  match pol.classify (d ++ [name]) with
  | .passthrough =>
    (match daemonListed w.daemon (d ++ [name]) with
      | none => hostListed w.host d name = hostKind w.host (d ++ [name])
      | some e =>
        if e.entryType = .whiteout then hostKind w.host (d ++ [name]) = none
        else hostListed w.host d name = none →
          kindFromEntry e = (hostKind w.host (d ++ [name])).map .ofKind) ∧
    if isWhiteoutEntry (w.entry (d ++ [name])) then hostKind w.host (d ++ [name]) ≠ some .file
    else hostKind w.host (d ++ [name]) = none → HostMisses w.host (d ++ [name])
  | .fuseOnly => ∃ e, w.entry (d ++ [name]) = some e ∧
    (e.entryType ≠ .whiteout → daemonListed w.daemon (d ++ [name]) = some e) ∧
    ∀ id, e.objectId = some id → w.stored id ≠ none
  | .copyOnWrite =>
    match w.entry (d ++ [name]) with
    | none =>
      hostListed w.host d name = hostKind w.host (d ++ [name]) ∧
      (hostKind w.host (d ++ [name]) = none → HostMisses w.host (d ++ [name]))
    | some e =>
      (daemonListed w.daemon (d ++ [name]) = none →
        kindFromEntry e = (hostListed w.host d name).map .ofKind) ∧
      (e.entryType = .file ∨ e.entryType = .dir →
        ∀ target, hostKind w.host (d ++ [name]) ≠ some (.symlink target))

section Kinds

variable {w : World} {p : FsPath}

/-- A listing shows an entry as stat does. -/
theorem FuseChild.shown_kind {e : FuseEntry} (he : GoodEntry e) (p : FsPath) :
    (FuseChild.shown ⟨e.entryType, p⟩).map Prod.fst = kindFromEntry e := by
  unfold FuseChild.shown
  cases ht : e.entryType with
  | file =>
    rw [kindFromEntry_file he ht]
    rfl
  | dir =>
    unfold kindFromEntry
    rw [ht]
    rfl
  | symlink =>
    unfold kindFromEntry
    rw [ht]
    rfl
  | whiteout =>
    rw [kindFromEntry_whiteout.mpr ht]
    rfl

/-- An entry that is no `File` has no object. -/
theorem GoodEntry.noObject {e : FuseEntry} (he : GoodEntry e) (ht : e.entryType ≠ .file) :
    e.objectId = none := by
  by_contra hne
  exact ht (he.shape.1.mp (Option.isSome_iff_ne_none.mpr hne))

theorem kindFromEntry_symlink {e : FuseEntry} (he : GoodEntry e) :
    kindFromEntry e = some .symlink ↔ e.entryType = .symlink := by
  cases ht : e.entryType with
  | file =>
    rw [kindFromEntry_file he ht]
    exact iff_of_false nofun nofun
  | _ =>
    unfold kindFromEntry
    rw [ht]
    simp

theorem ofKind_symlink (kind : Option Kind) :
    kind.map FileType.ofKind = some .symlink ↔ ∃ target, kind = some (.symlink target) := by
  cases kind with
  | none => simp
  | some kind => cases kind <;> simp [FileType.ofKind]

/-- A listed entry is the entry of the path. -/
theorem daemonListed_entry {e : FuseEntry} (h : daemonListed w.daemon p = some e) :
    w.entry p = some e := by
  unfold daemonListed at h
  split at h
  · exact h
  · cases h

/-- A listed entry hides or covers the host's child; in Passthrough the host's child comes first. -/
theorem shownChild_some (mode : AccessMode) (real : Option RealChild) (f : FuseChild) :
    shownChild mode real (some f) = if f.entryType = .whiteout then none
      else match mode with
        | .passthrough => (real.map RealChild.shown).or f.shown
        | .fuseOnly => f.shown
        | .copyOnWrite => f.shown := by
  have hstate : childState real (some f) = some ⟨real, some f⟩ := by cases real <;> rfl
  unfold shownChild
  rw [hstate]
  show ReaddirChildState.choose _ (decideChild mode real.isSome true (f.entryType == .whiteout)) = _
  unfold decideChild
  by_cases ht : f.entryType = .whiteout
  · rw [if_pos ht, if_pos (beq_iff_eq.mpr ht)]
    rfl
  · rw [if_neg ht, if_neg (fun h => ht (beq_iff_eq.mp h))]
    cases mode <;> cases real <;> rfl

/-- What a listing has at `name`, mode by mode. -/
theorem listKind_eq {pol : Policy} {d : FsPath} {name : Name} (hgood : GoodStore w.daemon) :
    listKind pol w d name = match pol.classify d with
      | .passthrough =>
        match daemonListed w.daemon (d ++ [name]) with
        | none => (hostListed w.host d name).map .ofKind
        | some e =>
          if e.entryType = .whiteout then none
          else ((hostListed w.host d name).map .ofKind).or (kindFromEntry e)
      | .fuseOnly => (daemonListed w.daemon (d ++ [name])).bind kindFromEntry
      | .copyOnWrite =>
        match daemonListed w.daemon (d ++ [name]) with
        | none => (hostListed w.host d name).map .ofKind
        | some e => kindFromEntry e := by
  unfold listKind fuseChild realChild
  cases hlisted : daemonListed w.daemon (d ++ [name]) with
  | none => cases pol.classify d <;> cases hostListed w.host d name <;> rfl
  | some e =>
    have hshown := FuseChild.shown_kind (hgood.entries _ e (daemonListed_entry hlisted)) (d ++ [name])
    show (shownChild _ _ (some ⟨e.entryType, d ++ [name]⟩)).map Prod.fst = _
    rw [shownChild_some]
    by_cases ht : e.entryType = .whiteout
    · have hkind : kindFromEntry e = none := kindFromEntry_whiteout.mpr ht
      rw [if_pos ht]
      cases pol.classify d with
      | passthrough => exact (if_pos ht).symm
      | fuseOnly => exact hkind.symm
      | copyOnWrite => exact hkind.symm
    · rw [if_neg ht]
      cases pol.classify d with
      | passthrough =>
        show _ = if e.entryType = .whiteout then none else _
        rw [if_neg ht]
        cases hostListed w.host d name with
        | none => exact hshown
        | some kind => rfl
      | fuseOnly => exact hshown
      | copyOnWrite => exact hshown

/-- An open of a host file finds it. -/
theorem hostFile_found {fs : FileSystem} {p : FsPath} (h : hostKind fs p = some .file) :
    ¬ HostMisses fs p := by
  rw [hostKind_eq] at h
  cases hloc : fs.locate false p with
  | error errno =>
    rw [hloc] at h
    cases h
  | ok q =>
    rw [hloc] at h
    have hkind : fs.kindAt q = some .file := h
    have hfollow : fs.locate true p = .ok q := by
      apply locate_followed _ hloc
      rw [hkind]
      exact nofun
    unfold HostMisses
    rw [hfollow]
    have hmem := FileSystem.mem_names_of_kindAt hkind
    rw [← Finmap.lookup_isSome] at hmem
    intro hnone
    rw [show fs.names.lookup q = none from hnone] at hmem
    cases hmem

/-- Stat shows a regular file or nothing: the entry is a `File` or a whiteout. -/
theorem onlyRegular_iff {e : FuseEntry} (he : GoodEntry e) :
    (∀ kind, kindFromEntry e = some kind → kind = .regularFile) ↔
      e.entryType = .file ∨ e.entryType = .whiteout := by
  cases ht : e.entryType with
  | file =>
    rw [kindFromEntry_file he ht]
    simp
  | whiteout =>
    rw [kindFromEntry_whiteout.mpr ht]
    simp
  | _ =>
    unfold kindFromEntry
    rw [ht]
    simp

end Kinds

section Agreement

variable {pol : Policy} {w : World} {d : FsPath} {name : Name} (hgood : GoodStore w.daemon)
  (hroot : w.host.kindAt [] = some .dir) (hmode : pol.classify d = pol.classify (d ++ [name]))

/-- The three comparisons, on what the observers compute. -/
def SameAnswers (pol : Policy) (w : World) (d : FsPath) (name : Name) : Prop :=
  listKind pol w d name = statKind pol w (d ++ [name]) ∧
    ((∀ kind, statKind pol w (d ++ [name]) = some kind → kind = .regularFile) →
      (OpenMisses pol w (d ++ [name]) ↔ statKind pol w (d ++ [name]) = none)) ∧
    (LinkShown pol w (d ++ [name]) ↔ statKind pol w (d ++ [name]) = some .symlink)

include hgood in
theorem observersAgree_answers {env : Env} (hq : env.faults = []) {dir ino : UInt64}
    (hdir : w.inodes.getPath dir = some d) (hino : w.inodes.getPath ino = some (d ++ [name])) :
    ObserversAgree pol env w dir ino name ↔ SameAnswers pol w d name := by
  have hlists : (∀ kind, ListsAs pol env w dir name kind ↔ StatsAs pol env w dir name kind) ↔
      listKind pol w d name = statKind pol w (d ++ [name]) := by
    rw [Option.ext_iff]
    exact forall_congr' fun kind =>
      iff_congr (listsAs_iff pol hq hdir name hgood kind) (statsAs_iff pol hq hdir name kind)
  have hregular : (∀ kind, StatsAs pol env w dir name kind → kind = .regularFile) ↔
      ∀ kind, statKind pol w (d ++ [name]) = some kind → kind = .regularFile :=
    forall_congr' fun kind => imp_congr_left (statsAs_iff pol hq hdir name kind)
  have hopen := imp_congr hregular (iff_congr (open_enoent_iff pol hgood hq hino)
    (lookup_enoent_iff pol hq hdir name))
  have hlink := iff_congr (readlink_data_iff pol hq hino)
    (statsAs_iff pol hq hdir name .symlink)
  unfold SameAnswers
  rw [← hlists, ← hopen, ← hlink]
  exact ⟨fun h => ⟨h.readdir, h.open, h.readlink⟩, fun h => ⟨h.1, h.2.1, h.2.2⟩⟩

omit hgood hmode in
include hroot in
/-- The host's listing shows what stat shows, unless it does not show the name. -/
theorem listed_eq_iff :
    (hostListed w.host d name).map FileType.ofKind = (hostKind w.host (d ++ [name])).map .ofKind ↔
      hostListed w.host d name = hostKind w.host (d ++ [name]) := by
  refine ⟨fun h => ?_, congrArg _⟩
  rcases hostListed_eq hroot d name with heq | hnone
  · exact heq
  · rw [hnone] at h ⊢
    exact (Option.map_eq_none_iff.mp h.symm).symm

include hgood hroot hmode

theorem sameAnswers_passthrough (h : pol.classify (d ++ [name]) = .passthrough) :
    SameAnswers pol w d name ↔ Coherent pol w d name := by
  have hstat : statKind pol w (d ++ [name]) = (hostKind w.host (d ++ [name])).map .ofKind := by
    unfold statKind
    rw [h]
  have hlist : listKind pol w d name = statKind pol w (d ++ [name]) ↔
      match daemonListed w.daemon (d ++ [name]) with
      | none => hostListed w.host d name = hostKind w.host (d ++ [name])
      | some e =>
        if e.entryType = .whiteout then hostKind w.host (d ++ [name]) = none
        else hostListed w.host d name = none →
          kindFromEntry e = (hostKind w.host (d ++ [name])).map .ofKind := by
    rw [listKind_eq hgood, hstat, hmode, h]
    cases daemonListed w.daemon (d ++ [name]) with
    | none => exact listed_eq_iff hroot
    | some e =>
      show (if e.entryType = .whiteout then none else _) = _ ↔
        if e.entryType = .whiteout then _ else _
      by_cases ht : e.entryType = .whiteout
      · rw [if_pos ht, if_pos ht]
        exact eq_comm.trans Option.map_eq_none_iff
      · rw [if_neg ht, if_neg ht]
        rcases hostListed_eq hroot d name with heq | hnone
        · rw [heq]
          cases hostKind w.host (d ++ [name]) <;> simp
        · rw [hnone]
          simp
  have hopen : ((∀ kind, statKind pol w (d ++ [name]) = some kind → kind = .regularFile) →
      (OpenMisses pol w (d ++ [name]) ↔ statKind pol w (d ++ [name]) = none)) ↔
      if isWhiteoutEntry (w.entry (d ++ [name])) then hostKind w.host (d ++ [name]) ≠ some .file
      else hostKind w.host (d ++ [name]) = none → HostMisses w.host (d ++ [name]) := by
    rw [hstat]
    unfold OpenMisses
    rw [h]
    cases hk : hostKind w.host (d ++ [name]) with
    | none => by_cases hwhite : isWhiteoutEntry (w.entry (d ++ [name])) = true <;> simp [hwhite]
    | some kind =>
      cases kind with
      | file =>
        have hfound := hostFile_found hk
        by_cases hwhite : isWhiteoutEntry (w.entry (d ++ [name])) = true <;>
          simp [hwhite, hfound, FileType.ofKind]
      | _ =>
        by_cases hwhite : isWhiteoutEntry (w.entry (d ++ [name])) = true <;>
          simp [hwhite, FileType.ofKind]
  have hlink : LinkShown pol w (d ++ [name]) ↔ statKind pol w (d ++ [name]) = some .symlink := by
    rw [hstat, ofKind_symlink]
    unfold LinkShown
    rw [h]
  unfold SameAnswers
  rw [hlist, hopen, iff_true_intro hlink, and_true]
  unfold Coherent
  rw [h]

omit hroot in
theorem sameAnswers_fuseOnly (h : pol.classify (d ++ [name]) = .fuseOnly) :
    SameAnswers pol w d name ↔ Coherent pol w d name := by
  have hstat : statKind pol w (d ++ [name]) = (w.entry (d ++ [name])).bind kindFromEntry := by
    unfold statKind
    rw [h]
  have hlist : listKind pol w d name
      = (daemonListed w.daemon (d ++ [name])).bind kindFromEntry := by
    rw [listKind_eq hgood, hmode, h]
  have hlinkShown : LinkShown pol w (d ++ [name])
      = ((w.entry (d ++ [name])).map FuseEntry.entryType = some .symlink) := by
    unfold LinkShown
    rw [h]
  have hmisses : OpenMisses pol w (d ++ [name])
      = (isWhiteoutEntry (w.entry (d ++ [name])) = true ∨
        ∃ id, (w.entry (d ++ [name])).bind (·.objectId) = some id ∧ w.stored id = none) := by
    unfold OpenMisses
    rw [h]
  unfold SameAnswers Coherent
  rw [hstat, hlist, hlinkShown, hmisses, h]
  cases he : w.entry (d ++ [name]) with
  | none =>
    -- stat finds nothing, and an open makes a file
    simp [isWhiteoutEntry]
  | some e =>
    have hgoodEntry : GoodEntry e := hgood.entries _ e he
    have hwhite : isWhiteoutEntry (some e) = true ↔ e.entryType = .whiteout := by
      simp [isWhiteoutEntry]
    have hlink : e.entryType = .symlink ↔ kindFromEntry e = some .symlink :=
      (kindFromEntry_symlink hgoodEntry).symm
    have hlists : (daemonListed w.daemon (d ++ [name])).bind kindFromEntry = kindFromEntry e ↔
        (e.entryType ≠ .whiteout → daemonListed w.daemon (d ++ [name]) = some e) := by
      cases hl : daemonListed w.daemon (d ++ [name]) with
      | none =>
        rw [Ne, ← kindFromEntry_whiteout]
        show none = kindFromEntry e ↔ _
        cases kindFromEntry e <;> simp
      | some listed =>
        cases he.symm.trans (daemonListed_entry hl)
        exact iff_of_true rfl fun _ => rfl
    have hopens : ((∀ kind, kindFromEntry e = some kind → kind = .regularFile) →
        ((isWhiteoutEntry (some e) = true ∨ ∃ id, e.objectId = some id ∧ w.stored id = none) ↔
          kindFromEntry e = none)) ↔ ∀ id, e.objectId = some id → w.stored id ≠ none := by
      rw [onlyRegular_iff hgoodEntry, hwhite, kindFromEntry_whiteout]
      by_cases ht : e.entryType = .file
      · simp [ht]
      · -- without an object there is nothing to miss
        rw [hgoodEntry.noObject ht]
        simp [ht]
    show _ = kindFromEntry e ∧ (_ → ((_ ∨ _) ↔ kindFromEntry e = none)) ∧
      (some e.entryType = some .symlink ↔ kindFromEntry e = some .symlink) ↔ _
    simp only [Option.bind_some, hlists, hopens, iff_true_intro hlink, and_true, Option.some.injEq,
      exists_eq_left']

omit hroot hmode hgood in
theorem listed_agrees_iff {e : FuseEntry} (he : w.entry (d ++ [name]) = some e) :
    (match daemonListed w.daemon (d ++ [name]) with
      | none => (hostListed w.host d name).map .ofKind
      | some e => kindFromEntry e) = kindFromEntry e ↔
        (daemonListed w.daemon (d ++ [name]) = none →
          kindFromEntry e = (hostListed w.host d name).map .ofKind) := by
  cases hl : daemonListed w.daemon (d ++ [name]) with
  | none => exact ⟨fun h _ => h.symm, fun h => (h rfl).symm⟩
  | some listed =>
    cases he.symm.trans (daemonListed_entry hl)
    exact iff_of_true rfl fun h => by cases h

omit hroot hmode hgood in
theorem link_agrees_iff {e : FuseEntry} (hgoodEntry : GoodEntry e) :
    ((match some e.entryType with
      | some .whiteout => False
      | some .symlink => True
      | _ => ∃ target, hostKind w.host (d ++ [name]) = some (.symlink target)) ↔
        kindFromEntry e = some .symlink) ↔
        (e.entryType = .file ∨ e.entryType = .dir →
          ∀ target, hostKind w.host (d ++ [name]) ≠ some (.symlink target)) := by
  rw [kindFromEntry_symlink hgoodEntry]
  cases e.entryType <;> simp

theorem sameAnswers_copyOnWrite (h : pol.classify (d ++ [name]) = .copyOnWrite) :
    SameAnswers pol w d name ↔ Coherent pol w d name := by
  unfold SameAnswers Coherent
  rw [listKind_eq hgood, hmode]
  unfold statKind LinkShown OpenMisses
  rw [h]
  cases he : w.entry (d ++ [name]) with
  | none =>
    have hl : daemonListed w.daemon (d ++ [name]) = none := by
      cases hl : daemonListed w.daemon (d ++ [name]) with
      | none => rfl
      | some e => exact (daemonListed_entry hl).symm.trans he
    rw [hl]
    show _ = _ ∧ (_ → ((_ ∨ _ ∧ HostMisses w.host (d ++ [name])) ↔ _)) ∧
      ((∃ target, hostKind w.host (d ++ [name]) = some (.symlink target)) ↔ _) ↔ _
    rw [ofKind_symlink, iff_true_intro Iff.rfl, and_true]
    refine and_congr (listed_eq_iff hroot) ?_
    cases hk : hostKind w.host (d ++ [name]) with
    | none => simp [isWhiteoutEntry]
    | some kind =>
      cases kind with
      | file => simp [isWhiteoutEntry, hostFile_found hk]
      | _ => simp [FileType.ofKind]
  | some e =>
    have hgoodEntry : GoodEntry e := hgood.entries _ e he
    have hwhite : isWhiteoutEntry (some e) = true ↔ kindFromEntry e = none := by
      rw [kindFromEntry_whiteout]
      simp [isWhiteoutEntry]
    -- a `File` has an object, so its open does not look at the host
    have hopens : (∀ kind, kindFromEntry e = some kind → kind = .regularFile) →
        ((isWhiteoutEntry (some e) = true ∨
          e.objectId = none ∧ HostMisses w.host (d ++ [name])) ↔ kindFromEntry e = none) := by
      rw [onlyRegular_iff hgoodEntry, hwhite]
      rintro (ht | ht)
      · have hobject : e.objectId ≠ none :=
          Option.isSome_iff_ne_none.mp (hgoodEntry.shape.1.mpr ht)
        simp [hobject]
      · simp [kindFromEntry_whiteout.mpr ht]
    refine and_congr (listed_agrees_iff he) ?_
    exact (and_iff_right hopens).trans (link_agrees_iff hgoodEntry)

theorem sameAnswers_iff : SameAnswers pol w d name ↔ Coherent pol w d name := by
  cases h : pol.classify (d ++ [name]) with
  | passthrough => exact sameAnswers_passthrough hgood hroot hmode h
  | fuseOnly => exact sameAnswers_fuseOnly hgood hmode h
  | copyOnWrite => exact sameAnswers_copyOnWrite hgood hroot hmode h

end Agreement

/-- After `create /a` over the empty root. -/
def createdA : World :=
  (serveFuse allCopyOnWrite Env.quiet (World.mount emptyRoot (Server.init "s"))
    (.create 1 (.name Name.a) 0o644 ⟨.rdwr, false, false⟩)).2

/-- Only `/b` is CopyOnWrite. -/
def copyOnWriteB : Policy where
  classify p := if p = [Name.b] then .copyOnWrite else .passthrough
  shouldLog _ := false

/-- After `mkdir /b; rename(/b, /a); readdir /` over the empty root. -/
def movedB : World :=
  (serveFuse copyOnWriteB Env.quiet (serveFuse copyOnWriteB Env.quiet (serveFuse copyOnWriteB
    Env.quiet (World.mount emptyRoot (Server.init "s")) (.mkdir 1 (.name Name.b) 0o755)).2
    (.rename 1 (.name Name.b) 1 (.name Name.a))).2 (.readdir 1 0 4096)).2

end Cas.Fuse
