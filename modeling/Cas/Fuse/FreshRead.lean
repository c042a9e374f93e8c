/-
  Cas.Fuse.FreshRead — the bytes that a fresh open of a regular file reads.

  `contentAt` finds them in the host or in the object store, for every
  access mode; `freshReads_iff` says that an open for reading followed by
  reads returns them, and nothing else.
-/
import Cas.Fuse.Observers
import Cas.Host.Attributes

namespace Cas.Fuse

open Cas.Lib Cas.Host Cas.Syncing

/-! ## §1. Where the bytes are. -/

def hostFileAt (fs : FileSystem) (p : FsPath) : Option Backing :=
  (fs.find true p).toOption.map fun found => .host found.ino

def objectAt (w : World) (p : FsPath) : Option Backing :=
  ((w.entry p).bind (·.objectId)).map fun id => .object (objectPath id)

/-- The file that an open for reading looks for. -/
def readsFrom (pol : Policy) (w : World) (p : FsPath) : Option Backing :=
  if isWhiteoutEntry (w.entry p) then none
  else
    match pol.classify p with
    | .passthrough => hostFileAt w.host p
    | .fuseOnly => objectAt w p
    | .copyOnWrite => (objectAt w p).or (hostFileAt w.host p)

def Content.bytes : Content → Option Bytes
  | .file data => some data
  | _ => none

/-- The content of the file behind a descriptor. -/
def Backing.content (w : World) : Backing → Option Bytes
  | .host ino => (w.host.inodes.lookup ino).bind fun inode => Content.bytes inode.content
  | .object path => w.objects.lookup path

def contentAt (pol : Policy) (w : World) (p : FsPath) : Option Bytes :=
  (readsFrom pol w p).bind (·.content w)

/-- Stat looks at the host: the path is passed through, or copy-on-write without an entry. -/
def StatsHost (pol : Policy) (w : World) (p : FsPath) : Prop :=
  pol.classify p = .passthrough ∨ (pol.classify p = .copyOnWrite ∧ w.entry p = none)

instance (pol : Policy) (w : World) (p : FsPath) : Decidable (StatsHost pol w p) :=
  inferInstanceAs (Decidable (_ ∨ _))

section Regular

variable {pol : Policy} {w : World} {p : FsPath} {s : Shown}

theorem shownAt_host (h : StatsHost pol w p) : shownAt pol w p = hostShown w.host p := by
  unfold shownAt
  rcases h with h | ⟨h, he⟩
  · rw [h]
  · rw [h, he]

theorem shownAt_entry (h : ¬ StatsHost pol w p) :
    shownAt pol w p = (w.entry p).bind entryShown := by
  unfold StatsHost at h
  unfold shownAt
  cases hmode : pol.classify p with
  | passthrough => exact absurd (Or.inl hmode) h
  | fuseOnly => rfl
  | copyOnWrite =>
    cases he : w.entry p with
    | none => exact absurd (Or.inr ⟨hmode, he⟩) h
    | some e => rfl

/-- A regular file of the host, found through links or not. -/
theorem hostShown_regular {fs : FileSystem} (hs : hostShown fs p = some s)
    (hk : s.kind = .regularFile) : ∃ found data, fs.find false p = .ok found ∧
      fs.find true p = .ok found ∧ found.inode.content = .file data := by
  unfold hostShown FileSystem.symlinkMetadata at hs
  cases hfind : fs.find false p with
  | error errno =>
    rw [hfind] at hs
    cases hs
  | ok found =>
    rw [hfind] at hs
    obtain rfl := Option.some.inj hs
    have hkind : FileType.ofKind found.inode.content.kind = .regularFile := hk
    cases hc : found.inode.content with
    | file data =>
      refine ⟨found, data, rfl, FileSystem.find_followed hfind ?_, hc⟩
      intro target
      rw [hc]
      exact nofun
    | dir =>
      rw [hc] at hkind
      cases hkind
    | symlink target =>
      rw [hc] at hkind
      cases hkind

/-- A regular file of the daemon has an object. -/
theorem entryShown_regular {e : FuseEntry} (he : GoodEntry e) (hs : entryShown e = some s)
    (hk : s.kind = .regularFile) : e.entryType = .file ∧ ∃ id, e.objectId = some id := by
  unfold entryShown at hs
  obtain ⟨kind, hkind, rfl⟩ := Option.map_eq_some_iff.mp hs
  have hreg : kind = .regularFile := hk
  subst hreg
  have ht : e.entryType = .file := by
    unfold kindFromEntry at hkind
    cases htype : e.entryType with
    | file => rfl
    | dir | symlink | whiteout =>
      rw [htype] at hkind
      cases hkind
  exact ⟨ht, Option.isSome_iff_exists.mp (he.shape.1.mpr ht)⟩

end Regular

/-! ## §2. A fresh open. -/

/-- Open for reading, then read. -/
def freshRead (pol : Policy) (env : Env) (w : World) (ino : UInt64) (offset len : Nat) :
    Option Bytes :=
  match serveFuse pol env w (.open ino rdonly) with
  | (.opened fh, w') =>
    match (serveFuse pol env w' (.read ino fh offset len)).1 with
    | .data bytes => some bytes
    | _ => none
  | _ => none

/-- Every fresh open of `ino` reads `data`, as long as no message is lost. -/
def FreshReads (pol : Policy) (w : World) (ino : UInt64) (data : Bytes) : Prop :=
  ∀ env, env.faults = [] → ∀ offset len, freshRead pol env w ino offset len
    = some (readAt data offset len)

section Open

variable {pol : Policy} {env : Env} {w : World} {p : FsPath} {s : Shown}

theorem readFile_of_find {fs : FileSystem} {found : FileSystem.Found} {data : Bytes}
    (hfind : fs.find true p = .ok found) (hdata : found.inode.content = .file data) :
    fs.readFile p = .ok data := by
  unfold FileSystem.readFile
  rw [hfind]
  simp only [hdata]

/-- The content of a regular file that stat finds on the host. -/
theorem contentAt_host (hstat : StatsHost pol w p) (hwhite : isWhiteoutEntry (w.entry p) = false)
    {found : FileSystem.Found} {data : Bytes} (hfind : w.host.find true p = .ok found)
    (hdata : found.inode.content = .file data) :
    readsFrom pol w p = some (.host found.ino) ∧ contentAt pol w p = some data := by
  have hhost : hostFileAt w.host p = some (.host found.ino) := by
    unfold hostFileAt
    rw [hfind]
    rfl
  have hreads : readsFrom pol w p = some (.host found.ino) := by
    unfold readsFrom
    rw [if_neg (by simp [hwhite])]
    rcases hstat with hmode | ⟨hmode, he⟩
    · rw [hmode]
      exact hhost
    · rw [hmode]
      have hnone : objectAt w p = none := by
        unfold objectAt
        rw [he]
        rfl
      show (objectAt w p).or _ = _
      rw [hnone]
      exact hhost
  refine ⟨hreads, ?_⟩
  unfold contentAt
  rw [hreads]
  show (w.host.inodes.lookup found.ino).bind _ = _
  rw [(FileSystem.find_ok hfind).2.2]
  show Content.bytes found.inode.content = _
  rw [hdata]
  rfl

/-- The content of a regular file that stat finds at the daemon. -/
theorem contentAt_entry (hstat : ¬ StatsHost pol w p) {e : FuseEntry} (he : w.entry p = some e)
    (ht : e.entryType = .file) {id : UInt64} (hid : e.objectId = some id) :
    readsFrom pol w p = some (.object (objectPath id)) ∧
      contentAt pol w p = w.objects.lookup (objectPath id) := by
  have hobj : objectAt w p = some (.object (objectPath id)) := by
    unfold objectAt
    rw [he]
    show (e.objectId.map _) = _
    rw [hid]
    rfl
  have hwhite : isWhiteoutEntry (w.entry p) = false := by
    rw [he]
    exact decide_eq_false (by simp [ht])
  have hreads : readsFrom pol w p = some (.object (objectPath id)) := by
    unfold readsFrom
    rw [if_neg (by simp [hwhite])]
    cases hmode : pol.classify p with
    | passthrough => exact absurd (Or.inl hmode) hstat
    | fuseOnly => exact hobj
    | copyOnWrite =>
      show (objectAt w p).or _ = _
      rw [hobj]
      rfl
  refine ⟨hreads, ?_⟩
  unfold contentAt
  rw [hreads]
  rfl

/-- An open of an object that the entry has and that is gone. -/
theorem executeOpen_gone (hq : w.faults = []) (md : FileMetadata) {e : FuseEntry}
    (he : w.entry p = some e) {id : UInt64} (hid : e.reusableObject = some id)
    (hgone : objectPath id ∉ w.objects) (known : Option UInt64) :
    ∃ err w', executeOpen env (.openObject known true false false) p rdonly md w
      = .error err w' := by
  obtain ⟨w₁, hens, hobjects⟩ : ∃ w₁, Client.ensureFileObject env p md w
      = .ok (id, objectPath id) w₁ ∧ w₁.daemon.storage.objects = w.daemon.storage.objects :=
    ensureFileObject_reuses hq he hid
  have hmissing : objectPath id ∉ w₁.daemon.storage.objects := by
    rw [hobjects]
    exact hgone
  have hopen : openObject rdonly.options (objectPath id) w₁ = .error (.ofErrno .enoent) w₁ :=
    openObject_missing hmissing
  refine ⟨.ofErrno .enoent, w₁, ?_⟩
  rw [executeOpen_openObject,
    run_bind_ok (show objectForOpen env p md known true false w = _ from hens),
    run_bind_ok (show onlyIf false (ignore (copyToObject p (objectPath id))) w₁ = .ok () w₁ from rfl),
    run_bind_ok
      (show onlyIf false (ignore (Client.deleteWhiteout env p)) w₁ = .ok () w₁ from rfl)]
  exact run_bind_error hopen

/-- What an open for reading makes of a regular file: a handle that reads its content, or an
error. -/
theorem executeOpen_found (hq : w.faults = []) (hgood : GoodStore w.daemon)
    (hs : shownAt pol w p = some s) (hk : s.kind = .regularFile) (md : FileMetadata)
    {state : OpenState} (hload : loadOpenState pol env p false false w = .ok state w) :
    match contentAt pol w p with
    | some data => ∃ file, executeOpen env (decideOpen state) p rdonly md w = .ok file w ∧
        file.file.Reads w data
    | none => ∃ err w', executeOpen env (decideOpen state) p rdonly md w = .error err w' := by
  obtain rfl := (EStateM.Result.ok.inj ((loadOpenState_quiet hq _ _).symm.trans hload)).1
  rw [decideOpen_rdonly _ rfl]
  by_cases hwhite : isWhiteoutEntry (w.entry p) = true
  · have hnone : contentAt pol w p = none := by
      unfold contentAt readsFrom
      rw [if_pos hwhite]
      rfl
    rw [hnone, if_pos hwhite]
    exact ⟨_, _, rfl⟩
  rw [if_neg hwhite]
  by_cases hstat : StatsHost pol w p
  · -- a file of the host
    rw [shownAt_host hstat] at hs
    obtain ⟨found, data, -, hfind, hdata⟩ := hostShown_regular hs hk
    rw [(contentAt_host hstat (by simpa using hwhite) hfind hdata).2]
    have hreal : ∃ file, executeOpen env .openReal p rdonly md w = .ok file w ∧
        file.file.Reads w data := by
      obtain ⟨fd, hopen, hreads⟩ : ∃ fd, openHost env rdonly.options p w = .ok fd w ∧
          fd.Reads w data := openHost_readFile env (readFile_of_find hfind hdata)
      refine ⟨.passthroughReal fd, ?_, hreads⟩
      show (openHost env rdonly.options p >>= fun file => pure (.passthroughReal file)
        : FuseM OpenFile) w = _
      rw [run_bind_ok hopen]
      rfl
    rcases hstat with hmode | ⟨hmode, he⟩
    · simp only [hmode]
      exact hreal
    · simp only [hmode, he]
      exact hreal
  · -- an object
    rw [shownAt_entry hstat] at hs
    obtain ⟨e, he, hse⟩ := Option.bind_eq_some_iff.mp hs
    have hge : GoodEntry e := hgood.entries p e he
    obtain ⟨ht, id, hid⟩ := entryShown_regular hge hse hk
    rw [(contentAt_entry hstat he ht hid).2]
    have hobj : (w.entry p).bind (·.objectId) = some id := by
      rw [he]
      exact hid
    have hstored : w.stored id = if (w.objects.lookup (objectPath id)).isSome
        then some (objectPath id) else none := rfl
    cases hlook : w.objects.lookup (objectPath id) with
    | some data =>
      rw [hlook] at hstored
      have hopen : ∃ file, executeOpen env (.openObject (some id) false false false) p rdonly md w
          = .ok file w ∧ file.file.Reads w data := ⟨_, executeOpen_object env p hq _ hlook, hlook⟩
      cases hmode : pol.classify p with
      | passthrough => exact absurd (Or.inl hmode) hstat
      | fuseOnly =>
        simp only [hobj, Option.bind_some, hstored]
        exact hopen
      | copyOnWrite =>
        simp only [hobj, Option.bind_some, hstored]
        exact hopen
    | none =>
      rw [hlook] at hstored
      cases hmode : pol.classify p with
      | passthrough => exact absurd (Or.inl hmode) hstat
      | fuseOnly =>
        simp only [hobj, Option.bind_some, hstored]
        have htarget : e.symlinkTarget = none := by
          by_contra hne
          have hlink := hge.shape.2.mp (Option.isSome_iff_ne_none.mpr hne)
          rw [ht] at hlink
          cases hlink
        have hreuse : e.reusableObject = some id := by
          unfold FuseEntry.reusableObject
          rw [if_pos ⟨ht, htarget⟩, hid]
        exact executeOpen_gone hq md he hreuse (Finmap.lookup_eq_none.mp hlook) _
      | copyOnWrite =>
        simp only [hobj, Option.bind_some, hstored]
        exact ⟨_, _, rfl⟩

end Open

/-! ## §3. A fresh open reads the content. -/

/-- The reads of a file show all of its content. -/
theorem content_eq_of_reads {a b : Option Bytes} (h : ∀ offset len,
    a.map (fun data => readAt data offset len) = b.map fun data => readAt data offset len) :
    a = b := by
  cases a with
  | none =>
    cases b with
    | none => rfl
    | some data => cases h 0 0
  | some data =>
    cases b with
    | none => cases h 0 0
    | some data' =>
      -- long enough to see both to the end
      have htake : data.take (data.length + data'.length) = data'.take (data.length + data'.length) :=
        Option.some.inj (h 0 (data.length + data'.length))
      rw [List.take_of_length_le (by omega), List.take_of_length_le (by omega)] at htake
      rw [htake]

section Fresh

variable {pol : Policy} {env : Env} {w : World} {p : FsPath} {s : Shown} {ino : UInt64}

/-- The open succeeds: the bytes are what the handle reads. -/
theorem freshRead_opened (hq : env.faults = []) (hino : w.inodes.getPath ino = some p)
    {state : OpenState} (hload : loadOpenState pol env p false false
      { w with faults := env.faults } = .ok state { w with faults := env.faults })
    {file : OpenFile} (hrun : executeOpen env (decideOpen state) p rdonly
      (fileMetaNow env 0 (S_IFREG ||| 0o644) env.uid env.gid) { w with faults := env.faults }
        = .ok file { w with faults := env.faults }) (offset len : Nat) :
    freshRead pol env w ino offset len
      = (outcome (file.file.readAt offset len
          (({ w with faults := env.faults } : World).withHandle file))).toOption := by
  have hq₀ : ({ w with faults := env.faults } : World).faults = [] := hq
  -- the world with the new handle
  let w₁ : World := ({ w with faults := env.faults } : World).withHandle file
  have hopen : serveFuse pol env w (.open ino rdonly) = (.opened w.nextFh, w₁) :=
    serveFuse_ok _ (show «open» pol env ino rdonly _ = _ from open_quiet hq₀ hino hload hrun rfl)
  have hread : read ino w.nextFh offset len w₁
      = (file.file.readAt offset len >>= fun bytes => pure (.data bytes) : FuseM Reply) w₁ := by
    unfold read
    rw [run_bind_ok (connectDaemon_quiet (w := w₁) hq),
      run_bind_ok (pathOf_ok (show w₁.inodes.getPath ino = some p from hino)),
      run_bind_ok (openFileOf_ok (show w₁.openFiles.lookup w.nextFh = some file from
        Finmap.lookup_insert _))]
  have hreply : (serveFuse pol env w₁ (.read ino w.nextFh offset len)).1
      = replyOf (outcome ((file.file.readAt offset len >>= fun bytes => pure (.data bytes)
        : FuseM Reply) w₁)) := by
    rw [← hread]
    exact serveFuse_reply pol env w₁ _
  unfold freshRead
  rw [hopen]
  simp only [hreply]
  show _ = (outcome (file.file.readAt offset len w₁)).toOption
  rw [run_bind]
  cases file.file.readAt offset len w₁ <;> rfl

/-- The handle reads `data`. -/
theorem freshRead_reads (hq : env.faults = []) (hino : w.inodes.getPath ino = some p)
    {state : OpenState} (hload : loadOpenState pol env p false false
      { w with faults := env.faults } = .ok state { w with faults := env.faults })
    {file : OpenFile} (hrun : executeOpen env (decideOpen state) p rdonly
      (fileMetaNow env 0 (S_IFREG ||| 0o644) env.uid env.gid) { w with faults := env.faults }
        = .ok file { w with faults := env.faults }) {data : Bytes}
    (hreads : file.file.Reads { w with faults := env.faults } data) (offset len : Nat) :
    freshRead pol env w ino offset len = some (readAt data offset len) := by
  have hnew : file.file.Reads (({ w with faults := env.faults } : World).withHandle file) data :=
    hreads
  rw [freshRead_opened hq hino hload hrun, readAt_of_reads hnew]
  rfl

theorem open_failed {w : World} (hq : w.faults = []) (hino : w.inodes.getPath ino = some p)
    {state : OpenState} (hload : loadOpenState pol env p false false w = .ok state w)
    {err : Error} {w' : World} (hrun : executeOpen env (decideOpen state) p rdonly
      (fileMetaNow env 0 (S_IFREG ||| 0o644) env.uid env.gid) w = .error err w') :
    «open» pol env ino rdonly w = .error err w' := by
  have hpath : pathOf ino w = .ok p w := pathOf_ok hino
  unfold «open»
  rw [run_bind_ok hpath, run_bind_ok (reqStart_quiet hq _ _), run_bind_ok (connectDaemon_quiet hq)]
  exact (run_bind_ok hload).trans (run_bind_error hrun)

/-- The open fails: there are no bytes. -/
theorem freshRead_failed (hq : env.faults = []) (hino : w.inodes.getPath ino = some p)
    {state : OpenState} (hload : loadOpenState pol env p false false
      { w with faults := env.faults } = .ok state { w with faults := env.faults })
    {err : Error} {w' : World} (hrun : executeOpen env (decideOpen state) p rdonly
      (fileMetaNow env 0 (S_IFREG ||| 0o644) env.uid env.gid) { w with faults := env.faults }
        = .error err w') (offset len : Nat) :
    freshRead pol env w ino offset len = none := by
  have hq₀ : ({ w with faults := env.faults } : World).faults = [] := hq
  have hopen : serveFuse pol env w (.open ino rdonly) = (.error (errToErrno err), w') :=
    serveFuse_error _ (open_failed hq₀ hino hload hrun)
  unfold freshRead
  rw [hopen]

theorem freshRead_eq (env : Env) (hq : env.faults = []) (hgood : GoodStore w.daemon)
    (hino : w.inodes.getPath ino = some p) (hs : shownAt pol w p = some s)
    (hk : s.kind = .regularFile) (offset len : Nat) :
    freshRead pol env w ino offset len
      = (contentAt pol w p).map fun data => readAt data offset len := by
  have hq₀ : ({ w with faults := env.faults } : World).faults = [] := hq
  obtain ⟨state, hload⟩ : ∃ state, loadOpenState pol env p false false
      { w with faults := env.faults } = .ok state { w with faults := env.faults } :=
    ⟨_, loadOpenState_quiet hq₀ _ _⟩
  have hexec := executeOpen_found (w := { w with faults := env.faults }) hq₀ hgood hs hk
    (fileMetaNow env 0 (S_IFREG ||| 0o644) env.uid env.gid) hload
  have hsame : contentAt pol { w with faults := env.faults } p = contentAt pol w p := rfl
  rw [hsame] at hexec
  cases hcontent : contentAt pol w p with
  | some data =>
    rw [hcontent] at hexec
    obtain ⟨file, hrun, hreads⟩ := hexec
    exact freshRead_reads hq hino hload hrun hreads offset len
  | none =>
    rw [hcontent] at hexec
    obtain ⟨err, w', hrun⟩ := hexec
    exact freshRead_failed hq hino hload hrun offset len

/-- **A fresh open reads the content**, and if there is none it reads nothing. -/
theorem freshReads_iff (hgood : GoodStore w.daemon) (hino : w.inodes.getPath ino = some p)
    (hs : shownAt pol w p = some s) (hk : s.kind = .regularFile) (data : Bytes) :
    FreshReads pol w ino data ↔ contentAt pol w p = some data := by
  constructor
  · intro h
    apply content_eq_of_reads
    intro offset len
    rw [← freshRead_eq Env.quiet rfl hgood hino hs hk offset len]
    exact h Env.quiet rfl offset len
  · intro h env hq offset len
    rw [freshRead_eq env hq hgood hino hs hk, h]
    rfl

end Fresh

end Cas.Fuse
