/-
  Cas.Fuse.Sizes — the size in an entry and the length of its object.

  The size is metadata that the daemon keeps; the bytes are in an object
  file that handles write directly.  No operation changes both, so along a
  run from an empty store the two agree as long as both stay zero: a step
  must not put a byte into an object that an entry shows, nor a size other
  than zero into such an entry (`PutsNoByte`).
-/
import Cas.Fuse.Inodes
import Cas.Fuse.Isolation

namespace Cas.Fuse

open Cas.Lib Cas.Host Cas.Syncing

/-! ## §1. What stat should reply. -/

/-- At a managed path whose entry is a `File` with an object, stat replies the number of bytes in
the object. -/
def SizesAgree (pol : Policy) (w : World) : Prop :=
  ∀ p e id data, pol.classify p ≠ .passthrough → w.entry p = some e → e.entryType = .file →
    e.objectId = some id → w.objects.lookup (objectPath id) = some data →
    ∀ env : Env, ∃ kind attr,
      outcome (statPath pol env p { w with faults := [] }) = .ok (kind, attr) ∧
      attr.size = data.length

/-- Stat of a managed path with a `File` entry replies the size in the entry. -/
theorem statPath_size {pol : Policy} {env : Env} {w : World} {p : FsPath} {e : FuseEntry}
    (hq : w.faults = []) (hmode : pol.classify p ≠ .passthrough) (he : w.entry p = some e)
    (hfile : e.entryType = .file) : ∃ kind attr,
      outcome (statPath pol env p w) = .ok (kind, attr) ∧ attr.size = e.metadata.size.toNat := by
  have hload : loadStatState pol env p w
      = .ok ⟨pol.classify p, (w.host.symlinkMetadata p).isOk, some e⟩ w := by
    unfold loadStatState
    rw [run_bind_ok (peekHost_eq _ w), run_bind_ok (getEntry_quiet hq), he]
    rfl
  have hdecide : decideStat ⟨pol.classify p, (w.host.symlinkMetadata p).isOk, some e⟩
      = .useFuse := by
    unfold decideStat
    cases hm : pol.classify p with
    | passthrough => exact absurd hm hmode
    | fuseOnly | copyOnWrite => simp [hfile]
  obtain ⟨kind, hkind⟩ : ∃ kind, kindFromEntry e = some kind := by
    rw [← Option.ne_none_iff_exists']
    intro hnone
    rw [kindFromEntry_whiteout, hfile] at hnone
    cases hnone
  unfold statPath
  rw [run_bind_ok (connectDaemon_quiet hq), run_bind_ok hload, hdecide]
  refine ⟨kind, attrFromDaemon (w.inodes.getOrInsert p).1 e.metadata kind, ?_, rfl⟩
  show outcome (statFusePath env p w) = _
  unfold statFusePath
  rw [run_bind_ok (getEntry_quiet hq), he]
  dsimp only
  rw [hkind]
  rfl

/-! ## §2. Empty objects. -/

/-- An entry whose object is empty, and whose size says so. -/
def Hollow (objects : FMap ObjectPath Bytes) (e : FuseEntry) : Prop :=
  ∀ id, e.objectId = some id → e.metadata.size = 0 ∧
    ∀ data, objects.lookup (objectPath id) = some data → data = []

def AllHollow (w : World) : Prop := EveryEntry (Hollow w.objects) w.daemon.state.fuseMap

theorem AllHollow.sizesAgree {w : World} (h : AllHollow w) (pol : Policy) : SizesAgree pol w := by
  intro p e id data hmode he hfile hid hobject env
  obtain ⟨hsize, hempty⟩ := h p e he id hid
  obtain ⟨kind, attr, hstat, hattr⟩ : ∃ kind attr,
      outcome (statPath pol env p { w with faults := [] }) = .ok (kind, attr) ∧
      attr.size = e.metadata.size.toNat := statPath_size rfl hmode he hfile
  refine ⟨kind, attr, hstat, ?_⟩
  rw [hattr, hsize, hempty data hobject]
  rfl

/-- Every object file is as it was, or empty, or gone. -/
def Emptier (objects objects' : FMap ObjectPath Bytes) : Prop :=
  ∀ path data, objects'.lookup path = some data → data = [] ∨ objects.lookup path = some data

section Emptier

variable {objects objects' : FMap ObjectPath Bytes}

theorem Emptier.refl : Emptier objects objects := fun _ _ h => Or.inr h

theorem Emptier.insert_nil (path : ObjectPath) : Emptier objects (objects.insert path []) := by
  intro q data h
  rw [lookup_insert_ite] at h
  split at h
  · exact Or.inl (Option.some.inj h).symm
  · exact Or.inr h

theorem Emptier.erase (path : ObjectPath) : Emptier objects (objects.erase path) := by
  intro q data h
  rw [lookup_erase_ite] at h
  split at h
  · cases h
  · exact Or.inr h

theorem Hollow.emptier (hsub : Emptier objects objects') {e : FuseEntry} (h : Hollow objects e) :
    Hollow objects' e := by
  intro id hid
  obtain ⟨hsize, hempty⟩ := h id hid
  refine ⟨hsize, fun data hdata => ?_⟩
  rcases hsub _ data hdata with hnil | hold
  · exact hnil
  · exact hempty data hold

/-- A new empty object. -/
theorem emptier_allocEmpty (store : ObjectStore) (io : StoreIo) :
    Emptier store.files (store.allocEmpty io).2.files := by
  cases io with
  | ok => exact Emptier.insert_nil _
  | createFails err => exact Emptier.refl
  | writeFails n err =>
    show Emptier store.files (store.files.insert _ ([].take n))
    rw [List.take_nil]
    exact Emptier.insert_nil _

/-- A copy of an empty file. -/
theorem emptier_putCopyFrom (store : ObjectStore) (io : StoreIo) {source : Except String Bytes}
    (hsource : ∀ data, source = .ok data → data = []) :
    Emptier store.files (store.putCopyFrom io source).2.files := by
  cases source with
  | error err => exact Emptier.erase _
  | ok data =>
    rw [hsource data rfl]
    cases io with
    | ok => exact Emptier.insert_nil _
    | createFails err | writeFails n err => exact Emptier.erase _

end Emptier

/-- An entry that is published with size zero, over its old object or over a new, empty one. -/
theorem hollow_ensureObject {s : Server}
    (h : EveryEntry (Hollow s.storage.objects) s.state.fuseMap) (path : FsPath) {md : FileMetadata}
    (hmd : md.size = 0) {alloc : ObjectStore → Except String UInt64 × ObjectStore}
    {data : Option Bytes} (hdata : ∀ d, data = some d → d = [])
    (halloc : ObjectStore.Allocates s.objects data (alloc s.objects))
    (hsub : Emptier s.storage.objects (alloc s.objects).2.files) :
    EveryEntry (Hollow (s.ensureObject path md alloc).2.storage.objects)
      (s.ensureObject path md alloc).2.state.fuseMap := by
  have hold : EveryEntry (Hollow (alloc s.objects).2.files) s.state.fuseMap :=
    fun p e he => (h p e he).emptier hsub
  unfold Server.ensureObject
  cases hreuse : (s.state.fuseMap.lookup path).bind FuseEntry.reusableObject with
  | some id =>
    obtain ⟨e, he, hid⟩ := Option.bind_eq_some_iff.mp hreuse
    have hobject : e.objectId = some id := by
      unfold FuseEntry.reusableObject at hid
      split at hid
      · exact hid
      · cases hid
    refine h.insert path fun id' hid' => ?_
    cases hid'
    exact ⟨hmd, (h path e he id hobject).2⟩
  | none =>
    have honOk := halloc.onOk
    revert hold honOk
    rcases alloc s.objects with ⟨r, store⟩
    intro hold honOk
    cases r with
    | error err => exact hold
    | ok id =>
      obtain ⟨-, d, hd, hlook⟩ := honOk id rfl
      refine EveryEntry.insert hold path fun id' hid' => ?_
      cases hid'
      refine ⟨hmd, fun bytes hbytes => ?_⟩
      have hsame : some d = some bytes := hlook.symm.trans hbytes
      cases hsame
      exact hdata d hd

/-- Entries come and go, the objects stay. -/
theorem edits_allHollow : Edits AllHollow where
  faults _ _ h := h
  dispatch w denv req hreq h := by
    have hstorage : (dispatch denv w.daemon req).2.storage = w.daemon.storage := by
      cases req with
      | renameFile src dst =>
        show (w.daemon.renameFile src dst).2.storage = _
        unfold Server.renameFile
        cases w.daemon.state.fuseMap.lookup src <;> rfl
      | deleteWhiteout path =>
        show (w.daemon.deleteWhiteout path).2.storage = _
        unfold Server.deleteWhiteout
        cases w.daemon.state.fuseMap.lookup path with
        | none => rfl
        | some e =>
          simp only
          split <;> rfl
      | deleteFile _ | putDir _ _ | putSymlink _ _ _ | putWhiteout _ | renameTree _ _ => rfl
      | _ => exact hreq.elim
    show EveryEntry (Hollow (dispatch denv w.daemon req).2.storage.objects)
      (dispatch denv w.daemon req).2.state.fuseMap
    rw [hstorage]
    exact everyEntry_edits h (fun e he id hid => by rw [he] at hid; cases hid) denv hreq

theorem daemonOnly_allHollow : DaemonOnly AllHollow := by
  intro w w' hdaemon h
  unfold AllHollow World.objects at h ⊢
  rw [hdaemon]
  exact h

/-! ## §3. Steps that put no byte. -/

/-- A write through the descriptor changes an object that an entry shows. -/
def World.WritesShown (w : World) (fd : Fd) : Prop :=
  fd.writable = true ∧ ∃ p e id, w.entry p = some e ∧ e.objectId = some id ∧
    fd.backing = .object (objectPath id)

/-- An open for writing that copies the host file into a new object. -/
structure CopiesUp (pol : Policy) (w : World) (p : FsPath) (flags : OpenFlags) : Prop where
  mode : pol.classify p = .copyOnWrite
  write : flags.needWrite = true
  trunc : flags.trunc = false
  shown : isWhiteoutEntry (w.entry p) = false
  noObject : (w.entry p).bind (·.objectId) = none
  real : w.host.exists p = true

/-- The condition on one step: nothing is written to an object that an entry shows, no such entry
or object gets a size other than zero, and only empty host files are copied up. -/
def PutsNoByte (pol : Policy) (w : World) (x : Env × FuseRequest) : Prop :=
  match x.2 with
  | .write _ fh _ data =>
    data = [] ∨ ∀ file, w.openFiles.lookup fh = some file → ¬ w.WritesShown file.file
  | .copyFileRange _ fhIn offsetIn _ fhOut _ len =>
    ∀ input output src, w.openFiles.lookup fhIn = some input → input.file.Reads w src →
      w.openFiles.lookup fhOut = some output →
      readAt src offsetIn len = [] ∨ ¬ w.WritesShown output.file
  | .setattr ino _ _ _ (some size) fh =>
    size = 0 ∨ match fh.bind fun fh => w.openFiles.lookup fh with
      | some file => ¬ w.WritesShown file.file
      | none => ∀ p, w.inodes.getPath ino = some p → pol.classify p ≠ .passthrough →
          (w.entry p).bind (·.objectId) = none
  | .open ino flags =>
    ∀ p, w.inodes.getPath ino = some p → CopiesUp pol w p flags →
      ∀ data, w.host.readFile p = .ok data → data = []
  | _ => True

/-! ## §4. Such a step keeps the objects empty. -/

section Operations

variable {pol : Policy} {env : Env} {w₀ : World} (h : AllHollow w₀)

include h

theorem AllHollow.unserved {w : World} (hw : Unserved w₀ w) : AllHollow w := by
  obtain ⟨faults, rfl⟩ := hw
  exact h

/-- The object files change, and what entries show only gets emptier. -/
theorem AllHollow.setObjects {objects : FMap ObjectPath Bytes}
    (hsub : ∀ p e id, w₀.entry p = some e → e.objectId = some id → ∀ data,
      objects.lookup (objectPath id) = some data →
      data = [] ∨ w₀.objects.lookup (objectPath id) = some data) :
    AllHollow { w₀ with daemon :=
      { w₀.daemon with storage := { w₀.daemon.storage with objects } } } := by
  intro p e he id hid
  obtain ⟨hsize, hempty⟩ := h p e he id hid
  refine ⟨hsize, fun data hdata => ?_⟩
  rcases hsub p e id he hid data hdata with hnil | hold
  · exact hnil
  · exact hempty data hold

theorem hollow_modifyObject {path : ObjectPath} {f : Bytes → Bytes}
    (hf : (∀ old, f old = []) ∨
      ∀ p e id, w₀.entry p = some e → e.objectId = some id → path ≠ objectPath id) :
    Ensures (Unserved w₀) (Fd.modifyObject path f) (fun _ => AllHollow) AllHollow := by
  intro w hw
  have hkeep := h.unserved hw
  cases hlook : w.objects.lookup path with
  | none =>
    rw [Fd.modifyObject_missing f hlook]
    exact hkeep
  | some old =>
    rw [Fd.modifyObject_found f hlook]
    apply hkeep.setObjects
    intro p e id he hid data hdata
    rw [lookup_insert_ite] at hdata
    rcases hf with hnil | hother
    · split at hdata
      · rw [hnil] at hdata
        exact Or.inl (Option.some.inj hdata).symm
      · exact Or.inr hdata
    · obtain ⟨faults, rfl⟩ := hw
      rw [if_neg (hother p e id he hid).symm] at hdata
      exact Or.inr hdata

theorem hollow_writeAt {fd : Fd} (offset : Nat) {data : Bytes}
    (hguard : data = [] ∨ ¬ w₀.WritesShown fd) :
    Ensures (Unserved w₀) (fd.writeAt offset data) (fun _ => AllHollow) AllHollow := by
  have hE : ∀ w, Unserved w₀ w → AllHollow w := fun w hw => h.unserved hw
  unfold Fd.writeAt
  by_cases hdata : data = []
  · rw [if_pos hdata]
    exact Ensures.ret hE
  · rw [if_neg hdata]
    apply Ensures.bind (Q := fun _ => AllHollow) _ fun _ => Ensures.ret fun _ hw => hw
    unfold Fd.write
    by_cases hwritable : fd.writable = false
    · rw [if_pos hwritable]
      exact Ensures.fail hE
    · rw [if_neg hwritable]
      cases hb : fd.backing with
      | host ino =>
        exact (keeps_changeHost daemonOnly_allHollow.hosts _).weaken hE (fun _ _ hw => hw)
          fun _ hw => hw
      | object path =>
        refine hollow_modifyObject h (Or.inr fun p e id he hid heq => ?_)
        -- a path that an entry shows contradicts the condition
        rw [heq] at hb
        rcases hguard with hnil | hshown
        · exact hdata hnil
        · exact hshown ⟨Bool.eq_true_of_not_eq_false hwritable, p, e, id, he, hid, hb⟩

theorem hollow_write (ino fh : UInt64) (offset : Nat) (data : Bytes)
    (hguard : PutsNoByte pol w₀ (env, .write ino fh offset data)) :
    Ensures (Unserved w₀) (write ino fh offset data) (fun _ => AllHollow) AllHollow := by
  have hE : ∀ w, Unserved w₀ w → AllHollow w := fun w hw => h.unserved hw
  apply Ensures.unserved hE (keeps_connectDaemon (steady_unserved w₀))
  intro _
  apply Ensures.unserved hE (keeps_pathOf ino)
  intro _
  apply unserved_openFileOf hE
  intro file hfile
  apply Ensures.bind (hollow_writeAt h offset _) fun _ => Ensures.ret fun _ hw => hw
  exact hguard.imp_right fun hall => hall file hfile

omit h in
/-- What is read through a descriptor is part of the file behind it. -/
theorem reads_of_readAt {fd : Fd} {offset len : Nat} {w w' : World} {data : Bytes}
    (hrun : fd.readAt offset len w = .ok data w') :
    ∃ src, fd.Reads w src ∧ data = readAt src offset len := by
  unfold Fd.readAt at hrun
  unfold Fd.Reads
  cases hb : fd.backing with
  | host ino =>
    simp only [hb] at hrun
    unfold readHost FileSystem.readIno at hrun
    cases hinode : w.host.inodes.lookup ino with
    | none => simp [hinode] at hrun
    | some inode =>
      cases hc : inode.content with
      | file src =>
        simp only [hinode, hc] at hrun
        cases hrun
        exact ⟨src, ⟨inode, hinode, hc⟩, rfl⟩
      | dir | symlink target => simp [hinode, hc] at hrun
  | object path =>
    simp only [hb] at hrun
    unfold onObjects at hrun
    cases hlook : w.daemon.storage.objects.lookup path with
    | none => simp [hlook] at hrun
    | some src =>
      simp only [hlook] at hrun
      cases hrun
      exact ⟨src, hlook, rfl⟩

omit h in
theorem ensures_readAt_reads (fd : Fd) (offset len : Nat) :
    Ensures (Unserved w₀) (fd.readAt offset len)
      (fun data w => Unserved w₀ w ∧ ∃ src, fd.Reads w₀ src ∧ data = readAt src offset len)
      (Unserved w₀) := by
  rintro w ⟨faults, rfl⟩
  have hkeep : Keeps (Unserved w₀) (fd.readAt offset len) := keeps_readAt fd offset len
  have key := hkeep { w₀ with faults } ⟨faults, rfl⟩
  cases hrun : fd.readAt offset len { w₀ with faults } with
  | error err w' =>
    rw [hrun] at key
    exact key
  | ok data w' =>
    rw [hrun] at key
    have hreads : ∃ src, fd.Reads { w₀ with faults } src ∧ data = readAt src offset len :=
      reads_of_readAt hrun
    exact ⟨key, hreads⟩

theorem hollow_copyFileRange (inoIn fhIn : UInt64) (offsetIn : Nat) (inoOut fhOut : UInt64)
    (offsetOut len : Nat)
    (hguard : PutsNoByte pol w₀ (env, .copyFileRange inoIn fhIn offsetIn inoOut fhOut offsetOut len)) :
    Ensures (Unserved w₀) (copyFileRange inoIn fhIn offsetIn inoOut fhOut offsetOut len)
      (fun _ => AllHollow) AllHollow := by
  have hE : ∀ w, Unserved w₀ w → AllHollow w := fun w hw => h.unserved hw
  apply Ensures.unserved hE (keeps_pathOf inoIn)
  intro _
  apply Ensures.unserved hE (keeps_pathOf inoOut)
  intro _
  apply Ensures.unserved hE (keeps_connectDaemon (steady_unserved w₀))
  intro _
  apply unserved_openFileOf hE
  intro input hinput
  apply Ensures.bind ((ensures_readAt_reads input.file offsetIn len).weaken (fun _ hw => hw)
    (fun _ _ hw => hw) hE)
  intro data
  apply Ensures.of_fact
  rintro ⟨src, hreads, rfl⟩
  apply unserved_openFileOf hE
  intro output houtput
  apply Ensures.bind (hollow_writeAt h offsetOut _) fun _ => Ensures.ret fun _ hw => hw
  exact hguard input output src hinput hreads houtput

theorem hollow_setLen {fd : Fd} {size : UInt64} (hguard : size = 0 ∨ ¬ w₀.WritesShown fd) :
    Ensures (Unserved w₀) (fd.setLen size.toNat) (fun _ => AllHollow) AllHollow := by
  have hE : ∀ w, Unserved w₀ w → AllHollow w := fun w hw => h.unserved hw
  unfold Fd.setLen
  by_cases hwritable : fd.writable = false
  · rw [if_pos hwritable]
    exact Ensures.fail hE
  · rw [if_neg hwritable]
    cases hb : fd.backing with
    | host ino =>
      exact (keeps_changeHost daemonOnly_allHollow.hosts _).weaken hE (fun _ _ hw => hw)
        fun _ hw => hw
    | object path =>
      apply hollow_modifyObject h
      rcases hguard with hzero | hshown
      · refine Or.inl fun old => ?_
        rw [hzero]
        show setLen old 0 = []
        simp [setLen]
      · refine Or.inr fun p e id he hid heq => ?_
        rw [heq] at hb
        exact hshown ⟨Bool.eq_true_of_not_eq_false hwritable, p, e, id, he, hid, hb⟩

/-- The metadata is written back with another size only where there is no object. -/
theorem hollow_setattrMeta (path : FsPath) (mode uid gid : Option UInt32) (size : Option UInt64)
    (hguard : ∀ sz, size = some sz → sz = 0 ∨ (w₀.entry path).bind (·.objectId) = none) :
    Ensures (Unserved w₀) (setattrMeta env path mode uid gid size) (fun _ => AllHollow)
      AllHollow := by
  have hE : ∀ w, Unserved w₀ w → AllHollow w := fun w hw => h.unserved hw
  apply Ensures.bind ((ensures_getFileMeta env (steady_unserved w₀) path).weaken (fun _ hw => hw)
    (fun _ _ hw => hw) hE)
  intro result
  cases result with
  | error err => exact Ensures.ret fun w hw => hE w hw.1
  | ok found =>
    cases found with
    | none => exact Ensures.ret fun w hw => hE w hw.1
    | some md =>
      apply Ensures.ignore
      apply Ensures.bind (Q := fun _ => AllHollow) _ fun _ => keeps_take
      apply ensures_sendRequest env
      · rintro w faults ⟨⟨_, rfl⟩, hfound⟩
        exact ⟨⟨faults, rfl⟩, hfound⟩
      · rintro w ⟨⟨faults, rfl⟩, hfound⟩
        obtain ⟨e, he, rfl⟩ := hfound md rfl
        show AllHollow { w₀ with faults, daemon := (w₀.daemon.putFileMeta path _).2 }
        have hentry : w₀.entry path = some e := he
        have hlook : w₀.daemon.state.fuseMap.lookup path = some e := he
        unfold Server.putFileMeta
        rw [hlook]
        refine EveryEntry.insert h path fun id hid => ?_
        obtain ⟨hsize, hempty⟩ := h path e he id hid
        refine ⟨?_, hempty⟩
        cases size with
        | none => exact hsize
        | some sz =>
          rcases hguard sz rfl with hzero | hnone
          · exact hzero
          · rw [hentry] at hnone
            exact absurd (hid.symm.trans hnone) (Option.some_ne_none id)
      · exact fun w hw => hE w hw.1

theorem hollow_setattr (ino : UInt64) (mode uid gid : Option UInt32) (size fh : Option UInt64)
    (hguard : PutsNoByte pol w₀ (env, .setattr ino mode uid gid size fh)) :
    Ensures (Unserved w₀) (setattr pol env ino mode uid gid size fh) (fun _ => AllHollow)
      AllHollow := by
  have hE : ∀ w, Unserved w₀ w → AllHollow w := fun w hw => h.unserved hw
  have hkeep : ∀ {m : FuseM Unit}, Keeps AllHollow m →
      Ensures (Unserved w₀) m (fun _ => AllHollow) AllHollow :=
    fun hm => hm.weaken hE (fun _ _ hw => hw) fun _ hw => hw
  apply unserved_pathOf hE
  intro path hpath
  apply Ensures.unserved hE (keeps_connectDaemon (steady_unserved w₀))
  intro _
  apply Ensures.bind (Q := fun file w => Unserved w₀ w ∧
    file = fh.bind fun fh => w₀.openFiles.lookup fh)
  · rintro w ⟨faults, rfl⟩
    exact ⟨⟨faults, rfl⟩, rfl⟩
  intro file
  apply Ensures.of_fact
  intro hfile
  apply Ensures.bind (Q := fun _ => AllHollow) _ fun _ =>
    keeps_attrReply pol env edits_allHollow.faults daemonOnly_allHollow.tables path
  cases hf : file with
  | some file' =>
    have hfh : fh.isSome = true := by
      cases fh with
      | none =>
        rw [hf] at hfile
        cases hfile
      | some _ => rfl
    have hdecide : decideSetattr (loadSetattrState pol path fh.isSome (some file').isSome
        mode uid gid size) = .updateOpenHandle := by
      unfold decideSetattr loadSetattrState
      simp [hfh]
    rw [hdecide]
    show Ensures _ (setattrOpenHandle file'.file mode uid gid size) _ _
    apply Ensures.bind (Q := fun _ => AllHollow) _ fun _ =>
      keeps_setattrPerm daemonOnly_allHollow.hosts _ _ _ _
    cases size with
    | none => exact Ensures.ret hE
    | some sz =>
      apply hollow_setLen h
      unfold PutsNoByte at hguard
      dsimp only at hguard
      rw [← hfile, hf] at hguard
      exact hguard
  | none =>
    unfold decideSetattr loadSetattrState
    rw [if_neg (by simp)]
    have hmeta : pol.classify path ≠ .passthrough → Ensures (Unserved w₀)
        (setattrMeta env path mode uid gid size) (fun _ => AllHollow) AllHollow := by
      intro hmode
      apply hollow_setattrMeta h
      intro sz hsz
      subst hsz
      unfold PutsNoByte at hguard
      dsimp only at hguard
      rw [← hfile, hf] at hguard
      exact hguard.imp_right fun hall => hall path hpath hmode
    cases hmode : pol.classify path with
    | passthrough => exact hkeep (keeps_setattrReal env daemonOnly_allHollow.hosts _ _ _ _ _)
    | fuseOnly | copyOnWrite => exact hmeta (by rw [hmode]; exact AccessMode.noConfusion)

omit h in
/-- Work on the object files that only empties them. -/
theorem keeps_onObjects_emptier {host : FileSystem} {α : Type}
    {f : FMap ObjectPath Bytes → Except Errno (α × FMap ObjectPath Bytes)}
    (hf : ∀ objects a objects', f objects = .ok (a, objects') → Emptier objects objects') :
    Keeps (fun w => AllHollow w ∧ w.host = host) (onObjects f) := by
  rintro w ⟨hw, hhost⟩
  unfold onObjects
  cases hres : f w.daemon.storage.objects with
  | error errno => exact ⟨hw, hhost⟩
  | ok r =>
    refine ⟨hw.setObjects fun p e id _ _ data hdata => ?_, hhost⟩
    exact hf _ r.1 r.2 hres _ data hdata

omit h in
theorem hollow_openObject {host : FileSystem} (opts : OpenOptions) (path : ObjectPath) :
    Keeps (fun w => AllHollow w ∧ w.host = host) (openObject opts path) := by
  apply Keeps.bind _ fun _ => Keeps.ret
  apply keeps_onObjects_emptier
  intro objects a objects' hres
  split at hres
  · cases hres
  · split at hres
    · cases hres
      exact Emptier.refl
    · split at hres
      · cases hres
        exact Emptier.insert_nil _
      · cases hres

omit h in
theorem edits_allHollow_host (host : FileSystem) :
    Edits fun w => AllHollow w ∧ w.host = host where
  faults _ _ hw := hw
  dispatch w denv req hreq hw := ⟨edits_allHollow.dispatch w denv req hreq hw.1, hw.2⟩

omit h in
/-- A message that publishes an object. -/
theorem hollow_ensure {host : FileSystem} {req : Request}
    (hreq : ∀ w : World, AllHollow w → w.host = host → AllHollow
      { w with daemon := (dispatch (env.dispatchEnv w.host) w.daemon req).2 }) :
    Keeps (fun w => AllHollow w ∧ w.host = host) (call env req takeObject) := by
  apply Keeps.bind _ fun _ => keeps_take
  apply ensures_sendRequest env
  · exact fun w faults hw => hw
  · exact fun w hw => ⟨hreq w hw.1 hw.2, hw.2⟩
  · exact fun _ hw => hw

omit h in
theorem hollow_ensureFileObject {host : FileSystem} (path : FsPath) {md : FileMetadata}
    (hmd : md.size = 0) :
    Keeps (fun w => AllHollow w ∧ w.host = host) (Client.ensureFileObject env path md) := by
  apply hollow_ensure
  intro w hw _
  exact hollow_ensureObject hw path hmd (fun d hd => (Option.some.inj hd).symm)
    (ObjectStore.allocates_put _ _ []) (emptier_allocEmpty _ _)

omit h in
theorem hollow_ensureFileObjectFromReal {host : FileSystem} (path : FsPath) {md : FileMetadata}
    (hmd : md.size = 0) (hsource : ∀ data, host.readFile path = .ok data → data = []) :
    Keeps (fun w => AllHollow w ∧ w.host = host)
      (Client.ensureFileObjectFromReal env path md) := by
  apply hollow_ensure
  intro w hw hhost
  have hreal : ∀ data, (env.dispatchEnv w.host).real path = .ok data → data = [] := by
    intro data hdata
    apply hsource
    rw [← hhost]
    have hmap : (w.host.readFile path).mapError (fun _ => "os error") = .ok data := hdata
    cases hread : w.host.readFile path with
    | error errno =>
      rw [hread] at hmap
      cases hmap
    | ok bytes =>
      rw [hread] at hmap
      cases hmap
      rfl
  refine hollow_ensureObject hw path hmd (fun d hd => ?_)
    (ObjectStore.allocates_putCopyFrom _ _ _) (emptier_putCopyFrom _ _ hreal)
  cases hsrc : (env.dispatchEnv w.host).real path with
  | error err =>
    rw [hsrc] at hd
    cases hd
  | ok bytes =>
    rw [hsrc] at hd
    cases hd
    exact hreal _ hsrc

omit h in
theorem hollow_create (parent : UInt64) (name : Component) (mode : UInt32) (flags : OpenFlags) :
    Keeps AllHollow (create pol env parent name mode flags) := by
  apply Keeps.bind (keeps_getPath parent name)
  intro path
  apply Keeps.bind (keeps_connectDaemon edits_allHollow.faults)
  intro _
  apply Keeps.bind _ fun file =>
    keeps_afterCreate pol env edits_allHollow.faults daemonOnly_allHollow.tables file path mode
  cases decideCreate (loadCreateState pol path) with
  | createReal =>
    exact Keeps.bind (Keeps.bind (keeps_onHost daemonOnly_allHollow.hosts _) fun _ => Keeps.ret)
      fun _ => Keeps.ret
  | createObject =>
    intro w hw
    have key : Keeps (fun w' => AllHollow w' ∧ w'.host = w.host) (executeCreate env .createObject
        path mode flags (fileMetaNow env 0 (S_IFREG ||| (mode &&& 0o7777)) env.uid env.gid)) := by
      apply Keeps.bind (hollow_ensureFileObject path rfl)
      intro object
      apply Keeps.bind (keeps_edit env (edits_allHollow_host _) _ _ (by trivial)).ignore
      exact fun _ => Keeps.bind (hollow_openObject _ _) fun _ => Keeps.ret
    exact (key.weaken (fun _ hw => hw) (fun _ _ hw => hw.1) fun _ hw => hw.1) w ⟨hw, rfl⟩

omit h in
/-- When an open copies up. -/
theorem copyUp_of_decideOpen {state : OpenState} {id : Option UInt64} {needsEnsure delete : Bool}
    (hdecide : decideOpen state = .openObject id needsEnsure true delete) :
    state.accessMode = .copyOnWrite ∧ state.needWrite = true ∧ state.truncateRequested = false ∧
      isWhiteoutEntry state.fuseEntry = false ∧ state.fuseEntry.bind (·.objectId) = none ∧
      state.realExists = true := by
  unfold decideOpen computeOpenBehavior at hdecide
  cases hwhite : isWhiteoutEntry state.fuseEntry with
  | true => simp [hwhite] at hdecide
  | false =>
    cases hmode : state.accessMode with
    | passthrough | fuseOnly => simp [hwhite, hmode] at hdecide
    | copyOnWrite =>
      cases hwrite : state.needWrite with
      | false =>
        cases hid : state.fuseEntry.bind (·.objectId) <;> cases hpath : state.objectPath.isSome <;>
          simp [hwhite, hmode, hwrite, hid, hpath] at hdecide
      | true =>
        simp only [hwhite, hmode, hwrite, Bool.false_eq_true, if_false, reduceCtorEq] at hdecide
        obtain ⟨-, -, hcopy, -⟩ := OpenDecision.openObject.inj hdecide
        obtain ⟨⟨hid, htrunc⟩, hreal⟩ : (state.fuseEntry.bind (·.objectId) = none ∧
            state.truncateRequested = false) ∧ state.realExists = true := by simpa using hcopy
        exact ⟨rfl, rfl, htrunc, rfl, hid, hreal⟩

theorem hollow_open (ino : UInt64) (flags : OpenFlags)
    (hguard : PutsNoByte pol w₀ (env, .open ino flags)) :
    Ensures (Unserved w₀) («open» pol env ino flags) (fun _ => AllHollow) AllHollow := by
  have hE : ∀ w, Unserved w₀ w → AllHollow w := fun w hw => h.unserved hw
  have hs : Steady (Unserved w₀) := steady_unserved w₀
  apply unserved_pathOf hE
  intro path hpath
  apply Ensures.unserved hE (keeps_reqStart pol env hs _ path)
  intro _
  apply Ensures.unserved hE (keeps_connectDaemon hs)
  intro _
  apply Ensures.bind (Q := fun state w => Unserved w₀ w ∧ state.accessMode = pol.classify path ∧
    state.needWrite = flags.needWrite ∧ state.truncateRequested = flags.trunc ∧
    state.fuseEntry = w₀.entry path ∧ state.realExists = w₀.host.exists path)
  · apply unserved_getEntry env hE
    apply Ensures.unserved hE (keeps_loadObjectPath env hs _)
    intro objectPath
    apply unserved_peekHost
    exact Ensures.ret fun w hw => ⟨hw, rfl, rfl, rfl, rfl, rfl⟩
  intro state
  apply Ensures.of_fact
  rintro ⟨hmode, hwrite, htrunc, hentry, hreal⟩
  apply Ensures.bind (Q := fun _ => AllHollow) _ fun file =>
    Keeps.bind (keeps_addOpenFile daemonOnly_allHollow.tables file) fun _ => Keeps.ret
  cases hdecide : decideOpen state with
  | notFound | error => exact Ensures.fail hE
  | openReal =>
    exact (Keeps.bind (keeps_openHost env rfl) fun _ => Keeps.ret).weaken hE (fun _ _ hw => hw)
      fun _ hw => hw
  | openObject id needsEnsure copyUp delete =>
    have hsource : copyUp = true → ∀ data, w₀.host.readFile path = .ok data → data = [] := by
      intro hcopy
      rw [hcopy] at hdecide
      obtain ⟨h1, h2, h3, h4, h5, h6⟩ := copyUp_of_decideOpen hdecide
      rw [hmode] at h1
      rw [hwrite] at h2
      rw [htrunc] at h3
      rw [hentry] at h4 h5
      rw [hreal] at h6
      exact hguard path hpath ⟨h1, h2, h3, h4, h5, h6⟩
    have key : Keeps (fun w => AllHollow w ∧ w.host = w₀.host)
        (executeOpen env (.openObject id needsEnsure copyUp delete) path flags
          (fileMetaNow env 0 (S_IFREG ||| 0o644) env.uid env.gid)) := by
      apply Keeps.bind
      · unfold objectForOpen
        cases needsEnsure with
        | true =>
          cases copyUp with
          | true => exact hollow_ensureFileObjectFromReal path rfl (hsource rfl)
          | false => exact hollow_ensureFileObject path rfl
        | false =>
          cases id with
          | none => exact Keeps.fail
          | some oid =>
            exact Keeps.bind (keeps_getObjectPath env (fun _ _ hw => hw) oid) fun _ => Keeps.ret
      · intro object
        apply Keeps.bind
        · cases copyUp with
          | false => exact Keeps.ret
          | true =>
            apply Keeps.ignore
            -- the client copies the same empty file once more
            apply Ensures.bind (Q := fun data w => (AllHollow w ∧ w.host = w₀.host) ∧ data = [])
            · intro w hw
              cases hread : w.host.readFile path with
              | error errno =>
                rw [readHost_error hread]
                exact hw
              | ok data =>
                rw [readHost_ok hread]
                rw [hw.2] at hread
                exact ⟨hw, hsource rfl data hread⟩
            · intro data
              apply Ensures.of_fact
              rintro rfl
              apply keeps_onObjects_emptier
              intro objects a objects' hres
              cases hres
              exact Emptier.insert_nil _
        · intro _
          apply Keeps.bind (keeps_edit env (edits_allHollow_host _) _ _ (by trivial)).ignore.onlyIf
          exact fun _ => Keeps.bind (hollow_openObject _ _) fun _ => Keeps.ret
    apply key.weaken _ (fun _ _ hw => hw.1) fun _ hw => hw.1
    rintro w ⟨faults, rfl⟩
    exact ⟨h, rfl⟩

/-- **One request** that puts no byte. -/
theorem allHollow_serveFuse (req : FuseRequest) (hguard : PutsNoByte pol w₀ (env, req)) :
    AllHollow (serveFuse pol env w₀ req).2 := by
  have hhandle : Ensures (Unserved w₀) (handle pol env req) (fun _ => AllHollow) AllHollow := by
    cases req with
    | setattr ino mode uid gid size fh => exact hollow_setattr h ino mode uid gid size fh hguard
    | «open» ino flags => exact hollow_open h ino flags hguard
    | create parent name mode flags =>
      exact (hollow_create parent name mode flags).weaken (fun w hw => h.unserved hw)
        (fun _ _ hw => hw) fun _ hw => hw
    | write ino fh offset data => exact hollow_write h ino fh offset data hguard
    | copyFileRange inoIn fhIn offsetIn inoOut fhOut offsetOut len =>
      exact hollow_copyFileRange h inoIn fhIn offsetIn inoOut fhOut offsetOut len hguard
    | _ =>
      exact (keeps_handle_entries pol env daemonOnly_allHollow.tables daemonOnly_allHollow.hosts
        edits_allHollow id).weaken (fun w hw => h.unserved hw) (fun _ _ hw => hw) fun _ hw => hw
  rw [serveFuse_world]
  exact hhandle.endState ⟨env.faults, rfl⟩

end Operations

/-! ## §5. Runs. -/

theorem allHollow_init (host : FileSystem) (shmName : String) :
    AllHollow (World.mount host (Server.init shmName)) := by
  intro p e he
  have hnone : (World.mount host (Server.init shmName)).daemon.state.fuseMap.lookup p = none :=
    Finmap.lookup_empty p
  rw [hnone] at he
  cases he

/-- **Stat replies the length of the object**, in every state of every run whose steps put no byte
into an object that an entry shows. -/
theorem sizesAgree_run (pol : Policy) (host : FileSystem) (shmName : String)
    {xs : List (Env × FuseRequest)}
    (h : StepsMeet (serveStep pol) (PutsNoByte pol) (World.mount host (Server.init shmName)) xs) :
    AlwaysOn (serveStep pol) (SizesAgree pol) (World.mount host (Server.init shmName)) xs := by
  have hstep : ∀ w x w', AllHollow w → PutsNoByte pol w x → serveStep pol w x = some w' →
      AllHollow w' := by
    intro w x w' hw hguard hstep
    cases hstep
    exact allHollow_serveFuse hw x.2 hguard
  have hall := steps_of_guarded hstep (allHollow_init host shmName) h
  exact fun pre hpre t ht => (hall pre hpre t ht).sizesAgree pol

def writeA (data : Bytes) : Env × FuseRequest := (Env.quiet, .write 2 1 0 data)

/-- Create, an empty write, a truncation to zero through the handle, and a rename. -/
theorem sizesAgree_empty_file :
    AlwaysOn (serveStep allCopyOnWrite) (SizesAgree allCopyOnWrite)
      (World.mount emptyRoot (Server.init "s"))
      [createA, writeA [], (Env.quiet, .setattr 2 none none none (some 0) (some 1)), renameAB] := by
  apply sizesAgree_run
  exact ⟨trivial, fun _ _ => ⟨Or.inl rfl, fun _ _ => ⟨Or.inl rfl, fun _ _ =>
    ⟨trivial, fun _ _ => trivial⟩⟩⟩⟩

/-- After `create /a` and a write of one byte. -/
def wroteA : World :=
  (serveFuse allCopyOnWrite Env.quiet (serveFuse allCopyOnWrite Env.quiet
    (World.mount emptyRoot (Server.init "s")) createA.2).2 (writeA [1]).2).2

/-- Stat of the file replies size zero. -/
theorem not_sizesAgree_write :
    ¬ ∀ (pol : Policy) (host : FileSystem) (shmName : String) (xs : List (Env × FuseRequest)),
      AlwaysOn (serveStep pol) (SizesAgree pol) (World.mount host (Server.init shmName)) xs := by
  intro h
  have hend : SizesAgree allCopyOnWrite wroteA :=
    h allCopyOnWrite emptyRoot "s" [createA, writeA [1]] _ List.prefix_rfl _ rfl
  have hreply : outcome (statPath allCopyOnWrite Env.quiet [.a] { wroteA with faults := [] })
      = .ok (.regularFile, ⟨2, 0, .regularFile, 0o644, 0, 0⟩) := by decide
  obtain ⟨kind, attr, hstat, hsize⟩ := hend [.a]
    (.ofObject (fileMetaNow Env.quiet 0 (S_IFREG ||| 0o644) 0 0) 1) 1 [1] nofun (by decide) rfl rfl
    (by decide) Env.quiet
  cases hstat.symm.trans hreply
  cases hsize

end Cas.Fuse
