/-
  Cas.Fuse.Readdir — the listing of a directory and what readdir replies
  of it.

  Every call numbers the visible children in name order behind `.` and
  `..`; the reply is what the loop puts of that from the offset on.
-/
import Cas.Fuse.Listing
import Cas.Fuse.View

namespace Cas.Fuse

open Cas.Lib Cas.Host Cas.Syncing

/-- The state that a listing of `dir` loads. -/
def readdirState (pol : Policy) (w : World) (dir : FsPath) : ReaddirState where
  accessMode := pol.classify dir
  children := (w.daemon.readDirAll dir).foldl addFuseChild (realChildren w.host dir)

/-- An entry of a listing, before it has a position. -/
abbrev Listed := UInt64 × FileType × Bytes

/-- Give every child its inode number. -/
def numberChildren (t : InodeTable) : List (Name × FileType × FsPath) → List Listed × InodeTable
  | [] => ([], t)
  | (name, kind, full) :: rest =>
    let r := t.getOrInsert full
    let s := numberChildren r.2 rest
    ((r.1, kind, name.bytes) :: s.1, s.2)

theorem childEntries_run (children : List (Name × FileType × FsPath)) :
    ∀ w : World, childEntries children w = .ok (numberChildren w.inodes children).1
      { w with inodes := (numberChildren w.inodes children).2 } := by
  induction children with
  | nil => exact fun w => rfl
  | cons child rest ih =>
    intro w
    obtain ⟨name, kind, full⟩ := child
    have hino : getOrInsert full w = .ok (w.inodes.getOrInsert full).1
        { w with inodes := (w.inodes.getOrInsert full).2 } := rfl
    show (getOrInsert full >>= fun ino => childEntries rest >>= fun entries =>
        pure ((ino, kind, name.bytes) :: entries) : FuseM _) w = _
    rw [run_bind_ok hino, run_bind_ok (ih _)]
    rfl

theorem snd_numberChildren (children : List (Name × FileType × FsPath)) :
    ∀ t : InodeTable, (numberChildren t children).1.map Prod.snd
      = children.map fun child => (child.2.1, child.1.bytes) := by
  induction children with
  | nil => exact fun t => rfl
  | cons child rest ih =>
    intro t
    obtain ⟨name, kind, full⟩ := child
    show (kind, name.bytes) :: ((numberChildren _ rest).1.map Prod.snd) = _
    rw [ih]
    rfl

/-- What `readdir` lists for an inode: itself, its parent, and the visible children in order. -/
def listing (pol : Policy) (w : World) (ino : UInt64) : Option (List Listed) :=
  (w.inodes.getPath ino).map fun dir =>
    let parent := w.inodes.getOrInsert (dir.parent.getD [])
    (ino, .directory, [46]) :: (parent.1, .directory, [46, 46]) ::
      (numberChildren parent.2 (visibleChildren (readdirState pol w dir))).1

section Listing

variable {pol : Policy} {env : Env} {w : World} {ino : UInt64} {l : List Listed}

/-- **readdir** replies with what its loop puts of the listing. -/
theorem serveFuse_readdir (hq : env.faults = []) (h : listing pol w ino = some l)
    (offset capacity : Nat) : (serveFuse pol env w (.readdir ino offset capacity)).1
      = .directory (fillReply capacity offset (l.drop offset)) := by
  obtain ⟨dir, hdir, rfl⟩ := Option.map_eq_some_iff.mp h
  rw [serveFuse_reply]
  have hpath : pathOf ino { w with faults := env.faults }
      = .ok dir { w with faults := env.faults } := pathOf_ok hdir
  have hread : Client.readDirAll env dir { w with faults := env.faults }
      = .ok (w.daemon.readDirAll dir) { w with faults := env.faults } := by
    unfold Client.readDirAll call
    rw [run_bind_ok (sendRequest_quiet (w := { w with faults := env.faults }) hq _)]
    rfl
  have hload : loadReaddirState pol env dir { w with faults := env.faults }
      = .ok (readdirState pol w dir) { w with faults := env.faults } := by
    unfold loadReaddirState
    rw [run_bind_ok (peekHost_eq _ _), run_bind_ok hread]
    rfl
  have hparent : getOrInsert (dir.parent.getD []) { w with faults := env.faults }
      = .ok (w.inodes.getOrInsert (dir.parent.getD [])).1 { w with faults := env.faults
                                                                   inodes := (w.inodes.getOrInsert
          (dir.parent.getD [])).2 } := rfl
  have hrun : outcome (readdir pol env ino offset capacity { w with faults := env.faults })
      = .ok (.directory (fillReply capacity offset (((ino, .directory, [46]) ::
        ((w.inodes.getOrInsert (dir.parent.getD [])).1, .directory, [46, 46]) ::
        (numberChildren (w.inodes.getOrInsert (dir.parent.getD [])).2
          (visibleChildren (readdirState pol w dir))).1).drop offset))) := by
    unfold readdir
    rw [run_bind_ok hpath, run_bind_ok (connectDaemon_quiet hq), run_bind_ok hload,
      validateReaddirDecision_decideReaddir]
    show outcome ((getOrInsert (dir.parent.getD []) >>= fun parentIno =>
      childEntries (visibleChildren (readdirState pol w dir)) >>= fun children => pure _
        : FuseM Reply) _) = _
    rw [run_bind_ok hparent, run_bind_ok (childEntries_run _ _)]
    rfl
  show replyOf (outcome (readdir pol env ino offset capacity { w with faults := env.faults })) = _
  rw [hrun]
  rfl

end Listing

/-- With room for it, the entry at the offset of the request is in the reply. -/
theorem fillReply_at {l : List (UInt64 × FileType × Bytes)} {i : Nat} {ino : UInt64}
    {kind : FileType} {name : Bytes} (h : l[i]? = some (ino, kind, name)) :
    fillReply (direntSize name) i (l.drop i) = [{ ino, offset := i + 1, kind, name }] := by
  obtain ⟨hi, hget⟩ := List.getElem?_eq_some_iff.mp h
  rw [List.drop_eq_getElem_cons hi, hget]
  unfold fillReply
  rw [if_neg (Nat.lt_irrefl _)]

end Cas.Fuse
