/-
  Cas.Fuse.Decision — the access policy, the states the FUSE daemon loads
  for one request, and what it decides from them (`fuse/policy.rs`,
  `fuse/state.rs`, `fuse/decision.rs`, `error.rs`).

  A decision is a function of the loaded state alone: no file system, no
  socket.
-/
import Cas.Host.Resolve
import Cas.Syncing.Proto

namespace Cas.Fuse

open Cas.Lib Cas.Host Cas.Syncing

/-! ## §1. Policy and errors. -/

/-- How the FUSE layer handles reads and writes for a given path. -/
inductive AccessMode
  | passthrough
  | fuseOnly
  | copyOnWrite
  deriving DecidableEq

structure Policy where
  classify : FsPath → AccessMode
  shouldLog : FsPath → Bool

/-- `ClientError`; an I/O error may come without an error number. -/
inductive ClientError
  | io (errno : Option Errno)
  | serialize
  | server (msg : String)
  | notFound
  deriving DecidableEq

inductive Error
  | syncingClient (err : ClientError)
  | io (errno : Option Errno)
  deriving DecidableEq

/-- `io::Error::from_raw_os_error`. -/
def Error.ofErrno (errno : Errno) : Error := .io (some errno)

def errToErrno : Error → Errno
  | .io errno => errno.getD .eio
  | .syncingClient .notFound => .enoent
  | .syncingClient (.io errno) => errno.getD .eio
  | .syncingClient .serialize => .eio
  | .syncingClient (.server _) => .eio

inductive FileType
  | directory
  | symlink
  | regularFile
  deriving DecidableEq

def FileType.ofKind : Kind → FileType
  | .dir => .directory
  | .symlink _ => .symlink
  | .file => .regularFile

/-! ## §2. Loaded states. -/

structure StatState where
  accessMode : AccessMode
  realExists : Bool
  fuseEntry : Option FuseEntry

structure RealChild where
  kind : FileType
  path : FsPath
  deriving DecidableEq

structure FuseChild where
  entryType : EntryType
  path : FsPath
  deriving DecidableEq

structure ReaddirChildState where
  real : Option RealChild
  fuse : Option FuseChild
  deriving DecidableEq

structure ReaddirState where
  accessMode : AccessMode
  children : FMap Name ReaddirChildState

structure OpenState where
  accessMode : AccessMode
  path : FsPath
  needWrite : Bool
  truncateRequested : Bool
  realExists : Bool
  fuseEntry : Option FuseEntry
  objectPath : Option ObjectPath

structure CreateState where
  accessMode : AccessMode
  path : FsPath

structure UnlinkState where
  accessMode : AccessMode
  path : FsPath

structure RmdirState where
  accessMode : AccessMode
  path : FsPath

structure RenameState where
  accessMode : AccessMode
  src : FsPath
  dst : FsPath
  srcEntry : Option FuseEntry

structure SetattrState where
  accessMode : AccessMode
  path : FsPath
  fhPresent : Bool
  hasOpenHandle : Bool
  mode : Option UInt32
  uid : Option UInt32
  gid : Option UInt32
  size : Option UInt64

structure ReadlinkState where
  accessMode : AccessMode
  path : FsPath
  fuseEntry : Option FuseEntry

structure MkdirState where
  accessMode : AccessMode
  path : FsPath

/-! ## §3. Decisions. -/

inductive StatDecision
  | useReal
  | useFuse
  | notFound
  deriving DecidableEq

def decideStat (state : StatState) : StatDecision :=
  match state.accessMode with
  | .passthrough => if state.realExists then .useReal else .notFound
  | .fuseOnly =>
    match state.fuseEntry with
    | some entry => if entry.entryType ≠ .whiteout then .useFuse else .notFound
    | none => .notFound
  | .copyOnWrite =>
    match state.fuseEntry with
    | some entry => if entry.entryType = .whiteout then .notFound else .useFuse
    | none => if state.realExists then .useReal else .notFound

inductive OpenDecision
  | notFound
  | error
  | openReal
  | openObject (existingObjectId : Option UInt64) (needsEnsure copyUpFromReal deleteWhiteout : Bool)
  deriving DecidableEq

inductive OpenTransitionStep
  | rejectWhiteout
  | openReal
  | ensureObject
  | copyUpFromReal
  | deleteWhiteout
  | openObject
  | errorMissingObjectPath
  deriving DecidableEq

def isWhiteoutEntry (entry : Option FuseEntry) : Bool :=
  (entry.map fun e => decide (e.entryType = .whiteout)).getD false

/-- The decision and the steps that carry it out, in order. -/
def computeOpenBehavior (state : OpenState) : OpenDecision × List OpenTransitionStep :=
  if isWhiteoutEntry state.fuseEntry then (.notFound, [.rejectWhiteout])
  else
    let objectId := state.fuseEntry.bind (·.objectId)
    let hasObjectPath := state.objectPath.isSome
    let needsEnsure := objectId.isNone || !hasObjectPath
    let ensureSteps := if needsEnsure then [OpenTransitionStep.ensureObject] else []
    match state.accessMode with
    | .passthrough => (.openReal, [.openReal])
    | .fuseOnly => (.openObject objectId needsEnsure false false, ensureSteps ++ [.openObject])
    | .copyOnWrite =>
      if state.needWrite = false then
        match objectId, hasObjectPath with
        | some id, true => (.openObject (some id) false false false, [.openObject])
        | some _, false => (.error, [.errorMissingObjectPath])
        | none, _ => (.openReal, [.openReal])
      else
        let hadObject := objectId.isSome
        let copyUpFromReal := !hadObject && !state.truncateRequested && state.realExists
        let copySteps := if copyUpFromReal then [OpenTransitionStep.copyUpFromReal] else []
        (.openObject objectId needsEnsure copyUpFromReal true,
          ensureSteps ++ copySteps ++ [.deleteWhiteout, .openObject])

def decideOpen (state : OpenState) : OpenDecision := (computeOpenBehavior state).1

inductive CreateDecision
  | createReal
  | createObject
  deriving DecidableEq

def decideCreate (state : CreateState) : CreateDecision :=
  match state.accessMode with
  | .passthrough => .createReal
  | .fuseOnly | .copyOnWrite => .createObject

inductive UnlinkDecision
  | removeReal
  | whiteout
  deriving DecidableEq

def decideUnlink (state : UnlinkState) : UnlinkDecision :=
  match state.accessMode with
  | .passthrough => .removeReal
  | .fuseOnly | .copyOnWrite => .whiteout

inductive RmdirDecision
  | removeReal
  | whiteoutRecursive
  deriving DecidableEq

def decideRmdir (state : RmdirState) : RmdirDecision :=
  match state.accessMode with
  | .passthrough => .removeReal
  | .fuseOnly | .copyOnWrite => .whiteoutRecursive

inductive RenameDecision
  | renameReal
  | renameFuseFileOrSymlink
  | renameFuseTree
  deriving DecidableEq

/-- The mode is that of the source path; the destination's is never looked up. -/
def decideRename (state : RenameState) : RenameDecision :=
  match state.accessMode with
  | .passthrough => .renameReal
  | .fuseOnly | .copyOnWrite =>
    let isDir := (state.srcEntry.map fun e => decide (e.entryType = .dir)).getD false
    if isDir then .renameFuseTree else .renameFuseFileOrSymlink

inductive SetattrDecision
  | updateOpenHandle
  | updateRealFs
  | updateDaemonMeta
  deriving DecidableEq

def decideSetattr (state : SetattrState) : SetattrDecision :=
  if state.fhPresent && state.hasOpenHandle then .updateOpenHandle
  else
    match state.accessMode with
    | .passthrough => .updateRealFs
    | .fuseOnly | .copyOnWrite => .updateDaemonMeta

inductive ReadlinkDecision
  | useFuse
  | useReal
  | notFound
  deriving DecidableEq

def decideReadlink (state : ReadlinkState) : ReadlinkDecision :=
  match state.accessMode with
  | .passthrough => .useReal
  | .fuseOnly =>
    match state.fuseEntry.map FuseEntry.entryType with
    | some .symlink => .useFuse
    | _ => .notFound
  | .copyOnWrite =>
    match state.fuseEntry.map FuseEntry.entryType with
    | some .whiteout => .notFound
    | some .symlink => .useFuse
    | _ => .useReal

inductive MkdirDecision
  | createReal
  | createDaemon
  deriving DecidableEq

def decideMkdir (state : MkdirState) : MkdirDecision :=
  match state.accessMode with
  | .passthrough => .createReal
  | .fuseOnly | .copyOnWrite => .createDaemon

/-! ## §4. Directory listings. -/

inductive ChildDecision
  | hide
  | showReal
  | showFuse
  | dontCareCollision
  deriving DecidableEq

def decideChild (mode : AccessMode) (hasReal hasFuse fuseIsWhiteout : Bool) : ChildDecision :=
  if fuseIsWhiteout then .hide
  else
    match mode with
    | .passthrough =>
      match hasReal, hasFuse with
      | false, false => .hide
      | true, false => .showReal
      | false, true => .showFuse
      | true, true => .dontCareCollision
    | .fuseOnly => if hasFuse then .showFuse else .hide
    | .copyOnWrite => if hasFuse then .showFuse else if hasReal then .showReal else .hide

/-- What `decide_readdir` computes for one child. -/
def ReaddirChildState.decide (mode : AccessMode) (child : ReaddirChildState) : ChildDecision :=
  decideChild mode child.real.isSome child.fuse.isSome
    (child.fuse.any fun f => f.entryType == .whiteout)

/-- `ReaddirDecision.per_child`. -/
def decideReaddir (state : ReaddirState) : FMap Name ChildDecision :=
  collect state.children.keys fun name =>
    (state.children.lookup name).map fun child => child.decide state.accessMode

/-- The check of one decision of `validate_readdir_decision`. -/
def validateChild (state : ReaddirState) (name : Name) (decision : ChildDecision) :
    Except Error Unit :=
  match state.children.lookup name with
  | none => .error (.io none)
  | some child =>
    if decision = .showReal ∧ child.real = none then .error (.io none)
    else if decision = .showFuse ∧ child.fuse = none then .error (.io none)
    else .ok ()

def validateReaddirDecision (state : ReaddirState) (perChild : FMap Name ChildDecision) :
    Except Error Unit :=
  (sortedKeys perChild.keys).forM fun name =>
    match perChild.lookup name with
    | none => .ok ()
    | some decision => validateChild state name decision

def FuseChild.shown (f : FuseChild) : Option (FileType × FsPath) :=
  match f.entryType with
  | .dir => some (.directory, f.path)
  | .symlink => some (.symlink, f.path)
  | .file => some (.regularFile, f.path)
  | .whiteout => none

def RealChild.shown (r : RealChild) : FileType × FsPath := (r.kind, r.path)

/-- What a decision shows of a child. -/
def ReaddirChildState.choose (child : ReaddirChildState) : ChildDecision →
    Option (FileType × FsPath)
  | .hide => none
  | .showReal => child.real.map RealChild.shown
  | .showFuse => child.fuse.bind FuseChild.shown
  | .dontCareCollision =>
    match child.real with
    | some real => some real.shown
    | none => child.fuse.bind FuseChild.shown

def chooseVisibleChild (state : ReaddirState) (name : Name) (decision : ChildDecision) :
    Option (FileType × FsPath) :=
  (state.children.lookup name).bind fun child => child.choose decision

/-- Every decision that `decide_readdir` makes passes the check. -/
theorem validateReaddirDecision_decideReaddir (state : ReaddirState) :
    validateReaddirDecision state (decideReaddir state) = .ok () := by
  have hchild : ∀ name, (match (decideReaddir state).lookup name with
      | none => .ok ()
      | some decision => validateChild state name decision) = (.ok () : Except Error Unit) := by
    intro name
    unfold decideReaddir
    rw [lookup_collect]
    by_cases hmem : name ∈ state.children.keys
    · rw [if_pos hmem]
      cases hc : state.children.lookup name with
      | none => rfl
      | some child =>
        show validateChild state name (child.decide state.accessMode) = _
        obtain ⟨real, fuse⟩ := child
        unfold validateChild
        rw [hc]
        unfold ReaddirChildState.decide decideChild
        cases state.accessMode <;> cases real <;> cases fuse <;> simp <;> split <;> simp
    · rw [if_neg hmem]
  unfold validateReaddirDecision
  simp only [hchild]
  induction sortedKeys (decideReaddir state).keys with
  | nil => rfl
  | cons name names ih => exact ih

end Cas.Fuse
