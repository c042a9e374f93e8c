/-
  Cas.Isolate.Setup — from `cas run` to the command (`isolate/*.rs`, the
  setup process of `cli/sandbox.rs`).

  The setup process makes a user and a mount namespace, waits until the
  FUSE daemon has mounted, stacks its mounts, changes root, loads the
  system call filter, drops its capabilities and executes the command.
  Every call it makes may fail; a call that the filter does not allow
  kills it.  What its paths stand for is a `Space` of `Object`s.
-/
import Cas.Lib.Effect
import Cas.Lib.Mounts
import Cas.Paths

namespace Cas.Isolate

open Cas.Lib

/-! ## §1. Names, objects, calls. -/

/-- An error number. -/
abbrev Errno := ℕ

def ascii (s : String) : List UInt8 := s.toList.map fun c => UInt8.ofNat c.toNat

def procName : Name := ⟨ascii "proc", by decide⟩
def devName : Name := ⟨ascii "dev", by decide⟩
def ptsName : Name := ⟨ascii "pts", by decide⟩
def ptmxName : Name := ⟨ascii "ptmx", by decide⟩
def ttyName : Name := ⟨ascii "tty", by decide⟩
def tmpName : Name := ⟨ascii "tmp", by decide⟩

/-- The device nodes of the host that a sandbox sees. -/
def devDevices : List Name :=
  [⟨ascii "null", by decide⟩, ⟨ascii "zero", by decide⟩, ⟨ascii "urandom", by decide⟩,
    ⟨ascii "random", by decide⟩]

/-- The files that they are mounted on, as they are created. -/
def devFiles : List Name :=
  [⟨ascii "null", by decide⟩, ⟨ascii "zero", by decide⟩, ⟨ascii "random", by decide⟩,
    ⟨ascii "urandom", by decide⟩]

/-- The file systems that paths lead to. -/
inductive Source
  | host
  | fuse
  | devpts
  | tmpfs
  deriving DecidableEq

/-- What a path stands for: a path of a file system. -/
structure Object where
  source : Source
  path : FsPath
  deriving DecidableEq

abbrev View := Space Name Object

/-- A file system as a whole. -/
def View.of (source : Source) : View := fun p => ⟨source, p⟩

inductive CapSet
  | effective
  | permitted
  | inheritable
  deriving DecidableEq

/-- What the setup process asks the kernel (or libseccomp) for. -/
inductive Sys
  | unshareUser
  | writeIdMap (file : String) (content : String)
  | unshareMount
  | mountPrivate
  | fork
  | createDirAll (path : FsPath)
  | createFile (path : FsPath)
  | bindMount (src tgt : FsPath)
  | mountNew (source : Source) (tgt : FsPath)
  | chroot (path : FsPath)
  | chdir (path : FsPath)
  | seccompInit
  | addRule (name : String)
  | seccompLoad
  | dropCap (set : CapSet) (cap : String)
  | setsid
  | openTty
  | setControllingTty
  | dupTty (fd : ℕ)
  | closeTty
  | execvp
  deriving DecidableEq

/-- The system calls behind a call that is made once the filter is loaded. -/
def Sys.syscalls : Sys → List String
  | .dropCap _ _ => ["capget", "capset"]
  | .setsid => ["setsid"]
  | .openTty => ["openat"]
  | .setControllingTty => ["ioctl"]
  | .dupTty _ => ["dup2"]
  | .closeTty => ["close"]
  | .execvp => ["execve"]
  | _ => []

/-! ## §2. The process and its surroundings. -/

structure Process where
  /-- The user and group ids outside, and inside once they are mapped. -/
  uid : ℕ
  gid : ℕ
  view : View
  /-- What is seen from the working directory, and where it is. -/
  here : View
  cwd : FsPath
  /-- The names that the loaded filter allows. -/
  filter : Option (List String)
  /-- The capabilities that were dropped. -/
  dropped : List (CapSet × String)

inductive WaitStatus
  | stillAlive
  | exited (code : ℤ)
  | signaled (signal : ℕ)
  | other

/-- One round of waiting for the FUSE mount. -/
structure Poll where
  /-- The daemon has mounted. -/
  mounted : Bool
  /-- The mountpoint can be examined. -/
  readable : Bool
  child : Except Errno WaitStatus
  /-- The deadline has passed. -/
  late : Bool

/-- How the calls end, and what the setup process finds. -/
structure Env where
  result : Sys → Option Errno
  /-- The names that libseccomp knows. -/
  known : String → Bool
  /-- The device of the temporary directory, and of the FUSE mount. -/
  dirDev : ℕ
  fuseDev : ℕ
  /-- The parent of the mountpoint can be examined. -/
  parentReadable : Bool
  /-- The rounds of waiting, up to the first one past the deadline. -/
  polls : List Poll

inductive Stage1Error
  | getUid
  | getGid
  | createUserNs (e : Errno)
  | writeUidMap (e : Errno)
  | writeGidMap (e : Errno)

/-- What is mounted, as an error names it. -/
inductive MountSource
  | path (p : FsPath)
  | special (name : String)

inductive Stage2Error
  | createMountNs (e : Errno)
  | setMountPrivate (e : Errno)
  | mount (src : MountSource) (tgt : FsPath) (e : Errno)
  | mountIo (e : Errno)
  | chroot (path : FsPath) (e : Errno)
  | chdir (path : FsPath) (e : Errno)

inductive SeccompError
  | init (e : Errno)
  | addSyscall (e : Errno)
  | load (e : Errno)

inductive RunError
  | stage1 (e : Stage1Error)
  | stage2 (e : Stage2Error)
  | seccomp (e : SeccompError)
  | fork (e : Errno)
  | noCommand
  | fuseMountFailed (msg : String)
  | invalidCommandArg
  | pty (msg : String) (e : Errno)
  | io (e : Errno)
  /-- The filter does not allow the call. -/
  | killed (name : String)

abbrev SetupM := EStateM RunError Process Unit

/-- A system call that the loaded filter does not allow. -/
def Process.forbids (w : Process) (call : Sys) : Option String :=
  match w.filter with
  | none => none
  | some allowed => call.syscalls.find? fun name => !(allowed.contains name)

section Calls

variable (env : Env)

/-- Make a call: it fails, or has its effect. -/
def sys (call : Sys) (fail : Errno → RunError) (effect : Process → Process) : SetupM := fun w =>
  match w.forbids call with
  -- the filter kills the process: the caller sees no error
  | some name => .error (.killed name) w
  | none =>
    match env.result call with
    | some e => .error (fail e) w
    | none => .ok () (effect w)

/-- A mount at `tgt` changes what is seen from the root, and from the working directory if it is
strictly below. -/
def Process.mountAt (w : Process) (tgt : FsPath) (what : View) : Process :=
  { w with
    view := w.view.mount tgt what
    here := if Below w.cwd tgt then w.here.mount (tgt.drop w.cwd.length) what else w.here }

/-! ## §3. `stage1.rs`. -/

def writeIdMap (file content : String) (fail : Errno → Stage1Error) : SetupM :=
  sys env (.writeIdMap file content) (fun e => .stage1 (fail e)) id

/-- `UserNs::new`: refused to root. -/
def createUserNs : SetupM := fun w =>
  if w.uid = 0 then .error (.stage1 .getUid) w
  else if w.gid = 0 then .error (.stage1 .getGid) w
  else (do
    sys env .unshareUser (fun e => .stage1 (.createUserNs e)) id
    -- its failure, too, is reported as one to write the `gid_map`
    writeIdMap env "/proc/self/setgroups" "deny\n" .writeGidMap
    writeIdMap env "/proc/self/uid_map" s!"{w.uid} {w.uid} 1\n" .writeUidMap
    writeIdMap env "/proc/self/gid_map" s!"{w.gid} {w.gid} 1\n" .writeGidMap : SetupM) w

/-! ## §4. `stage2.rs`. -/

def createMountNs : SetupM := do
  sys env .unshareMount (fun e => .stage2 (.createMountNs e)) id
  sys env .mountPrivate (fun e => .stage2 (.setMountPrivate e)) id

def createDirAll (path : FsPath) : SetupM :=
  sys env (.createDirAll path) (fun e => .stage2 (.mountIo e)) id

def createFile (path : FsPath) : SetupM :=
  sys env (.createFile path) (fun e => .stage2 (.mountIo e)) id

def bindMount (src tgt : FsPath) : SetupM :=
  sys env (.bindMount src tgt) (fun e => .stage2 (.mount (.path src) tgt e))
    fun w => w.mountAt tgt (w.view.sub src)

def mountNew (source : Source) (name : String) (tgt : FsPath) : SetupM :=
  sys env (.mountNew source tgt) (fun e => .stage2 (.mount (.special name) tgt e))
    fun w => w.mountAt tgt (View.of source)

def bindMountFuse (mountpoint rootfs : FsPath) : SetupM := bindMount env mountpoint rootfs

def bindMountProc (rootfs : FsPath) : SetupM := bindMount env [procName] (rootfs ++ [procName])

def bindMountDev (rootfs : FsPath) (ptySlave : Option FsPath) : SetupM := do
  let devTarget := rootfs ++ [devName]
  forEach devDevices fun dev => bindMount env [devName, dev] (devTarget ++ [dev])
  let ptsTarget := devTarget ++ [ptsName]
  createDirAll env ptsTarget
  -- `newinstance`: without the terminals of the host
  mountNew env .devpts "devpts" ptsTarget
  bindMount env (ptsTarget ++ [ptmxName]) (devTarget ++ [ptmxName])
  forSome ptySlave fun slave => bindMount env slave (devTarget ++ [ttyName])

def bindMountTmpfs (target : FsPath) : SetupM := mountNew env .tmpfs "tmpfs" target

def prepareChroot (rootfs mountpoint cwd : FsPath) (ptySlave : Option FsPath) : SetupM := do
  -- placeholders in the temporary directory, which the FUSE mount covers
  createDirAll env (rootfs ++ [procName])
  createDirAll env (rootfs ++ [devName])
  forEach devFiles fun dev => createFile env (rootfs ++ [devName] ++ [dev])
  bindMountFuse env mountpoint rootfs
  bindMountProc env rootfs
  bindMountDev env rootfs ptySlave
  sys env (.chroot rootfs) (fun e => .stage2 (.chroot rootfs e)) fun w =>
    { w with view := w.view.sub rootfs }
  sys env (.chdir cwd) (fun e => .stage2 (.chdir cwd e)) fun w =>
    { w with here := w.view.sub cwd, cwd := cwd }
  -- after `chdir`, so that a working directory under `/tmp` is not covered
  bindMountTmpfs env [tmpName]

/-- The capabilities that are dropped. -/
def capabilities : List String :=
  ["CAP_CHOWN", "CAP_DAC_OVERRIDE", "CAP_DAC_READ_SEARCH", "CAP_FOWNER", "CAP_FSETID", "CAP_KILL",
    "CAP_SETGID", "CAP_SETUID", "CAP_SETPCAP", "CAP_LINUX_IMMUTABLE", "CAP_NET_BIND_SERVICE",
    "CAP_NET_BROADCAST", "CAP_NET_ADMIN", "CAP_NET_RAW", "CAP_IPC_LOCK", "CAP_IPC_OWNER",
    "CAP_SYS_MODULE", "CAP_SYS_RAWIO", "CAP_SYS_CHROOT", "CAP_SYS_PTRACE", "CAP_SYS_PACCT",
    "CAP_SYS_ADMIN", "CAP_SYS_BOOT", "CAP_SYS_NICE", "CAP_SYS_RESOURCE", "CAP_SYS_TIME",
    "CAP_SYS_TTY_CONFIG", "CAP_MKNOD", "CAP_LEASE", "CAP_AUDIT_WRITE", "CAP_AUDIT_CONTROL",
    "CAP_SETFCAP"]

/-- `let _ =`: a failure is forgotten; death is not. -/
def letGo (m : SetupM) : SetupM := fun w =>
  match m w with
  | .error (.killed name) w => .error (.killed name) w
  | .error _ w => .ok () w
  | .ok () w => .ok () w

def dropCap (set : CapSet) (cap : String) : SetupM :=
  letGo (sys env (.dropCap set cap) .io fun w => { w with dropped := w.dropped ++ [(set, cap)] })

def dropCapabilities : SetupM :=
  forEach capabilities fun cap => do
    dropCap env .effective cap
    dropCap env .permitted cap
    dropCap env .inheritable cap

/-! ## §5. `seccomp.rs`. -/

def ALLOW_SYSCALLS : List String :=
  ["restart_syscall", "shutdown", "pread", "pwrite", "wait", "eventfd", "prlimit", "preadv",
    "preadv2", "inotify_rm_watch", "inotify_init", "fadvise", "read", "readv", "write", "writev",
    "pwritev", "pread64", "pwrite64", "open", "openat", "close", "close_range", "stat", "lstat",
    "fstat", "access", "faccessat", "readlink", "readlinkat", "getcwd", "getdents64", "mkdir",
    "rmdir", "unlink", "link", "symlink", "rename", "chmod", "fchmod", "chown", "fchown", "lchown",
    "mount", "umount", "umount2", "truncate", "ftruncate", "fallocate", "mmap", "mprotect",
    "munmap", "mremap", "msync", "brk", "madvise", "dup", "dup2", "dup3", "pipe", "pipe2",
    "select", "poll", "epoll_create", "epoll_create1", "epoll_ctl", "epoll_wait", "epoll_pwait",
    "epoll_pwait2", "pselect6", "ppoll", "rt_sigaction", "rt_sigprocmask", "rt_sigsuspend",
    "rt_sigreturn", "sigaltstack", "kill", "getsockopt", "setsockopt", "getpeername",
    "getsockname", "socket", "socketpair", "bind", "listen", "accept", "connect", "shmget",
    "shmat", "shmctl", "clock_gettime", "clock_getres", "clock_nanosleep", "gettimeofday", "time",
    "nanosleep", "alarm", "setitimer", "getpid", "gettid", "getppid", "getpgrp", "getsid",
    "getuid", "getgid", "geteuid", "getegid", "setuid", "setgid", "seteuid", "setegid", "setreuid",
    "setregid", "getgroups", "setgroups", "getresuid", "getresgid", "setresuid", "setresgid",
    "getpgid", "setpgid", "setsid", "setns", "uname", "sysinfo", "syslog", "getrlimit",
    "setrlimit", "getrusage", "umask", "prctl", "prlimit64", "getrandom", "execve", "vfork",
    "exit", "exit_group", "wait4", "waitid", "personality", "arch_prctl", "recvfrom", "sendto",
    "recvmsg", "sendmsg", "set_tid_address", "set_robust_list", "rseq", "futex", "futex_waitv",
    "clone", "clone3", "tgkill", "tkill", "ioctl", "lseek", "sendfile", "copy_file_range", "fcntl",
    "flock", "fadvise64", "sync", "fsync", "fdatasync", "syncfs", "newfstatat", "statx", "openat2",
    "mkdirat", "unlinkat", "renameat", "renameat2", "linkat", "symlinkat", "fchmodat", "fchownat",
    "faccessat2", "getdents", "inotify_init1", "inotify_add_watch", "eventfd2", "io_uring_setup",
    "io_uring_enter", "io_uring_register", "pidfd_open", "timerfd_create", "timerfd_settime",
    "timerfd_gettime", "signalfd4", "accept4", "recvmmsg", "sendmmsg", "setfsuid", "setfsgid",
    "sched_getparam", "sched_setscheduler", "sched_getscheduler", "sched_yield",
    "sched_getaffinity", "sched_setaffinity", "pkey_alloc", "capget", "capset", "chdir", "fchdir",
    "chroot", "pivot_root", "statfs", "fstatfs", "getxattr", "lgetxattr", "fgetxattr", "listxattr",
    "llistxattr", "flistxattr", "memfd_create", "memfd_secret", "mlock", "mlock2", "munlock",
    "mlockall", "munlockall", "splice", "tee", "vmsplice", "utimensat", "utimes", "utime",
    "clock_settime", "settimeofday"]

/-- Names that libseccomp does not know are passed over. -/
def addSyscallAllow (name : String) : SetupM :=
  onlyIf (env.known name) (sys env (.addRule name) (fun e => .seccomp (.addSyscall e)) id)

/-- Any call that has no rule kills the process. -/
def applySeccompFilter : SetupM := do
  sys env .seccompInit (fun e => .seccomp (.init e)) id
  forEach ALLOW_SYSCALLS fun name => addSyscallAllow env name
  sys env .seccompLoad (fun e => .seccomp (.load e)) fun w =>
    { w with filter := some (ALLOW_SYSCALLS.filter env.known) }

end Calls

/-! ## §6. The setup process of `sandbox.rs`. -/

/-- The paths of the host that the mounts take things from. -/
def hostSources (ptySlave : Option FsPath) : List FsPath :=
  [procName] :: devDevices.map (fun dev => [devName, dev]) ++ ptySlave.toList

structure SetupPayload where
  rootfs : FsPath
  mountpoint : FsPath
  cwd : FsPath
  cmdArgv : List (List UInt8)
  ptySlave : Option FsPath
  /-- The two temporary directories are apart from everything that is taken from the host. -/
  apart : ∀ p ∈ hostSources ptySlave, ApartPaths rootfs p ∧ ApartPaths mountpoint p

/-- What `waitpid` says of the FUSE daemon while it has not mounted. -/
def fuseGone : Except Errno WaitStatus → Option String
  | .ok .stillAlive => none
  | .ok (.exited code) => some s!"fuse daemon exited before mount with code {code}"
  | .ok (.signaled sig) => some s!"fuse daemon was killed by signal {sig}"
  | .ok .other => some "fuse daemon terminated before mount"
  | .error _ => some "failed to wait fuse daemon"

/-- `u64::MAX` stands for a parent that cannot be examined. -/
def parentDev (env : Env) : ℕ := if env.parentReadable then env.dirDev else 2 ^ 64 - 1

/-- Whether the daemon has mounted when the mountpoint is found to be on a device of its own. -/
def waitForFuseReady (env : Env) : List Poll → Except RunError Bool
  | [] => .error (.fuseMountFailed "timeout waiting for FUSE mount")
  | poll :: polls =>
    -- `st_dev` of the mountpoint is not that of its parent
    if poll.readable && (if poll.mounted then env.fuseDev else env.dirDev) != parentDev env then
      .ok poll.mounted
    else
      match fuseGone poll.child with
      | some msg => .error (.fuseMountFailed msg)
      | none =>
        if poll.late then .error (.fuseMountFailed "timeout waiting for FUSE mount")
        else waitForFuseReady env polls

section Setup

variable (env : Env)

/-- Wait for the FUSE mount. -/
def awaitFuse (mountpoint : FsPath) : SetupM := fun w =>
  match waitForFuseReady env env.polls with
  | .error e => .error e w
  | .ok mounted => .ok () (if mounted then w.mountAt mountpoint (View.of .fuse) else w)

/-- Make the slave of the pseudo terminal the standard streams. -/
def useTty : SetupM := do
  sys env .setsid (.pty "setsid failed") id
  sys env .openTty (.pty "open /dev/tty failed") id
  sys env .setControllingTty (.pty "TIOCSCTTY failed") id
  forEach [0, 1, 2] fun fd => sys env (.dupTty fd) (.pty s!"dup2 to fd {fd} failed") id
  letGo (sys env .closeTty .io id)

/-- Returns when `execvp` has succeeded. -/
def execCommand (argv : List (List UInt8)) (usePty : Bool) : SetupM :=
  match argv with
  | [] => throw .noCommand
  | _ :: _ => do
    onlyIf usePty (useTty env)
    -- `CString::new` refuses a NUL in any of them
    if argv.any fun arg => arg.contains 0 then throw .invalidCommandArg
    else sys env .execvp .io id

def runSetupStage2 (payload : SetupPayload) : SetupM := do
  awaitFuse env payload.mountpoint
  prepareChroot env payload.rootfs payload.mountpoint payload.cwd payload.ptySlave
  applySeccompFilter env
  dropCapabilities env
  execCommand env payload.cmdArgv payload.ptySlave.isSome

/-- From the start of the setup process to the command; an error ends it. -/
def runSetupStage1 (payload : SetupPayload) : SetupM := do
  createUserNs env
  createMountNs env
  -- the child serves the FUSE mount, the parent sets up the rest
  sys env .fork .fork id
  runSetupStage2 env payload

end Setup

/-- How the setup process ends when it does not come to the command. -/
def exitStatus : RunError → WaitStatus
  | .killed _ => .signaled 31
  | _ => .exited 1

/-- `wait_setup_exit`: the exit code of `cas run`. -/
def waitSetupExit : Except Errno WaitStatus → ℤ
  | .ok (.exited code) => code
  | .ok (.signaled _) => 1
  | .ok _ => 0
  | .error _ => 1

end Cas.Isolate
