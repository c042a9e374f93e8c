/-
  Cas.Isolate.Sealed — what a command can reach.

  `Stacked` follows the mounts: below the new root they are a list over
  the FUSE mount, and what they are taken from is still the host's.  When
  the setup process can examine the parent of the mountpoint, it comes to
  the command exactly when it is not run by root, the daemon mounts and
  every call succeeds whose failure counts (`command_runs_iff`); then
  every path leads to the FUSE mount, the listed mounts apart, and so
  does every path from a working directory other than the root
  (`sealed`).  When it cannot, it takes any mountpoint for mounted, and
  the command can run on the host's files (`not_sealed_blind`).
-/
import Cas.Isolate.Setup

namespace Cas.Isolate

open Cas.Lib

/-! ## §1. One call. -/

section Calls

variable {env : Env} {P Q : Process → Prop} {call : Sys} {fail : Errno → RunError}
  {effect : Process → Process}

/-- A call that the filter lets through. -/
theorem goes_sys (hfree : ∀ w, P w → w.forbids call = none) (hQ : ∀ w, P w → Q (effect w)) :
    Goes P (sys env call fail effect) (env.result call = none) Q := by
  intro w hw
  have hfree' := hfree w hw
  constructor
  · intro h
    refine ⟨effect w, ?_, hQ w hw⟩
    simp [sys, hfree', h]
  · intro h
    obtain ⟨e, he⟩ := Option.ne_none_iff_exists'.mp h
    refine ⟨fail e, w, ?_⟩
    simp [sys, hfree', he]

/-- A call whose failure is forgotten. -/
theorem goes_letGo (hfail : ∀ e, ∀ name, fail e ≠ .killed name)
    (hfree : ∀ w, P w → w.forbids call = none) (hkeep : ∀ w, P w → env.result call ≠ none → Q w)
    (hQ : ∀ w, P w → env.result call = none → Q (effect w)) :
    Goes P (letGo (sys env call fail effect)) True Q := by
  intro w hw
  refine ⟨fun _ => ?_, fun h => absurd trivial h⟩
  have hfree' := hfree w hw
  cases h : env.result call with
  | none =>
    refine ⟨effect w, ?_, hQ w hw h⟩
    simp [letGo, sys, hfree', h]
  | some e =>
    refine ⟨w, ?_, hkeep w hw (by simp [h])⟩
    have hsys : sys env call fail effect w = .error (fail e) w := by simp [sys, hfree', h]
    unfold letGo
    rw [hsys]
    -- `let _ =` forgets an error; it cannot undo a kill
    cases hf : fail e with
    | killed name => exact absurd hf (hfail e name)
    | _ => rfl

end Calls

/-! ## §2. The mounts. -/

/-- Before the filter: nothing is forbidden, nothing was dropped. -/
structure Unfiltered (uid gid : ℕ) (w : Process) : Prop where
  uid : w.uid = uid
  gid : w.gid = gid
  filter : w.filter = none
  dropped : w.dropped = []

/-- Before the filter no call is forbidden. -/
theorem Unfiltered.forbids {uid gid : ℕ} {w : Process} (h : Unfiltered uid gid w) (call : Sys) :
    w.forbids call = none := by
  unfold Process.forbids
  rw [h.filter]

/-- What the host has at `p`. -/
def hostAt (p : FsPath) : View := (View.of .host).sub p

/-- Below `root` there is the FUSE mount with `ms` over it; the sources are the host's. -/
structure Stacked (payload : SetupPayload) (root : FsPath) (ms : List (FsPath × View))
    (uid gid : ℕ) (w : Process) : Prop extends Unfiltered uid gid w where
  stack : w.view.sub root = (View.of .fuse).mounts ms
  sources : ∀ p ∈ hostSources payload.ptySlave, w.view.sub p = hostAt p

section Mounts

variable {env : Env} {payload : SetupPayload} {ms : List (FsPath × View)} {uid gid : ℕ}

/-- What a mount below the root that is to be does. -/
theorem stacked_mountAt {w : Process} (h : Stacked payload payload.rootfs ms uid gid w)
    (tgt : FsPath) (what : View) :
    Stacked payload payload.rootfs (ms ++ [(tgt, what)]) uid gid
      (w.mountAt (payload.rootfs ++ tgt) what) := by
  refine ⟨⟨h.uid, h.gid, h.filter, h.dropped⟩, ?_, fun p hp => ?_⟩
  · show (w.view.mount (payload.rootfs ++ tgt) what).sub payload.rootfs = _
    rw [Space.sub_mount_below, h.stack, Space.mounts_append]
    rfl
  · -- nothing below the new root is a source
    show (w.view.mount (payload.rootfs ++ tgt) what).sub p = _
    rw [Space.sub_mount_apart _ _ ((payload.apart p hp).1.append tgt), h.sources p hp]

variable (env payload)

/-- A bind mount of something of the host. -/
theorem goes_bindMount {src : FsPath} (hsrc : src ∈ hostSources payload.ptySlave) (tgt : FsPath) :
    Goes (Stacked payload payload.rootfs ms uid gid) (bindMount env src (payload.rootfs ++ tgt))
      (env.result (.bindMount src (payload.rootfs ++ tgt)) = none)
      (Stacked payload payload.rootfs (ms ++ [(tgt, hostAt src)]) uid gid) := by
  refine goes_sys (fun w hw => hw.forbids _) fun w hw => ?_
  rw [hw.sources src hsrc]
  exact stacked_mountAt hw tgt _

/-- The calls of `bind_mount_dev`. -/
def devCalls (rootfs : FsPath) (ptySlave : Option FsPath) : List Sys :=
  devDevices.map (fun dev => .bindMount [devName, dev] (rootfs ++ [devName, dev]))
    ++ [.createDirAll (rootfs ++ [devName, ptsName]),
        .mountNew .devpts (rootfs ++ [devName, ptsName]),
        .bindMount (rootfs ++ [devName, ptsName, ptmxName]) (rootfs ++ [devName, ptmxName])]
    ++ ptySlave.toList.map fun slave => .bindMount slave (rootfs ++ [devName, ttyName])

/-- The mounts of `bind_mount_dev`. -/
def devMounts (ptySlave : Option FsPath) : List (FsPath × View) :=
  devDevices.map (fun dev => ([devName, dev], hostAt [devName, dev]))
    ++ [([devName, ptsName], View.of .devpts),
        ([devName, ptmxName], (View.of .devpts).sub [ptmxName])]
    ++ ptySlave.toList.map fun slave => ([devName, ttyName], hostAt slave)

theorem dev_mem_hostSources {dev : Name} (h : dev ∈ devDevices) (ptySlave : Option FsPath) :
    [devName, dev] ∈ hostSources ptySlave :=
  List.mem_cons_of_mem _ (List.mem_append_left _ (List.mem_map.mpr ⟨dev, h, rfl⟩))

/-- The four device nodes. -/
theorem goes_devices : Goes (Stacked payload payload.rootfs ms uid gid)
    (forEach devDevices fun dev =>
      bindMount env [devName, dev] (payload.rootfs ++ [devName] ++ [dev]))
    (∀ dev ∈ devDevices,
      env.result (.bindMount [devName, dev] (payload.rootfs ++ [devName, dev])) = none)
    (Stacked payload payload.rootfs
      (ms ++ devDevices.map fun dev => ([devName, dev], hostAt [devName, dev])) uid gid) := by
  have hloop := Goes.forEach (l := devDevices)
    (I := fun before => Stacked payload payload.rootfs
      (ms ++ before.map fun dev => ([devName, dev], hostAt [devName, dev])) uid gid)
    (m := fun dev => bindMount env [devName, dev] (payload.rootfs ++ [devName] ++ [dev]))
    (c := fun dev =>
      env.result (.bindMount [devName, dev] (payload.rootfs ++ [devName, dev])) = none)
    (fun before dev hdev => by
      rw [List.append_assoc payload.rootfs, List.map_append, ← List.append_assoc ms]
      exact goes_bindMount env payload (dev_mem_hostSources hdev _) _) []
  rw [List.map_nil, List.append_nil] at hloop
  exact hloop

/-- `ptmx` of the new `devpts` instance. -/
theorem goes_ptmx : Goes
    (Stacked payload payload.rootfs (ms ++ [([devName, ptsName], View.of .devpts)]) uid gid)
    (bindMount env (payload.rootfs ++ [devName, ptsName, ptmxName])
      (payload.rootfs ++ [devName, ptmxName]))
    (env.result (.bindMount (payload.rootfs ++ [devName, ptsName, ptmxName])
      (payload.rootfs ++ [devName, ptmxName])) = none)
    (Stacked payload payload.rootfs (ms ++ [([devName, ptsName], View.of .devpts),
      ([devName, ptmxName], (View.of .devpts).sub [ptmxName])]) uid gid) := by
  refine goes_sys (fun w hw => hw.forbids _) fun w hw => ?_
  -- the source is looked up through the mount made just before
  have hsrc : w.view.sub (payload.rootfs ++ [devName, ptsName, ptmxName])
      = (View.of .devpts).sub [ptmxName] := by
    rw [← Space.sub_sub, hw.stack, Space.mounts_append]
    show ((((View.of .fuse).mounts ms).mount [devName, ptsName] (View.of .devpts)).sub
      ([devName, ptsName] ++ [ptmxName])) = _
    rw [← Space.sub_sub, Space.sub_mount_self]
  rw [hsrc]
  have hmount := stacked_mountAt hw [devName, ptmxName] ((View.of .devpts).sub [ptmxName])
  rw [List.append_assoc] at hmount
  exact hmount

/-- A call that changes nothing below the root. -/
theorem goes_idle {P : Process → Prop} {call : Sys} {fail : Errno → RunError}
    (hfree : ∀ w, P w → w.forbids call = none) :
    Goes P (sys env call fail id) (env.result call = none) P :=
  goes_sys hfree fun _ hw => hw

theorem goes_createDirAll (path : FsPath) : Goes (Stacked payload payload.rootfs ms uid gid)
    (createDirAll env path) (env.result (.createDirAll path) = none)
    (Stacked payload payload.rootfs ms uid gid) :=
  goes_idle env fun _ hw => hw.forbids _

theorem goes_mountNew (source : Source) (name : String) (tgt : FsPath) :
    Goes (Stacked payload payload.rootfs ms uid gid)
      (mountNew env source name (payload.rootfs ++ tgt))
      (env.result (.mountNew source (payload.rootfs ++ tgt)) = none)
      (Stacked payload payload.rootfs (ms ++ [(tgt, View.of source)]) uid gid) :=
  goes_sys (fun _ hw => hw.forbids _) fun _ hw => stacked_mountAt hw tgt _

/-- The slave of the pseudo terminal, if there is one. -/
theorem goes_tty : Goes (Stacked payload payload.rootfs ms uid gid)
    (forSome payload.ptySlave fun slave =>
      bindMount env slave (payload.rootfs ++ [devName] ++ [ttyName]))
    (∀ slave ∈ payload.ptySlave,
      env.result (.bindMount slave (payload.rootfs ++ [devName, ttyName])) = none)
    (Stacked payload payload.rootfs (ms ++ payload.ptySlave.toList.map
      fun slave => ([devName, ttyName], hostAt slave)) uid gid) := by
  cases hslave : payload.ptySlave with
  | none =>
    rw [Option.toList_none, List.map_nil, List.append_nil]
    exact Goes.ret.weaken (fun _ hw => hw) (by simp) fun _ hw => hw
  | some slave =>
    have hmem : slave ∈ hostSources payload.ptySlave := by
      rw [hslave]
      exact List.mem_cons_of_mem _ (List.mem_append_right _ (List.mem_singleton_self slave))
    rw [List.append_assoc]
    exact (goes_bindMount env payload hmem [devName, ttyName]).weaken (fun _ hw => hw) (by simp)
      fun _ hw => hw

theorem goes_bindMountDev : Goes (Stacked payload payload.rootfs ms uid gid)
    (bindMountDev env payload.rootfs payload.ptySlave)
    (∀ call ∈ devCalls payload.rootfs payload.ptySlave, env.result call = none)
    (Stacked payload payload.rootfs (ms ++ devMounts payload.ptySlave) uid gid) := by
  have hpts : payload.rootfs ++ [devName] ++ [ptsName] = payload.rootfs ++ [devName, ptsName] :=
    List.append_assoc _ _ _
  have hptmx : payload.rootfs ++ [devName] ++ [ptmxName] = payload.rootfs ++ [devName, ptmxName] :=
    List.append_assoc _ _ _
  have hptmx' : payload.rootfs ++ [devName, ptsName] ++ [ptmxName]
      = payload.rootfs ++ [devName, ptsName, ptmxName] := List.append_assoc _ _ _
  unfold bindMountDev
  dsimp only
  rw [hpts, hptmx, hptmx']
  -- call by call: each `Goes` hands its mounts to the next, and the conditions are `devCalls`
  refine ((goes_devices env payload).bind <|
    (goes_createDirAll env payload (payload.rootfs ++ [devName, ptsName])).bind <|
    (goes_mountNew env payload .devpts "devpts" [devName, ptsName]).bind <|
    (goes_ptmx env payload).bind <| goes_tty env payload).weaken (fun _ hw => hw) ?_ fun w hw => ?_
  · simp [devCalls, or_imp, forall_and]
  · rw [List.append_assoc, List.append_assoc] at hw
    rw [devMounts, List.append_assoc]
    exact hw

/-- The calls of `prepare_chroot`. -/
def chrootCalls (payload : SetupPayload) : List Sys :=
  [.createDirAll (payload.rootfs ++ [procName]), .createDirAll (payload.rootfs ++ [devName])]
    ++ devFiles.map (fun dev => .createFile (payload.rootfs ++ [devName] ++ [dev]))
    ++ [.bindMount payload.mountpoint payload.rootfs,
        .bindMount [procName] (payload.rootfs ++ [procName])]
    ++ devCalls payload.rootfs payload.ptySlave
    ++ [.chroot payload.rootfs, .chdir payload.cwd, .mountNew .tmpfs [tmpName]]

/-- What is mounted over FUSE when the working directory is set. -/
def stackedMounts (ptySlave : Option FsPath) : List (FsPath × View) :=
  ([procName], hostAt [procName]) :: devMounts ptySlave

/-- And when the command starts. -/
def sandboxMounts (ptySlave : Option FsPath) : List (FsPath × View) :=
  stackedMounts ptySlave ++ [([tmpName], View.of .tmpfs)]

/-- FUSE is at the mountpoint, and covers nothing that is taken from the host. -/
structure FuseUp (uid gid : ℕ) (w : Process) : Prop extends Unfiltered uid gid w where
  mounted : w.view.sub payload.mountpoint = View.of .fuse
  sources : ∀ p ∈ hostSources payload.ptySlave, w.view.sub p = hostAt p

/-- The root, the working directory and the mounts are those of the sandbox. -/
structure Chrooted (w : Process) : Prop where
  view : w.view = (View.of .fuse).mounts (sandboxMounts payload.ptySlave)
  here : w.here = if payload.cwd = [] then w.view
    else ((View.of .fuse).mounts (stackedMounts payload.ptySlave)).sub payload.cwd

theorem goes_bindMountFuse : Goes (FuseUp payload uid gid)
    (bindMountFuse env payload.mountpoint payload.rootfs)
    (env.result (.bindMount payload.mountpoint payload.rootfs) = none)
    (Stacked payload payload.rootfs [] uid gid) := by
  refine goes_sys (fun _ hw => hw.forbids _) fun w hw => ?_
  refine ⟨⟨hw.uid, hw.gid, hw.filter, hw.dropped⟩, ?_, fun p hp => ?_⟩
  · show (w.view.mount payload.rootfs (w.view.sub payload.mountpoint)).sub payload.rootfs = _
    rw [Space.sub_mount_self, hw.mounted]
    rfl
  · show (w.view.mount payload.rootfs _).sub p = _
    rw [Space.sub_mount_apart _ _ (payload.apart p hp).1, hw.sources p hp]

/-- Change root, change directory, then cover `/tmp`. -/
theorem goes_enter : Goes
    (Stacked payload payload.rootfs (stackedMounts payload.ptySlave) uid gid)
    (do
      sys env (.chroot payload.rootfs) (fun e => .stage2 (.chroot payload.rootfs e)) fun w =>
        { w with view := w.view.sub payload.rootfs }
      sys env (.chdir payload.cwd) (fun e => .stage2 (.chdir payload.cwd e)) fun w =>
        { w with here := w.view.sub payload.cwd, cwd := payload.cwd }
      bindMountTmpfs env [tmpName])
    (env.result (.chroot payload.rootfs) = none ∧ env.result (.chdir payload.cwd) = none ∧
      env.result (.mountNew .tmpfs [tmpName]) = none)
    (fun w => Unfiltered uid gid w ∧ Chrooted payload w) := by
  refine Goes.bind (Q := fun w => Unfiltered uid gid w ∧
      w.view = (View.of .fuse).mounts (stackedMounts payload.ptySlave)) ?_ <|
    Goes.bind (Q := fun w => Unfiltered uid gid w ∧
      w.view = (View.of .fuse).mounts (stackedMounts payload.ptySlave) ∧ w.cwd = payload.cwd ∧
      w.here = w.view.sub payload.cwd) ?_ ?_
  -- the new root becomes the root, so its mounts become those of the process
  · exact goes_sys (fun _ hw => hw.forbids _) fun w hw =>
      ⟨⟨hw.uid, hw.gid, hw.filter, hw.dropped⟩, hw.stack⟩
  · exact goes_sys (fun _ hw => hw.1.forbids _) fun w hw =>
      ⟨⟨hw.1.uid, hw.1.gid, hw.1.filter, hw.1.dropped⟩, hw.2, rfl, rfl⟩
  · refine goes_sys (fun _ hw => hw.1.forbids _) fun w hw => ?_
    obtain ⟨hfree, hview, hcwd, hhere⟩ := hw
    refine ⟨⟨hfree.uid, hfree.gid, hfree.filter, hfree.dropped⟩, ?_, ?_⟩
    · show w.view.mount [tmpName] (View.of .tmpfs) = _
      rw [hview, sandboxMounts, Space.mounts_append]
      rfl
    · show (if Below w.cwd [tmpName] then w.here.mount _ _ else w.here) = _
      rw [hcwd, hhere]
      by_cases hroot : payload.cwd = []
      · rw [if_pos hroot, hroot, if_pos (by decide)]
        rfl
      · -- only the root is strictly above `/tmp`
        have hbelow : ¬ Below payload.cwd [tmpName] := by
          intro h
          have hlt := (below_iff_length.mp h).2
          exact hroot (List.length_eq_zero_iff.mp (by simpa using hlt))
        rw [if_neg hroot, if_neg hbelow, hview]

theorem goes_prepareChroot : Goes (FuseUp payload uid gid)
    (prepareChroot env payload.rootfs payload.mountpoint payload.cwd payload.ptySlave)
    (∀ call ∈ chrootCalls payload, env.result call = none)
    (fun w => Unfiltered uid gid w ∧ Chrooted payload w) := by
  have hproc : [procName] ∈ hostSources payload.ptySlave := List.mem_cons_self
  have hfiles := Goes.forEach (l := devFiles) (I := fun _ => FuseUp payload uid gid)
    (m := fun dev => createFile env (payload.rootfs ++ [devName] ++ [dev]))
    (c := fun dev => env.result (.createFile (payload.rootfs ++ [devName] ++ [dev])) = none)
    (fun _ _ _ => goes_idle env fun _ hw => hw.forbids _) []
  refine ((goes_idle env fun _ hw => hw.forbids _).bind <|
    (goes_idle env fun _ hw => hw.forbids _).bind <| hfiles.bind <|
    (goes_bindMountFuse env payload).bind <| (goes_bindMount env payload hproc [procName]).bind <|
    (goes_bindMountDev env payload).bind <| goes_enter env payload).weaken
    (fun _ hw => hw) ?_ fun _ hw => hw
  simp [chrootCalls, or_imp, forall_and]

end Mounts

/-! ## §3. The filter and what follows it. -/

/-- The system calls of the setup process once the filter is loaded. -/
def laterSyscalls : List String :=
  ["capget", "capset", "setsid", "openat", "ioctl", "dup2", "close", "execve"]

/-- The filter allows them all. -/
theorem laterSyscalls_allowed : ∀ name ∈ laterSyscalls, name ∈ ALLOW_SYSCALLS := by decide

/-- In the sandbox, with the filter loaded. -/
structure Filtered (env : Env) (payload : SetupPayload) (uid gid : ℕ) (w : Process) : Prop
    extends Chrooted payload w where
  uid : w.uid = uid
  gid : w.gid = gid
  filter : w.filter = some (ALLOW_SYSCALLS.filter env.known)

/-- A capability in each of its sets. -/
def allSets (cap : String) : List (CapSet × String) :=
  [(.effective, cap), (.permitted, cap), (.inheritable, cap)]

/-- Those of `xs` that could be dropped are gone. -/
def DroppedOf (env : Env) (xs : List (CapSet × String)) (w : Process) : Prop :=
  ∀ x ∈ xs, env.result (.dropCap x.1 x.2) = none → x ∈ w.dropped

/-- The calls of `apply_seccomp_filter`. -/
def filterCalls (env : Env) : List Sys :=
  .seccompInit :: (ALLOW_SYSCALLS.filter env.known).map .addRule ++ [.seccompLoad]

/-- The calls that give the command its terminal. -/
def ttyCalls (usePty : Bool) : List Sys :=
  if usePty then [.setsid, .openTty, .setControllingTty, .dupTty 0, .dupTty 1, .dupTty 2] else []

section Filter

variable (env : Env) (payload : SetupPayload) {uid gid : ℕ}
  (hknown : ∀ name ∈ laterSyscalls, env.known name = true)

include hknown in
/-- The filter does not kill the process that loads it. -/
theorem Filtered.forbids {w : Process} (h : Filtered env payload uid gid w) {call : Sys}
    (hcall : ∀ name ∈ call.syscalls, name ∈ laterSyscalls) : w.forbids call = none := by
  unfold Process.forbids
  rw [h.filter]
  refine List.find?_eq_none.mpr fun name hname => ?_
  have hmem : name ∈ ALLOW_SYSCALLS.filter env.known := List.mem_filter.mpr
    ⟨laterSyscalls_allowed name (hcall name hname), hknown name (hcall name hname)⟩
  simpa using hmem

theorem goes_applySeccompFilter : Goes (fun w => Unfiltered uid gid w ∧ Chrooted payload w)
    (applySeccompFilter env) (∀ call ∈ filterCalls env, env.result call = none)
    (fun w => Filtered env payload uid gid w ∧ w.dropped = []) := by
  have hrules := Goes.forEach (l := ALLOW_SYSCALLS)
    (I := fun _ w => Unfiltered uid gid w ∧ Chrooted payload w)
    (m := fun name => addSyscallAllow env name)
    (c := fun name => env.known name = true → env.result (.addRule name) = none)
    (fun _ _ _ => Goes.onlyIf (goes_idle env fun _ hw => hw.1.forbids _)) []
  refine ((goes_idle env fun _ hw => hw.1.forbids _).bind <| hrules.bind <|
    goes_sys (fun _ hw => hw.1.forbids _) fun w hw =>
      ⟨⟨⟨hw.2.view, hw.2.here⟩, hw.1.uid, hw.1.gid, rfl⟩, hw.1.dropped⟩).weaken
    (fun _ hw => hw) ?_ fun _ hw => hw
  simp only [filterCalls, List.cons_append, List.forall_mem_cons, List.forall_mem_append,
    List.forall_mem_map, List.mem_filter, and_imp, List.not_mem_nil, IsEmpty.forall_iff,
    implies_true, and_true]

include hknown in
theorem goes_dropCap (set : CapSet) (cap : String) (xs : List (CapSet × String)) :
    Goes (fun w => Filtered env payload uid gid w ∧ DroppedOf env xs w) (dropCap env set cap) True
      (fun w => Filtered env payload uid gid w ∧ DroppedOf env (xs ++ [(set, cap)]) w) := by
  refine goes_letGo (fun e name he => by cases he) ?_ ?_ ?_
  · intro w hw
    refine hw.1.forbids env payload hknown ?_
    show ∀ name ∈ ["capget", "capset"], name ∈ laterSyscalls
    decide
  · intro w hw hfail
    refine ⟨hw.1, fun x hx hok => ?_⟩
    rcases List.mem_append.mp hx with hx | hx
    · exact hw.2 x hx hok
    · rw [List.mem_singleton.mp hx] at hok
      exact absurd hok hfail
  · intro w hw _
    refine ⟨⟨⟨hw.1.view, hw.1.here⟩, hw.1.uid, hw.1.gid, hw.1.filter⟩, fun x hx hok => ?_⟩
    rcases List.mem_append.mp hx with hx | hx
    · exact List.mem_append_left _ (hw.2 x hx hok)
    · exact List.mem_append_right _ hx

include hknown in
/-- Each capability in each of the three sets. -/
theorem goes_dropCapabilities :
    Goes (fun w => Filtered env payload uid gid w ∧ w.dropped = []) (dropCapabilities env) True
      (fun w => Filtered env payload uid gid w ∧
        DroppedOf env (capabilities.flatMap allSets) w) := by
  have hloop := Goes.forEach (l := capabilities)
    (I := fun before w => Filtered env payload uid gid w ∧
      DroppedOf env (before.flatMap allSets) w)
    (m := fun cap => do
      dropCap env .effective cap
      dropCap env .permitted cap
      dropCap env .inheritable cap)
    (c := fun _ => True) (fun before cap _ => ?_) []
  · exact hloop.weaken (fun w hw => ⟨hw.1, fun x hx => absurd hx List.not_mem_nil⟩)
      (by simp) fun w hw => hw
  · refine ((goes_dropCap env payload hknown _ _ _).bind <|
      (goes_dropCap env payload hknown _ _ _).bind <| goes_dropCap env payload hknown _ _ _).weaken
      (fun _ hw => hw) (by simp) fun w hw => ?_
    rw [List.flatMap_append, List.flatMap_singleton]
    rw [List.append_assoc, List.append_assoc] at hw
    exact hw

include hknown in
/-- The terminal of the command. -/
theorem goes_useTty {P : Process → Prop} (hP : ∀ w, P w → Filtered env payload uid gid w) :
    Goes P (useTty env) (∀ call ∈ ttyCalls true, env.result call = none) P := by
  have hidle : ∀ {call : Sys} {fail : Errno → RunError},
      (∀ name ∈ call.syscalls, name ∈ laterSyscalls) →
      Goes P (sys env call fail id) (env.result call = none) P :=
    fun hcall => goes_idle env fun w hw => (hP w hw).forbids env payload hknown hcall
  have hdup := Goes.forEach (l := [0, 1, 2]) (I := fun _ => P)
    (m := fun fd => sys env (.dupTty fd) (.pty s!"dup2 to fd {fd} failed") id)
    (c := fun fd => env.result (.dupTty fd) = none)
    (fun _ fd _ => hidle (by show ∀ name ∈ ["dup2"], name ∈ laterSyscalls; decide)) []
  refine ((hidle (by decide)).bind <| (hidle (by decide)).bind <| (hidle (by decide)).bind <|
    hdup.bind <| goes_letGo (fun e name he => by cases he)
      (fun w hw => (hP w hw).forbids env payload hknown (by decide)) (fun w hw _ => hw)
      fun w hw _ => hw).weaken (fun _ hw => hw) ?_ fun _ hw => hw
  simp [ttyCalls]

include hknown in
theorem goes_execCommand {P : Process → Prop} (hP : ∀ w, P w → Filtered env payload uid gid w)
    (argv : List (List UInt8)) (usePty : Bool) :
    Goes P (execCommand env argv usePty)
      (argv ≠ [] ∧ (∀ arg ∈ argv, 0 ∉ arg) ∧
        ∀ call ∈ ttyCalls usePty ++ [.execvp], env.result call = none) P := by
  cases argv with
  | nil => exact Goes.fail.weaken (fun _ hw => hw) (by simp) fun _ hw => hw
  | cons program args =>
    have hexec : Goes P (if (program :: args).any fun arg => arg.contains 0 then
          throw .invalidCommandArg else sys env .execvp .io id)
        ((∀ arg ∈ program :: args, 0 ∉ arg) ∧ env.result .execvp = none) P := by
      by_cases hnul : ((program :: args).any fun arg => arg.contains 0) = true
      · rw [if_pos hnul]
        obtain ⟨arg, harg, hzero⟩ := List.any_eq_true.mp hnul
        refine Goes.fail.weaken (fun _ hw => hw) ⟨False.elim, fun h => ?_⟩ fun _ hw => hw
        exact h.1 arg harg (List.contains_iff_mem.mp hzero)
      · rw [if_neg hnul]
        refine (goes_idle env fun w hw =>
          (hP w hw).forbids env payload hknown (by decide)).weaken (fun _ hw => hw) ?_
          fun _ hw => hw
        refine (and_iff_right fun arg harg hzero => hnul ?_).symm
        exact List.any_eq_true.mpr ⟨arg, harg, List.contains_iff_mem.mpr hzero⟩
    refine ((Goes.onlyIf (goes_useTty env payload hknown hP)).bind hexec).weaken
      (fun _ hw => hw) ?_ fun _ hw => hw
    cases usePty <;> simp [ttyCalls, and_assoc, and_left_comm]

end Filter

/-! ## §4. From the fork to the command. -/

/-- With a parent that can be examined, only the FUSE mount passes for itself. -/
theorem mounted_of_ready {env : Env} (hparent : env.parentReadable = true) {polls : List Poll}
    {mounted : Bool} (h : waitForFuseReady env polls = .ok mounted) : mounted = true := by
  have hdev : parentDev env = env.dirDev := if_pos hparent
  induction polls with
  | nil => cases h
  | cons poll polls ih =>
    unfold waitForFuseReady at h
    rw [hdev] at h
    by_cases hready : (poll.readable &&
        (if poll.mounted then env.fuseDev else env.dirDev) != env.dirDev) = true
    · rw [if_pos hready] at h
      obtain rfl : poll.mounted = mounted := Except.ok.inj h
      by_contra hmounted
      -- before the mount the directory is on its parent's device
      rw [if_neg hmounted] at hready
      simp at hready
    · rw [if_neg hready] at h
      cases hgone : fuseGone poll.child with
      | some msg =>
        rw [hgone] at h
        cases h
      | none =>
        rw [hgone] at h
        by_cases hlate : poll.late = true
        · simp only [if_pos hlate] at h
          cases h
        · simp only [if_neg hlate] at h
          exact ih h

/-- The calls of `create_user_ns`, `create_mount_ns` and the fork. -/
def namespaceCalls (uid gid : ℕ) : List Sys :=
  [.unshareUser, .writeIdMap "/proc/self/setgroups" "deny\n",
    .writeIdMap "/proc/self/uid_map" s!"{uid} {uid} 1\n",
    .writeIdMap "/proc/self/gid_map" s!"{gid} {gid} 1\n", .unshareMount, .mountPrivate, .fork]

/-- Every call that must succeed, in order. -/
def setupCalls (env : Env) (payload : SetupPayload) (uid gid : ℕ) : List Sys :=
  namespaceCalls uid gid ++ chrootCalls payload ++ filterCalls env
    ++ ttyCalls payload.ptySlave.isSome ++ [.execvp]

/-- A process of the host. -/
structure OnHost (uid gid : ℕ) (w : Process) : Prop extends Unfiltered uid gid w where
  view : w.view = View.of .host

section Whole

variable (env : Env) (payload : SetupPayload) {uid gid : ℕ}

theorem goes_createUserNs : Goes (OnHost uid gid) (createUserNs env)
    (uid ≠ 0 ∧ gid ≠ 0 ∧ env.result .unshareUser = none ∧
      env.result (.writeIdMap "/proc/self/setgroups" "deny\n") = none ∧
      env.result (.writeIdMap "/proc/self/uid_map" s!"{uid} {uid} 1\n") = none ∧
      env.result (.writeIdMap "/proc/self/gid_map" s!"{gid} {gid} 1\n") = none)
    (OnHost uid gid) := by
  have hcall : ∀ call fail, Goes (OnHost uid gid) (sys env call fail id)
      (env.result call = none) (OnHost uid gid) := fun _ _ => goes_idle env fun _ hw => hw.forbids _
  have hcalls := (hcall .unshareUser fun e => .stage1 (.createUserNs e)).bind <|
    (hcall (.writeIdMap "/proc/self/setgroups" "deny\n")
      fun e => .stage1 (.writeGidMap e)).bind <|
    (hcall (.writeIdMap "/proc/self/uid_map" s!"{uid} {uid} 1\n")
      fun e => .stage1 (.writeUidMap e)).bind <|
    hcall (.writeIdMap "/proc/self/gid_map" s!"{gid} {gid} 1\n")
      fun e => .stage1 (.writeGidMap e)
  intro w hw
  have huid : w.uid = uid := hw.uid
  have hgid : w.gid = gid := hw.gid
  unfold createUserNs
  rw [huid, hgid]
  by_cases hu : uid = 0
  · rw [if_pos hu]
    exact ⟨fun h => absurd hu h.1, fun _ => ⟨_, _, rfl⟩⟩
  · by_cases hg : gid = 0
    · rw [if_neg hu, if_pos hg]
      exact ⟨fun h => absurd hg h.2.1, fun _ => ⟨_, _, rfl⟩⟩
    · rw [if_neg hu, if_neg hg]
      obtain ⟨hok, herror⟩ := hcalls w hw
      exact ⟨fun h => hok h.2.2, fun h => herror fun hc => h ⟨hu, hg, hc⟩⟩

theorem goes_awaitFuse (hparent : env.parentReadable = true) : Goes (OnHost uid gid)
    (awaitFuse env payload.mountpoint) (waitForFuseReady env env.polls = .ok true)
    (FuseUp payload uid gid) := by
  intro w hw
  unfold awaitFuse
  cases h : waitForFuseReady env env.polls with
  | error e => exact ⟨fun he => (by cases he), fun _ => ⟨e, w, rfl⟩⟩
  | ok mounted =>
    -- what was found on a device of its own is the daemon's mount
    obtain rfl := mounted_of_ready hparent h
    refine ⟨fun _ => ⟨_, rfl, ⟨⟨hw.uid, hw.gid, hw.filter, hw.dropped⟩, ?_, fun p hp => ?_⟩⟩,
      fun hne => absurd rfl hne⟩
    · show (w.view.mount payload.mountpoint (View.of .fuse)).sub payload.mountpoint = _
      rw [Space.sub_mount_self]
    · show (w.view.mount payload.mountpoint (View.of .fuse)).sub p = _
      rw [Space.sub_mount_apart _ _ (payload.apart p hp).2, hw.view]
      rfl

/-- What it takes to come to the command. -/
structure Runs (env : Env) (payload : SetupPayload) (uid gid : ℕ) : Prop where
  notRoot : uid ≠ 0 ∧ gid ≠ 0
  mounts : waitForFuseReady env env.polls = .ok true
  argv : payload.cmdArgv ≠ [] ∧ ∀ arg ∈ payload.cmdArgv, 0 ∉ arg
  calls : ∀ call ∈ setupCalls env payload uid gid, env.result call = none

theorem goes_setup (hparent : env.parentReadable = true)
    (hknown : ∀ name ∈ laterSyscalls, env.known name = true) :
    Goes (OnHost uid gid) (runSetupStage1 env payload) (Runs env payload uid gid)
      (fun w => Filtered env payload uid gid w ∧
        DroppedOf env (capabilities.flatMap allSets) w) := by
  have hmount : Goes (OnHost uid gid) (createMountNs env)
      (env.result .unshareMount = none ∧ env.result .mountPrivate = none) (OnHost uid gid) :=
    (goes_idle env fun _ hw => hw.forbids _).bind <| goes_idle env fun _ hw => hw.forbids _
  have hfork : Goes (OnHost uid gid) (sys env .fork .fork id) (env.result .fork = none)
      (OnHost uid gid) := goes_idle env fun _ hw => hw.forbids _
  refine ((goes_createUserNs env).bind <| hmount.bind <| hfork.bind <|
    (goes_awaitFuse env payload hparent).bind <| (goes_prepareChroot env payload).bind <|
    (goes_applySeccompFilter env payload).bind <|
    (goes_dropCapabilities env payload hknown).bind <|
    goes_execCommand env payload hknown (fun _ hw => hw.1) payload.cmdArgv
      payload.ptySlave.isSome).weaken (fun _ hw => hw) ?_ fun _ hw => hw
  constructor
  · intro h
    obtain ⟨⟨hu, hg, h1, h2, h3, h4⟩, ⟨h5, h6⟩, h7, hmounts, hchroot, hfilter, -, hne, hnul, htty⟩ := h
    refine ⟨⟨hu, hg⟩, hmounts, ⟨hne, hnul⟩, ?_⟩
    simp only [setupCalls, namespaceCalls, List.forall_mem_append, List.forall_mem_cons] at htty ⊢
    exact ⟨⟨⟨⟨⟨h1, h2, h3, h4, h5, h6, h7, by simp⟩, hchroot⟩, hfilter⟩, htty.1⟩, htty.2⟩
  · intro h
    obtain ⟨⟨hu, hg⟩, hmounts, ⟨hne, hnul⟩, hcalls⟩ := h
    simp only [setupCalls, namespaceCalls, List.forall_mem_append, List.forall_mem_cons] at hcalls
    obtain ⟨⟨⟨⟨⟨h1, h2, h3, h4, h5, h6, h7, -⟩, hchroot⟩, hfilter⟩, htty⟩, hexec⟩ := hcalls
    exact ⟨⟨hu, hg, h1, h2, h3, h4⟩, ⟨h5, h6⟩, h7, hmounts, hchroot, hfilter, trivial, hne, hnul,
      List.forall_mem_append.mpr ⟨htty, List.forall_mem_cons.mpr hexec⟩⟩

end Whole

/-! ## §5. What the command reaches. -/

/-- Each mount is of a file system of the sandbox, or of something that is taken from the host. -/
theorem mount_of_source {ptySlave : Option FsPath} {m : FsPath × View}
    (hm : m ∈ sandboxMounts ptySlave) :
    (∃ s ∈ hostSources ptySlave, m.2 = hostAt s) ∨ ∀ r, (m.2 r).source ≠ .host := by
  rcases List.mem_append.mp hm with hm | hm
  · rcases List.mem_cons.mp hm with rfl | hm
    · exact Or.inl ⟨[procName], List.mem_cons_self, rfl⟩
    · rcases List.mem_append.mp hm with hm | hm
      · rcases List.mem_append.mp hm with hm | hm
        · obtain ⟨dev, hdev, rfl⟩ := List.mem_map.mp hm
          exact Or.inl ⟨_, dev_mem_hostSources hdev ptySlave, rfl⟩
        · refine Or.inr fun r => ?_
          rcases List.mem_cons.mp hm with rfl | hm
          · exact Source.noConfusion
          · rw [List.mem_singleton.mp hm]
            exact Source.noConfusion
      · obtain ⟨slave, hslave, rfl⟩ := List.mem_map.mp hm
        exact Or.inl ⟨slave, List.mem_cons_of_mem _ (List.mem_append_right _ hslave), rfl⟩
  · rw [List.mem_singleton.mp hm]
    exact Or.inr fun r => Source.noConfusion

section Reach

variable {ptySlave : Option FsPath} {ms : List (FsPath × View)} {p : FsPath}

/-- Through the mounts nothing of the host is reached but what is below their sources. -/
theorem host_of_mounts (hms : ∀ m ∈ ms, m ∈ sandboxMounts ptySlave)
    (h : ((View.of .fuse).mounts ms p).source = .host) :
    ∃ s ∈ hostSources ptySlave, s <+: ((View.of .fuse).mounts ms p).path := by
  rw [Space.mounts_apply] at h ⊢
  cases hfind : ms.reverse.find? fun m => m.1 <+: p with
  | none =>
    rw [hfind] at h
    cases h
  | some m =>
    -- the last mount over `p`
    rw [hfind] at h
    have hm : m ∈ sandboxMounts ptySlave :=
      hms m (List.mem_reverse.mp (List.mem_of_find?_eq_some hfind))
    rcases mount_of_source hm with ⟨s, hs, he⟩ | hnot
    · refine ⟨s, hs, ?_⟩
      dsimp only
      rw [he]
      exact List.prefix_append s _
    · exact absurd h (hnot _)

/-- Away from the mounts every path is the FUSE daemon's. -/
theorem fuse_of_mounts (h : ∀ m ∈ ms, ¬ m.1 <+: p) :
    (View.of .fuse).mounts ms p = ⟨.fuse, p⟩ := by
  have hnone : (ms.reverse.find? fun m => m.1 <+: p) = none := by
    refine List.find?_eq_none.mpr fun m hm => ?_
    simpa using h m (List.mem_reverse.mp hm)
  rw [Space.mounts_apply, hnone]
  rfl

end Reach

/-- What holds of the process that executes the command. -/
structure Sealed (env : Env) (payload : SetupPayload) (uid gid : ℕ) (w : Process) : Prop where
  user : w.uid = uid ∧ w.gid = gid ∧ uid ≠ 0 ∧ gid ≠ 0
  fuse : ∀ p, (∀ m ∈ sandboxMounts payload.ptySlave, ¬ m.1 <+: p) → w.view p = ⟨.fuse, p⟩
  host : ∀ p, (w.view p).source = .host →
    ∃ s ∈ hostSources payload.ptySlave, s <+: (w.view p).path
  /-- Also below `/tmp`, which is covered only for the absolute paths. -/
  hereFuse : ∀ r, payload.cwd ≠ [] →
    (∀ m ∈ stackedMounts payload.ptySlave, ¬ m.1 <+: payload.cwd ++ r) →
    w.here r = ⟨.fuse, payload.cwd ++ r⟩
  hereHost : ∀ r, (w.here r).source = .host →
    ∃ s ∈ hostSources payload.ptySlave, s <+: (w.here r).path
  filter : w.filter = some (ALLOW_SYSCALLS.filter env.known)
  dropped : ∀ cap ∈ capabilities, ∀ set, env.result (.dropCap set cap) = none →
    (set, cap) ∈ w.dropped

section Main

variable {env : Env} {payload : SetupPayload} {uid gid : ℕ} {w w' : Process}

/-- **The sandbox is sealed.** The setup process can examine the parent of the mountpoint, and
libseccomp knows what is called under the filter.  If it comes to the command, whichever other
calls have failed, then every path of the command leads to the FUSE daemon, the mounts over it
apart, and of the host it reaches directly only `/proc`, four devices and its own terminal. -/
theorem sealed (hparent : env.parentReadable = true)
    (hknown : ∀ name ∈ laterSyscalls, env.known name = true) (hw : OnHost uid gid w)
    (h : runSetupStage1 env payload w = .ok () w') : Sealed env payload uid gid w' := by
  have hgoes : Goes (OnHost uid gid) _ _ _ := goes_setup env payload hparent hknown
  have hruns : Runs env payload uid gid := (hgoes.returns_iff hw).mp ⟨w', h⟩
  obtain ⟨hfiltered, hdropped⟩ := hgoes.holds hw h
  have hstacked : ∀ m ∈ stackedMounts payload.ptySlave, m ∈ sandboxMounts payload.ptySlave :=
    fun m hm => List.mem_append_left _ hm
  refine ⟨⟨hfiltered.uid, hfiltered.gid, hruns.notRoot⟩, fun p hp => ?_, fun p hp => ?_,
    fun r hcwd hr => ?_, fun r hr => ?_, hfiltered.filter, fun cap hcap set hok => ?_⟩
  · rw [hfiltered.view]
    exact fuse_of_mounts hp
  · rw [hfiltered.view] at hp ⊢
    exact host_of_mounts (fun _ hm => hm) hp
  · rw [hfiltered.here, if_neg hcwd]
    exact fuse_of_mounts hr
  · -- the working directory was entered before `/tmp` was covered
    by_cases hcwd : payload.cwd = []
    · rw [hfiltered.here, if_pos hcwd, hfiltered.view] at hr ⊢
      exact host_of_mounts (fun _ hm => hm) hr
    · rw [hfiltered.here, if_neg hcwd] at hr ⊢
      exact host_of_mounts hstacked hr
  · refine hdropped (set, cap) (List.mem_flatMap.mpr ⟨cap, hcap, ?_⟩) hok
    cases set <;> simp [allSets]

/-- A shell in `/tmp/a`, without a terminal. -/
def shellInTmp : SetupPayload where
  rootfs := [tmpName, Name.b]
  mountpoint := [tmpName, Name.c]
  cwd := [tmpName, Name.a]
  cmdArgv := [ascii "sh"]
  ptySlave := none
  apart := by decide

/-- Every call succeeds, but one capability cannot be dropped; the mount comes in the second
round. -/
def goodEnv : Env where
  result call := if call = .dropCap .effective "CAP_CHOWN" then some 1 else none
  known _ := true
  dirDev := 1
  fuseDev := 2
  parentReadable := true
  polls := [⟨false, true, .ok .stillAlive, false⟩, ⟨true, true, .ok .stillAlive, false⟩]

/-- A user's process. -/
def userProcess : Process where
  uid := 1000
  gid := 1000
  view := View.of .host
  here := View.of .host
  cwd := []
  filter := none
  dropped := []

theorem userProcess_onHost : OnHost 1000 1000 userProcess := ⟨⟨rfl, rfl, rfl, rfl⟩, rfl⟩

theorem shellInTmp_runs : Runs goodEnv shellInTmp 1000 1000 :=
  ⟨by decide, rfl, by decide, by decide +kernel⟩

theorem sealed_shellInTmp : ∃ w', runSetupStage1 goodEnv shellInTmp userProcess = .ok () w' ∧
    Sealed goodEnv shellInTmp 1000 1000 w' := by
  obtain ⟨w', h⟩ := ((goes_setup goodEnv shellInTmp rfl fun _ _ => rfl).returns_iff
    userProcess_onHost).mpr shellInTmp_runs
  exact ⟨w', h, sealed rfl (fun _ _ => rfl) userProcess_onHost h⟩

/-- The parent of the mountpoint cannot be examined, and the daemon has not mounted. -/
def blindEnv : Env :=
  { goodEnv with parentReadable := false, polls := [⟨false, true, .ok .stillAlive, false⟩] }

/-- No device is `u64::MAX`, so the mountpoint passes for mounted, and the command runs on the
files of the host. -/
theorem not_sealed_blind : ∃ w', runSetupStage1 blindEnv shellInTmp userProcess = .ok () w' ∧
    w'.view [Name.a] = ⟨.host, shellInTmp.mountpoint ++ [Name.a]⟩ := by
  have hend : (match runSetupStage1 blindEnv shellInTmp userProcess with
      | .ok () w' => some (w'.view [Name.a])
      | .error _ _ => none) = some ⟨.host, shellInTmp.mountpoint ++ [Name.a]⟩ := by
    decide +kernel
  cases hrun : runSetupStage1 blindEnv shellInTmp userProcess with
  | ok a w' =>
    rw [hrun] at hend
    exact ⟨w', rfl, Option.some.inj hend⟩
  | error e w' =>
    rw [hrun] at hend
    cases hend

/-- **Nothing runs half sealed.** The command is executed exactly when the user is not root, the
daemon mounts and every call succeeds, the dropping of capabilities and the closing of the terminal
apart; if not, `cas run` exits with 1. -/
theorem command_runs_iff (hparent : env.parentReadable = true)
    (hknown : ∀ name ∈ laterSyscalls, env.known name = true) (hw : OnHost uid gid w) :
    (Runs env payload uid gid → ∃ w', runSetupStage1 env payload w = .ok () w') ∧
      (¬ Runs env payload uid gid → ∃ e w', runSetupStage1 env payload w = .error e w' ∧
        waitSetupExit (.ok (exitStatus e)) = 1) := by
  obtain ⟨hok, herror⟩ := goes_setup env payload hparent hknown w hw
  constructor
  · intro h
    obtain ⟨w', hrun, -⟩ := hok h
    exact ⟨w', hrun⟩
  · intro h
    obtain ⟨e, w', hrun⟩ := herror h
    refine ⟨e, w', hrun, ?_⟩
    cases e <;> rfl

theorem command_runs_shellInTmp :
    ∃ w', runSetupStage1 goodEnv shellInTmp userProcess = .ok () w' :=
  (command_runs_iff rfl (fun _ _ => rfl) userProcess_onHost).1 shellInTmp_runs

end Main

end Cas.Isolate
