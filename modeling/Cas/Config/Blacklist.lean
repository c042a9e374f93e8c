/-
  Cas.Config.Blacklist — what blacklisting a directory hides.

  The user's patterns are matched path by path; only `.sandbox` is given a
  pattern for what is below it.

  Main results:
    • `blacklist_hides_subtree` — when everything below the blacklisted
      directories is hidden, and what a sandbox can then read of it,
    • `not_blacklist_hides_subtree` — `/a` hides neither `/a/b` nor what
      it holds,
    • `root_blacklisted_iff` — when a blacklisted root is not passed
      through.
-/
import Cas.Config.Policy
import Cas.Fuse.Rename
import Cas.Fuse.Secrets

namespace Cas.Config

open Cas.Lib Cas.Host Cas.Fuse Cas.Syncing

/-! ## §1. Hidden subtrees. -/

/-- **Blacklisted directories**: everything below them is FuseOnly exactly when their children are
blacklisted; and no reply depends on the files below one of them as long as no request names a
visible path that leads there. -/
theorem blacklist_hides_subtree {g : Globset} (hg : GlobLaws g) {home : Option Bytes}
    {config : Config} {root : FsPath} {cwd : Option FsPath} {policy : ConfigPolicy}
    (h : ConfigPolicy.fromConfig g home config root cwd = some policy) :
    ((∀ d, Hides g home config root d → ∀ p, Below d p → policy.classify g p = .fuseOnly) ↔
      ∀ d, Hides g home config root d → ∀ n,
        Hides g home config root (d ++ [n]) ∨ HidesSandbox g home config root (d ++ [n])) ∧
    ∀ d, Hides g home config root d → ∀ host host' daemon xs,
      FileSystem.Twins (host.FilesBelow d) host host' →
      StepsMeet (serveStep (policy.toPolicy g)) (Veiled (policy.toPolicy g) (host.FilesBelow d))
        (World.mount host daemon) xs →
      replies (policy.toPolicy g) (World.mount host daemon) xs
        = replies (policy.toPolicy g) (World.mount host' daemon) xs :=
  ⟨fuseOnly_below_iff hg h, fun _ _ _ _ daemon _ htwins hveiled =>
    replies_of_veiled (beside_mount htwins daemon) hveiled⟩

/-! ## §2. Two configurations. -/

/-- `globset` for literals and literals with the suffix `/**`. -/
def literalGlobs : Globset where
  parses _ := true
  builds _ := true
  isMatch pat path :=
    if SUBTREE.isSuffixOf pat then pat.dropLast.dropLast.isPrefixOf path else path == pat

theorem literalGlobs_laws : GlobLaws literalGlobs where
  literal pat hpat path := by
    have hno : SUBTREE.isSuffixOf pat = false := by
      rw [Bool.eq_false_iff]
      intro hsuffix
      obtain ⟨rest, rfl⟩ := List.isSuffixOf_iff_suffix.mp hsuffix
      exact hpat 42 (List.mem_append_right _ (by decide)) (by decide)
    show (if SUBTREE.isSuffixOf pat then _ else path == pat) = true ↔ _
    rw [hno]
    exact beq_iff_eq
  subtree pat _ _ path := by
    have hyes : SUBTREE.isSuffixOf (pat ++ SUBTREE) = true :=
      List.isSuffixOf_iff_suffix.mpr (List.suffix_append _ _)
    have hdrop : (pat ++ SUBTREE).dropLast.dropLast = pat ++ [47] := by
      simp [SUBTREE, List.dropLast_append_of_ne_nil]
    show (if SUBTREE.isSuffixOf (pat ++ SUBTREE) then _ else _ : Bool) = true ↔ _
    rw [if_pos hyes, hdrop, List.isPrefixOf_iff_prefix]
    constructor
    · rintro ⟨rest, rfl⟩
      exact ⟨rest, by simp⟩
    · rintro ⟨rest, rfl⟩
      exact ⟨rest, by simp⟩

/-- A project at `/b`, with a blacklist. -/
def policyOf (blacklist : List Bytes) : ConfigPolicy where
  root := [Name.b]
  blacklist := blacklist ++ [SANDBOX, SANDBOX ++ SUBTREE]
  whitelist := []
  disableLog := []
  rootIsWhitelisted := true
  cwd := none
  cwdIsWhitelisted := false

/-- The directory `/a` with the file `/a/b` in it. -/
def nodesWith (data : Bytes) : FMap FsPath Inode :=
  ((Finmap.singleton [] ⟨.dir, ⟨0o755, 0, 0⟩⟩ : FMap FsPath Inode).insert
    [Name.a] ⟨.dir, ⟨0o755, 0, 0⟩⟩).insert [Name.a, Name.b] ⟨.file data, ⟨0o644, 0, 0⟩⟩

def hostWith (data : Bytes) : FileSystem := FileSystem.ofMap (nodesWith data)

theorem twins_hostWith (data data' : Bytes) :
    FileSystem.Twins ((hostWith data).FilesBelow [Name.a]) (hostWith data) (hostWith data') := by
  have hfile : (nodesWith data).lookup [Name.a, Name.b] = some ⟨.file data, ⟨0o644, 0, 0⟩⟩ :=
    Finmap.lookup_insert _
  have hnodes : (nodesWith data).insert [Name.a, Name.b] ⟨.file data', ⟨0o644, 0, 0⟩⟩
      = nodesWith data' := Finmap.insert_insert _
  have key := FileSystem.twins_ofMap (show Below [Name.a] [Name.a, Name.b] by decide) hfile data'
  rw [hnodes] at key
  exact key

/-- `mkdir /a`, then open and read `/a/b`. -/
def readsAB : List (Env × FuseRequest) :=
  [(Env.quiet, .mkdir 1 (.name Name.a) 0o755), (Env.quiet, .lookup 2 (.name Name.b)),
    (Env.quiet, .open 3 ⟨.rdonly, false, false⟩), (Env.quiet, .read 3 1 0 10)]

/-- With `/a/**` beside `/a` all of it is hidden. -/
theorem blacklist_hides_subtree_patterns :
    (∀ p, Below [Name.a] p →
      (policyOf [[47, 97], [47, 97] ++ SUBTREE]).classify literalGlobs p = .fuseOnly) ∧
    replies ((policyOf [[47, 97], [47, 97] ++ SUBTREE]).toPolicy literalGlobs)
        (World.mount (hostWith [115]) (Server.init "s")) readsAB
      = replies ((policyOf [[47, 97], [47, 97] ++ SUBTREE]).toPolicy literalGlobs)
        (World.mount (hostWith [116]) (Server.init "s")) readsAB := by
  have hlit : Literal [47, 97] := by decide
  have hconfig : ConfigPolicy.fromConfig literalGlobs none
      ⟨[], [[47, 97], [47, 97] ++ SUBTREE], []⟩ [Name.b] none
        = some (policyOf [[47, 97], [47, 97] ++ SUBTREE]) := rfl
  obtain ⟨hbelow, hreads⟩ := blacklist_hides_subtree literalGlobs_laws hconfig
  refine ⟨hbelow.mpr (fun d hd n => ?_) [Name.a] (by decide), hreads [Name.a] (by decide) _ _ _ _
    (twins_hostWith _ _) ?_⟩
  · left
    have hmatch : isMatch literalGlobs [[47, 97], [47, 97] ++ SUBTREE] (rel [Name.b] d) = true := hd
    have hstart := (isMatch_subtree literalGlobs_laws hlit (by decide) _).mp hmatch
    have hempty : d ≠ [] := by
      rintro rfl
      revert hd
      decide
    have hrel : rel [Name.b] d ≠ [] := by
      rcases hstart with h | ⟨rest, h⟩ <;> rw [h] <;> simp
    have hroot : [Name.b] ≠ d ++ [n] := by
      intro he
      cases d with
      | nil => exact hempty rfl
      | cons m rest => simpa using congrArg List.length he
    show isMatch literalGlobs [[47, 97], [47, 97] ++ SUBTREE] (rel [Name.b] (d ++ [n])) = true
    rw [rel_snoc hempty hrel hroot]
    exact isMatch_subtree_child literalGlobs_laws hlit (by decide) hmatch _
  · have hfuse : StepsMeet (serveStep ((policyOf [[47, 97], [47, 97] ++ SUBTREE]).toPolicy literalGlobs))
        (fun w x => (x.2.subject w.inodes).all (fun p => ((policyOf [[47, 97],
          [47, 97] ++ SUBTREE]).toPolicy literalGlobs).classify p == .fuseOnly) = true)
        (World.mount (hostWith [115]) (Server.init "s")) readsAB := by decide
    apply hfuse.imp_of_guarded (I := fun _ => True) (fun _ _ _ _ _ _ => trivial) _ trivial
    intro w x _ hall path hpath hvis
    rw [hpath] at hall
    exact absurd (beq_iff_eq.mp hall) hvis

/-- **`/a` alone**: `/a/b` is CopyOnWrite, and after `mkdir /a` it can be read. -/
theorem not_blacklist_hides_subtree :
    ¬ (∀ g, GlobLaws g → ∀ home config root cwd policy,
      ConfigPolicy.fromConfig g home config root cwd = some policy →
      ∀ d, Hides g home config root d → ∀ p, Below d p → policy.classify g p = .fuseOnly) ∧
    ¬ (∀ g, GlobLaws g → ∀ home config root cwd policy,
      ConfigPolicy.fromConfig g home config root cwd = some policy →
      ∀ d, Hides g home config root d → ∀ host host' daemon xs,
      FileSystem.Twins (host.FilesBelow d) host host' →
      replies (policy.toPolicy g) (World.mount host daemon) xs
        = replies (policy.toPolicy g) (World.mount host' daemon) xs) := by
  have hconfig : ConfigPolicy.fromConfig literalGlobs none ⟨[], [[47, 97]], []⟩ [Name.b] none
      = some (policyOf [[47, 97]]) := rfl
  have hhides : Hides literalGlobs none ⟨[], [[47, 97]], []⟩ [Name.b] [Name.a] := by decide
  constructor
  · intro h
    have key := h _ literalGlobs_laws _ _ _ _ _ hconfig _ hhides [Name.a, Name.b] (by decide)
    have hclass : (policyOf [[47, 97]]).classify literalGlobs [Name.a, Name.b] = .copyOnWrite := by
      decide
    rw [hclass] at key
    cases key
  · intro h
    have key := h _ literalGlobs_laws _ _ _ _ _ hconfig _ hhides (hostWith [115]) (hostWith [116])
      (Server.init "s") readsAB (twins_hostWith _ _)
    revert key
    decide

/-! ## §3. A blacklisted root. -/

section Root

variable {g : Globset} {home : Option Bytes} {config : Config} {root : FsPath}
  {cwd : Option FsPath} {policy : ConfigPolicy}

/-- The user's blacklist matches the root, as `.` or as the empty path. -/
def HidesRoot (g : Globset) (home : Option Bytes) (config : Config) : Prop :=
  isMatch g (config.blacklist.map (expandPath home)) [46] = true ∨
    isMatch g (config.blacklist.map (expandPath home)) [] = true

instance : Decidable (HidesRoot g home config) := inferInstanceAs (Decidable (_ ∨ _))

/-- The user's whitelist matches `path`. -/
def Shows (g : Globset) (home : Option Bytes) (config : Config) (root path : FsPath) : Prop :=
  isMatch g (config.whitelist.map (expandPath home)) (rel root path) = true

instance (path : FsPath) : Decidable (Shows g home config root path) :=
  inferInstanceAs (Decidable (_ = _))

/-- `path` lies in a working directory whose absolute path the user's blacklist does not match. -/
def InFreeCwd (g : Globset) (home : Option Bytes) (config : Config) (cwd : Option FsPath)
    (path : FsPath) : Prop :=
  ∃ c ∈ cwd, c <+: path ∧ isMatch g (config.blacklist.map (expandPath home)) (absBytes c) = false

instance (path : FsPath) : Decidable (InFreeCwd g home config cwd path) :=
  inferInstanceAs (Decidable (∃ c ∈ cwd, _ ∧ _))

/-- What the implicit rules go by. -/
theorem fromConfig_implicit (h : ConfigPolicy.fromConfig g home config root cwd = some policy) :
    policy.whitelist = config.whitelist.map (expandPath home) ∧ policy.cwd = cwd ∧
      (policy.rootIsWhitelisted = true ↔ ¬ HidesRoot g home config) ∧
      ∀ c ∈ cwd, policy.cwdIsWhitelisted =
        !isMatch g (config.blacklist.map (expandPath home)) (absBytes c) := by
  unfold ConfigPolicy.fromConfig at h
  simp only [Option.bind_eq_bind, Option.bind_eq_some_iff] at h
  obtain ⟨userWhitelist, hwhite, userBlacklist, hblack, blBuilder, -, wlBuilder, hwl, dlBuilder, -,
    withSandbox, -, blacklist, -, whitelist, hwhitelist, disableLog, -, hpolicy⟩ := h
  cases hpolicy
  have hset := buildGlobset_some hblack
  refine ⟨(build_some hwhitelist).trans (buildGlobsetBuilder_some hwl), rfl, ?_, ?_⟩
  · show (!isMatch g userBlacklist [46] && !isMatch g userBlacklist []) = true ↔ _
    rw [hset]
    unfold HidesRoot
    rw [Bool.and_eq_true, Bool.not_eq_true', Bool.not_eq_true', not_or, Bool.not_eq_true,
      Bool.not_eq_true]
  · intro c hc
    cases hc
    show (!isMatch g userBlacklist (absBytes c) && !isMatch g userBlacklist (absBytes c)) = _
    rw [hset, Bool.and_self]

theorem underCwd_iff (h : ConfigPolicy.fromConfig g home config root cwd = some policy)
    (path : FsPath) : policy.underCwd path = true ↔ InFreeCwd g home config cwd path := by
  obtain ⟨-, hcwd, -, hfree⟩ := fromConfig_implicit h
  unfold ConfigPolicy.underCwd InFreeCwd
  rw [hcwd]
  cases cwd with
  | none => simp
  | some c =>
    rw [hfree c rfl]
    simp only [Option.any_some, Bool.and_eq_true, Bool.not_eq_true', Bool.or_eq_true, beq_iff_eq,
      List.isPrefixOf_iff_prefix, Option.mem_some_iff, exists_eq_left']
    constructor
    · rintro ⟨hmatch, rfl | hc⟩
      · exact ⟨List.prefix_rfl, hmatch⟩
      · exact ⟨hc, hmatch⟩
    · rintro ⟨hc, hmatch⟩
      exact ⟨hmatch, Or.inr hc⟩

/-- **A blacklisted root is not passed through**, except what lies in a working directory that is
not blacklisted under its own name. -/
theorem root_blacklisted_iff (h : ConfigPolicy.fromConfig g home config root cwd = some policy)
    (hroot : HidesRoot g home config) {path : FsPath}
    (hwhite : ¬ Shows g home config root path) :
    policy.classify g path ≠ .passthrough ↔
      Hides g home config root path ∨ HidesSandbox g home config root path ∨
        ¬ InFreeCwd g home config cwd path := by
  obtain ⟨hwhitelist, -, himplicit, -⟩ := fromConfig_implicit h
  by_cases hhidden : policy.classify g path = .fuseOnly
  · rw [hhidden]
    refine iff_of_true nofun ?_
    rcases (classify_fuseOnly h path).mp hhidden with hb | hs
    · exact Or.inl hb
    · exact Or.inr (Or.inl hs)
  · have hnot := fun hb => hhidden ((classify_fuseOnly h path).mpr hb)
    -- neither the whitelist nor the root's rule applies
    have hclassify : policy.classify g path
        = if policy.underCwd path then .passthrough else .copyOnWrite := by
      have hw : isMatch g policy.whitelist (rel policy.root path) = false := by
        rw [hwhitelist, (fromConfig_blacklist h).1]
        exact Bool.eq_false_iff.mpr hwhite
      have hr : policy.rootIsWhitelisted = false :=
        Bool.eq_false_iff.mpr fun hr => himplicit.mp hr hroot
      have hb : isMatch g policy.blacklist (rel policy.root path) = false := by
        rw [Bool.eq_false_iff]
        intro hb
        apply hhidden
        unfold ConfigPolicy.classify
        rw [if_pos hb]
      unfold ConfigPolicy.classify
      simp [hb, hw, hr]
    rw [hclassify, ← underCwd_iff h path]
    cases policy.underCwd path with
    | true =>
      refine iff_of_false (fun hne => hne rfl) ?_
      rintro (hb | hs | hc)
      · exact hnot (Or.inl hb)
      · exact hnot (Or.inr hs)
      · exact hc rfl
    | false => exact iff_of_true nofun (Or.inr (Or.inr nofun))

end Root

/-- The pattern `.` with the working directory elsewhere. -/
theorem root_blacklisted_elsewhere :
    (⟨[Name.b], [[46], SANDBOX, SANDBOX ++ SUBTREE], [], [], false, some [Name.c], true⟩
        : ConfigPolicy).classify literalGlobs [Name.b, Name.a] ≠ .passthrough := by
  have hconfig : ConfigPolicy.fromConfig literalGlobs none ⟨[], [[46]], []⟩ [Name.b] (some [Name.c])
      = some ⟨[Name.b], [[46], SANDBOX, SANDBOX ++ SUBTREE], [], [], false, some [Name.c], true⟩ :=
    rfl
  -- the path is not under the working directory
  have hfree : ¬ InFreeCwd literalGlobs none ⟨[], [[46]], []⟩ (some [Name.c]) [Name.b, Name.a] := by
    decide
  exact (root_blacklisted_iff hconfig (by decide) (by decide)).mpr (Or.inr (Or.inr hfree))

/-- With the working directory at the root, as it is by default, the pattern `.` does nothing. -/
theorem not_root_blacklisted_default_cwd :
    ¬ ∀ g, GlobLaws g → ∀ home config root cwd policy,
      ConfigPolicy.fromConfig g home config root cwd = some policy →
      HidesRoot g home config → ∀ path, root <+: path → ¬ Shows g home config root path →
      policy.classify g path ≠ .passthrough := by
  intro h
  have hconfig : ConfigPolicy.fromConfig literalGlobs none ⟨[], [[46]], []⟩ [Name.b] (some [Name.b])
      = some ⟨[Name.b], [[46], SANDBOX, SANDBOX ++ SUBTREE], [], [], false, some [Name.b], true⟩ :=
    rfl
  exact h _ literalGlobs_laws _ _ _ _ _ hconfig (by decide) [Name.b, Name.a] (by decide) (by decide)
    (by decide)

end Cas.Config
