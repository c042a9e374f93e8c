/-
  Cas.Config.Policy — the policy that a parsed configuration gives
  (`config/config.rs`, `config/policy.rs`).

  Patterns and paths are byte strings; `globset` is a parameter, and
  `GlobLaws` is what its documentation says of a pattern without
  wildcards.  A path under the project root is matched relative to it, any
  other path as it is.

  Main result:
    • `fuseOnly_below_iff` — the blacklist hides what is below the
      directories it matches exactly when it matches their children.
-/
import Cas.Fuse.Decision

namespace Cas

open Cas.Lib Cas.Fuse

/-- The three lists of patterns of a configuration. -/
structure Config where
  whitelist : List Bytes
  blacklist : List Bytes
  disableLog : List Bytes

namespace Config

/-! ## §1. Patterns. -/

/-- `globset`: which patterns parse, which sets build, which path strings a pattern matches. -/
structure Globset where
  parses : Bytes → Bool
  builds : List Bytes → Bool
  isMatch : Bytes → Bytes → Bool

/-- No character with a meaning of its own: `*`, `?`, `[`, `]`, `{`, `}` or a backslash. -/
def Literal (pat : Bytes) : Prop := ∀ b ∈ pat, b ∉ ([42, 63, 91, 93, 123, 125, 92] : List UInt8)

instance (pat : Bytes) : Decidable (Literal pat) :=
  List.decidableBAll (fun b => b ∉ ([42, 63, 91, 93, 123, 125, 92] : List UInt8)) pat

/-- `.sandbox` -/
def SANDBOX : Bytes := [46, 115, 97, 110, 100, 98, 111, 120]

/-- The suffix `/**` -/
def SUBTREE : Bytes := [47, 42, 42]

/-- A match is a match of the whole path.  A literal matches itself, with the suffix `/**` it
matches what is below. -/
structure GlobLaws (g : Globset) : Prop where
  literal : ∀ pat, Literal pat → ∀ path, g.isMatch pat path = true ↔ path = pat
  subtree : ∀ pat, Literal pat → pat ≠ [] → ∀ path,
    g.isMatch (pat ++ SUBTREE) path = true ↔ ∃ rest, path = pat ++ 47 :: rest

/-- `PathBuf::push` -/
def pathPush (base path : Bytes) : Bytes :=
  if path.head? = some 47 then path
  else if base = [] ∨ base.getLast? = some 47 then base ++ path
  else base ++ 47 :: path

/-- A leading `~/` stands for the home directory, if there is one. -/
def expandPath (home : Option Bytes) (pat : Bytes) : Bytes :=
  if [126, 47].isPrefixOf pat then
    match home with
    | some home => pathPush home (pat.drop 2)
    | none => pat
  else pat

/-- The patterns of a set, added one after another. -/
abbrev GlobSet := List Bytes

section Globset

variable (g : Globset)

def buildGlobsetBuilder (home : Option Bytes) (patterns : List Bytes) : Option GlobSet :=
  if (patterns.map (expandPath home)).all g.parses then some (patterns.map (expandPath home)) else none

def build (builder : GlobSet) : Option GlobSet := if g.builds builder then some builder else none

def buildGlobset (home : Option Bytes) (patterns : List Bytes) : Option GlobSet :=
  (buildGlobsetBuilder g home patterns).bind (build g)

/-- `GlobSet::is_match`: some pattern matches. -/
def isMatch (set : GlobSet) (path : Bytes) : Bool := set.any fun pat => g.isMatch pat path

/-- `builder.add(Glob::new(pat)?)` -/
def addGlob (builder : GlobSet) (pat : Bytes) : Option GlobSet :=
  if g.parses pat then some (builder ++ [pat]) else none

end Globset

/-! ## §2. The policy. -/

structure ConfigPolicy where
  root : FsPath
  blacklist : GlobSet
  whitelist : GlobSet
  disableLog : GlobSet
  rootIsWhitelisted : Bool
  cwd : Option FsPath
  cwdIsWhitelisted : Bool

/-- The components, separated by slashes. -/
def relBytes : FsPath → Bytes
  | [] => []
  | [n] => n.bytes
  | n :: m :: rest => n.bytes ++ 47 :: relBytes (m :: rest)

/-- An absolute path as a string. -/
def absBytes (path : FsPath) : Bytes := 47 :: relBytes path

/-- The path below the project root; a path elsewhere is left as it is. -/
def rel (root path : FsPath) : Bytes :=
  if root.isPrefixOf path then relBytes (path.drop root.length) else absBytes path

namespace ConfigPolicy

section Globset

variable (g : Globset)

/-- `.sandbox` is blacklisted, unless the user whitelisted it. -/
def addSandbox (userWhitelist blBuilder : GlobSet) : Option GlobSet :=
  if isMatch g userWhitelist SANDBOX then some blBuilder
  else (addGlob g blBuilder SANDBOX).bind fun builder => addGlob g builder (SANDBOX ++ SUBTREE)

/-- The root and the working directory are passed through, unless the user blacklisted them. -/
def fromConfig (home : Option Bytes) (config : Config) (root : FsPath) (cwd : Option FsPath) :
    Option ConfigPolicy := do
  let userWhitelist ← buildGlobset g home config.whitelist
  let userBlacklist ← buildGlobset g home config.blacklist
  let blBuilder ← buildGlobsetBuilder g home config.blacklist
  let wlBuilder ← buildGlobsetBuilder g home config.whitelist
  let dlBuilder ← buildGlobsetBuilder g home config.disableLog
  let blBuilder ← addSandbox g userWhitelist blBuilder
  let rootIsWhitelisted := !isMatch g userBlacklist [46] && !isMatch g userBlacklist []
  -- asked twice, of the path and of its text
  let cwdIsWhitelisted := match cwd with
    | some p => !isMatch g userBlacklist (absBytes p) && !isMatch g userBlacklist (absBytes p)
    | none => false
  let blacklist ← build g blBuilder
  let whitelist ← build g wlBuilder
  let disableLog ← build g dlBuilder
  pure { root, blacklist, whitelist, disableLog, rootIsWhitelisted, cwd, cwdIsWhitelisted }

variable (policy : ConfigPolicy)

/-- The path lies in the working directory, and that is passed through. -/
def underCwd (path : FsPath) : Bool :=
  policy.cwdIsWhitelisted && policy.cwd.any fun cwd => path == cwd || cwd.isPrefixOf path

def classify (path : FsPath) : AccessMode :=
  let rel := rel policy.root path
  let underRoot := policy.root.isPrefixOf path
  if isMatch g policy.blacklist rel then .fuseOnly
  else if isMatch g policy.whitelist rel then .passthrough
  else if underRoot && policy.rootIsWhitelisted then .passthrough
  else if policy.underCwd path then .passthrough
  else .copyOnWrite

def shouldLog (path : FsPath) : Bool :=
  let rel := rel policy.root path
  let underRoot := policy.root.isPrefixOf path
  if isMatch g policy.blacklist rel then false
  else if isMatch g policy.whitelist rel then false
  else if underRoot && policy.rootIsWhitelisted then false
  else if policy.underCwd path then false
  else if isMatch g policy.disableLog rel then false
  else true

/-- `impl Policy for ConfigPolicy` -/
def toPolicy : Policy where
  classify := policy.classify g
  shouldLog := policy.shouldLog g

end Globset

end ConfigPolicy

/-! ## §3. What the blacklist hides. -/

section Hides

variable {g : Globset} {home : Option Bytes} {config : Config} {root : FsPath}
  {cwd : Option FsPath} {policy : ConfigPolicy}

/-- The user's blacklist matches `path`. -/
def Hides (g : Globset) (home : Option Bytes) (config : Config) (root path : FsPath) : Prop :=
  isMatch g (config.blacklist.map (expandPath home)) (rel root path) = true

instance (path : FsPath) : Decidable (Hides g home config root path) :=
  inferInstanceAs (Decidable (_ = _))

/-- The implicit patterns match `path`: it is `.sandbox` in the root or below that. -/
def HidesSandbox (g : Globset) (home : Option Bytes) (config : Config) (root path : FsPath) : Prop :=
  isMatch g (config.whitelist.map (expandPath home)) SANDBOX = false ∧
    isMatch g [SANDBOX, SANDBOX ++ SUBTREE] (rel root path) = true

theorem buildGlobsetBuilder_some {patterns : List Bytes} {set : GlobSet}
    (h : buildGlobsetBuilder g home patterns = some set) : set = patterns.map (expandPath home) := by
  unfold buildGlobsetBuilder at h
  split at h
  · exact (Option.some.inj h).symm
  · cases h

theorem build_some {builder set : GlobSet} (h : build g builder = some set) : set = builder := by
  unfold build at h
  split at h
  · exact (Option.some.inj h).symm
  · cases h

theorem buildGlobset_some {patterns : List Bytes} {set : GlobSet}
    (h : buildGlobset g home patterns = some set) : set = patterns.map (expandPath home) := by
  obtain ⟨builder, hbuilder, hset⟩ := Option.bind_eq_some_iff.mp h
  rw [build_some hset, buildGlobsetBuilder_some hbuilder]

theorem addGlob_some {builder set : GlobSet} {pat : Bytes} (h : addGlob g builder pat = some set) :
    set = builder ++ [pat] := by
  unfold addGlob at h
  split at h
  · exact (Option.some.inj h).symm
  · cases h

/-- The policy's blacklist is the user's and, unless it is whitelisted, `.sandbox`. -/
theorem fromConfig_blacklist (h : ConfigPolicy.fromConfig g home config root cwd = some policy) :
    policy.root = root ∧ policy.blacklist = config.blacklist.map (expandPath home) ++
      if isMatch g (config.whitelist.map (expandPath home)) SANDBOX then []
      else [SANDBOX, SANDBOX ++ SUBTREE] := by
  unfold ConfigPolicy.fromConfig at h
  simp only [Option.bind_eq_bind, Option.bind_eq_some_iff] at h
  obtain ⟨userWhitelist, hwhite, userBlacklist, -, blBuilder, hbl, wlBuilder, -, dlBuilder, -,
    withSandbox, hsandbox, blacklist, hblacklist, whitelist, -, disableLog, -, hpolicy⟩ := h
  cases hpolicy
  refine ⟨rfl, ?_⟩
  show blacklist = _
  rw [build_some hblacklist, ← buildGlobset_some hwhite, ← buildGlobsetBuilder_some hbl]
  unfold ConfigPolicy.addSandbox at hsandbox
  split at hsandbox
  · next hw =>
    rw [if_pos hw, List.append_nil]
    exact (Option.some.inj hsandbox).symm
  · next hw =>
    obtain ⟨builder, hfirst, hsecond⟩ := Option.bind_eq_some_iff.mp hsandbox
    rw [if_neg hw, addGlob_some hsecond, addGlob_some hfirst, List.append_assoc]
    rfl

theorem classify_fuseOnly (h : ConfigPolicy.fromConfig g home config root cwd = some policy)
    (path : FsPath) : policy.classify g path = .fuseOnly ↔
      Hides g home config root path ∨ HidesSandbox g home config root path := by
  obtain ⟨hroot, hblacklist⟩ := fromConfig_blacklist h
  have hclassify : policy.classify g path = .fuseOnly ↔
      isMatch g policy.blacklist (rel policy.root path) = true := by
    unfold ConfigPolicy.classify
    by_cases hb : isMatch g policy.blacklist (rel policy.root path) = true
    · rw [if_pos hb]
      exact iff_of_true rfl hb
    · rw [if_neg hb]
      refine iff_of_false ?_ hb
      split_ifs <;> nofun
  rw [hclassify, hroot, hblacklist]
  unfold Hides HidesSandbox isMatch
  rw [List.any_append, Bool.or_eq_true]
  cases (config.whitelist.map (expandPath home)).any fun pat => g.isMatch pat SANDBOX <;> simp

theorem relBytes_snoc {p : FsPath} (hp : p ≠ []) (n : Name) :
    relBytes (p ++ [n]) = relBytes p ++ 47 :: n.bytes := by
  induction p with
  | nil => exact absurd rfl hp
  | cons m rest ih =>
    cases rest with
    | nil => rfl
    | cons k rest =>
      show m.bytes ++ 47 :: relBytes ((k :: rest) ++ [n]) = (m.bytes ++ 47 :: relBytes (k :: rest)) ++ _
      rw [ih (List.cons_ne_nil k rest), List.append_assoc]
      rfl

/-- One step down, except onto the root itself. -/
theorem rel_snoc {d : FsPath} {n : Name} (hd : d ≠ []) (hrel : rel root d ≠ [])
    (hroot : root ≠ d ++ [n]) : rel root (d ++ [n]) = rel root d ++ 47 :: n.bytes := by
  by_cases hunder : root <+: d
  · obtain ⟨below, rfl⟩ := hunder
    have hbelow : ∀ q, rel root (root ++ q) = relBytes q := by
      intro q
      unfold rel
      rw [if_pos (List.isPrefixOf_iff_prefix.mpr (List.prefix_append _ _)), List.drop_left]
    rw [hbelow] at hrel
    rw [List.append_assoc, hbelow, hbelow, relBytes_snoc fun hb => hrel (by rw [hb]; rfl)]
  · have hout : ¬ root <+: d ++ [n] := by
      intro hp
      rcases List.prefix_concat_iff.mp hp with he | hp
      · exact hroot he
      · exact hunder hp
    have habs : ∀ {q}, ¬ root <+: q → rel root q = absBytes q := fun hq =>
      if_neg fun hp => hq (List.isPrefixOf_iff_prefix.mp hp)
    rw [habs hunder, habs hout]
    unfold absBytes
    rw [relBytes_snoc hd, List.cons_append]

/-- A literal and what is below it. -/
theorem isMatch_subtree (hg : GlobLaws g) {pat : Bytes} (hlit : Literal pat) (hne : pat ≠ [])
    (path : Bytes) : isMatch g [pat, pat ++ SUBTREE] path = true ↔
      path = pat ∨ ∃ rest, path = pat ++ 47 :: rest := by
  unfold isMatch
  rw [List.any_cons, List.any_cons, List.any_nil, Bool.or_false, Bool.or_eq_true,
    hg.literal _ hlit, hg.subtree _ hlit hne]

/-- Both match the children of what they match. -/
theorem isMatch_subtree_child (hg : GlobLaws g) {pat : Bytes} (hlit : Literal pat) (hne : pat ≠ [])
    {path : Bytes} (h : isMatch g [pat, pat ++ SUBTREE] path = true) (name : Bytes) :
    isMatch g [pat, pat ++ SUBTREE] (path ++ 47 :: name) = true := by
  apply (isMatch_subtree hg hlit hne _).mpr
  rcases (isMatch_subtree hg hlit hne _).mp h with rfl | ⟨rest, rfl⟩
  · exact Or.inr ⟨name, rfl⟩
  · exact Or.inr ⟨rest ++ 47 :: name, by simp⟩

/-- Below a path that the implicit patterns match they match everything. -/
theorem HidesSandbox.child (hg : GlobLaws g) {d : FsPath}
    (h : HidesSandbox g home config root d) (n : Name) :
    HidesSandbox g home config root (d ++ [n]) := by
  have hlit : Literal SANDBOX := by decide
  have hd := (isMatch_subtree hg hlit (by decide) _).mp h.2
  have hne : rel root d ≠ [] := by
    rcases hd with hd | ⟨rest, hd⟩ <;> rw [hd] <;> simp [SANDBOX]
  have hunder : root <+: d := by
    by_contra hunder
    -- outside the root the string starts with a slash
    have habs : rel root d = absBytes d := if_neg fun hp => hunder (List.isPrefixOf_iff_prefix.mp hp)
    rw [habs] at hd
    rcases hd with hd | ⟨rest, hd⟩ <;> exact absurd (List.head_eq_of_cons_eq hd) (by decide)
  have hempty : d ≠ [] := by
    rintro rfl
    obtain rfl := List.prefix_nil.mp hunder
    exact hne rfl
  have hroot : root ≠ d ++ [n] := by
    rintro rfl
    have hlen := hunder.length_le
    rw [List.length_append, List.length_singleton] at hlen
    omega
  refine ⟨h.1, ?_⟩
  rw [rel_snoc hempty hne hroot]
  exact isMatch_subtree_child hg hlit (by decide) h.2 _

/-- **Hidden subtrees**: the blacklist hides all that is below the directories it matches exactly
when it matches their children. -/
theorem fuseOnly_below_iff (hg : GlobLaws g)
    (h : ConfigPolicy.fromConfig g home config root cwd = some policy) :
    (∀ d, Hides g home config root d → ∀ p, Below d p → policy.classify g p = .fuseOnly) ↔
      ∀ d, Hides g home config root d → ∀ n,
        Hides g home config root (d ++ [n]) ∨ HidesSandbox g home config root (d ++ [n]) := by
  simp only [classify_fuseOnly h]
  constructor
  · intro hbelow d hd n
    exact hbelow d hd (d ++ [n]) ⟨List.prefix_append _ _, by simp⟩
  · intro hchild d hd p hp
    -- one step down at a time
    have hstep : ∀ rest, Hides g home config root (d ++ rest) ∨
        HidesSandbox g home config root (d ++ rest) := by
      intro rest
      induction rest using List.reverseRecOn with
      | nil =>
        rw [List.append_nil]
        exact Or.inl hd
      | append_singleton rest n ih =>
        rw [← List.append_assoc]
        rcases ih with ih | ih
        · exact hchild _ ih n
        · exact Or.inr (ih.child hg n)
    obtain ⟨rest, rfl⟩ := hp.1
    exact hstep rest

end Hides

end Config

end Cas
