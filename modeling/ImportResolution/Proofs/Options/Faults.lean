import ImportResolution.Proofs.Options.Aliases
import ImportResolution.Proofs.Options.Roots

/-!
# Why settings cannot be normalized

Three things can be wrong: the working directory is gone, an entry of the roots is a pattern
that cannot be read, or an alias has no text for its value or a pattern that cannot be
compiled. They are looked at in this order and each list from its beginning, so it is always
the first fault that is reported (`Options.FirstFault`).

`Options.ofSettings_eq_error_iff` says that there is no other way to fail, and that otherwise
every alias has become one rule.
-/

namespace ImportResolution

namespace Glob

/-- Whether a pattern is refused is decided before anything is looked up. -/
theorem directories_eq_error_iff (host : Host) {pattern : Path} {error : Error} :
    directories host pattern = .error error ↔ segments pattern = .error error := by
  rw [directories, bind_eq_error_iff]
  simp [pure, Except.pure]

end Glob

namespace AliasRule

variable {key value : Text} {error : ConfigError}

theorem compile_eq_error_iff {pattern : Text} {substitution : Substitution} :
    compile pattern substitution = .error error ↔
      ∃ fault, Regex.compile pattern = .error fault ∧ error = .invalidAlias pattern fault := by
  unfold compile
  cases compiled : Regex.compile pattern with
  | error fault => simp [eq_comm]
  | ok regex => simp

/-- There is no rule for a key exactly when its pattern cannot be compiled. -/
theorem ofEntry_eq_error_iff :
    ofEntry key value = .error error ↔
      ∃ fault, Regex.compile (keyPattern key) = .error fault ∧
        error = .invalidAlias (keyPattern key) fault := by
  unfold ofEntry keyPattern
  split
  · exact compile_eq_error_iff
  · exact compile_eq_error_iff

end AliasRule

namespace Options

variable {host : Host} {settings : Settings} {file cwd : Path} {error : ConfigError}

/-! ## Entries of the roots -/

/-- A pattern for roots that cannot be read, taken from a directory as it is. -/
def IsBadRoot (cwd : Path) (entry : Text) : Prop :=
  Glob.hasWildcard entry = true ∧ ∃ fault, Glob.segments (cwd.absoluteFrom entry) = .error fault

theorem entryDirectories_eq_error_iff {entry : Text} :
    entryDirectories host cwd entry = .error error ↔
      Glob.hasWildcard entry = true ∧
        ∃ fault, Glob.segments (cwd.absoluteFrom entry) = .error fault ∧
          error = .invalidRootGlob entry fault := by
  unfold entryDirectories
  cases pattern : Glob.hasWildcard entry with
  | false => simp
  | true =>
      simp only [if_true, true_and, ← Glob.directories_eq_error_iff host]
      cases expanded : Glob.directories host (cwd.absoluteFrom entry) with
      | error fault => simp [eq_comm]
      | ok found => simp

theorem fails_entryDirectories_iff {entry : Text} :
    Fails (entryDirectories host cwd entry) ↔ IsBadRoot cwd entry := by
  simp [Fails, IsBadRoot, entryDirectories_eq_error_iff]

theorem rootDirectories_eq_mapM (entries : List Text) :
    rootDirectories host cwd entries =
      (entries.mapM (entryDirectories host cwd)).map List.flatten := by
  induction entries with
  | nil => rfl
  | cons entry entries ih =>
      rw [rootDirectories, ih, List.mapM_cons]
      cases entryDirectories host cwd entry with
      | error error => rfl
      | ok found => cases entries.mapM (entryDirectories host cwd) <;> rfl

theorem rootDirectories_eq_error_iff {entries : List Text} :
    rootDirectories host cwd entries = .error error ↔
      ∃ entry fault, IsFirst entries (IsBadRoot cwd) entry ∧
        Glob.segments (cwd.absoluteFrom entry) = .error fault ∧
        error = .invalidRootGlob entry fault := by
  have sameFirst : (fun entry => Fails (entryDirectories host cwd entry)) = IsBadRoot cwd :=
    funext fun entry => propext fails_entryDirectories_iff
  have failsAsWhole : rootDirectories host cwd entries = .error error ↔
      entries.mapM (entryDirectories host cwd) = .error error := by
    rw [rootDirectories_eq_mapM]
    cases entries.mapM (entryDirectories host cwd) <;> simp [Except.map]
  rw [failsAsWhole, mapM_eq_error_iff, sameFirst]
  constructor
  · rintro ⟨entry, first, failed⟩
    rcases entryDirectories_eq_error_iff.mp failed with ⟨-, fault, refused, isError⟩
    exact ⟨entry, fault, first, refused, isError⟩
  · rintro ⟨entry, fault, first, refused, isError⟩
    refine ⟨entry, first, entryDirectories_eq_error_iff.mpr ⟨?_, fault, refused, isError⟩⟩
    rcases first with ⟨_, _, -, bad, -⟩
    exact bad.1

theorem exists_rootDirectories_iff (host : Host) {entries : List Text} :
    (∃ roots, rootDirectories host cwd entries = .ok roots) ↔
      ∀ entry ∈ entries, ¬IsBadRoot cwd entry := by
  have succeedsAsWhole : (∃ roots, rootDirectories host cwd entries = .ok roots) ↔
      ∃ found, entries.mapM (entryDirectories host cwd) = .ok found := by
    rw [rootDirectories_eq_mapM]
    cases entries.mapM (entryDirectories host cwd) <;> simp [Except.map]
  rw [succeedsAsWhole, exists_mapM_eq_ok_iff]
  simp only [fails_entryDirectories_iff]

/-! ## Aliases -/

/-- An alias without a text for its value, or with a pattern that cannot be compiled. -/
def IsBadAlias (entry : Text × Json) : Prop :=
  entry.2.asString? = none ∨
    ∃ fault, Regex.compile (AliasRule.keyPattern entry.1) = .error fault

/-- The error about an alias whose value is no text. -/
def notText (key : Text) : ConfigError :=
  .other ("alias `".toList ++ key ++ "` must map to a string".toList)

theorem aliasRule_eq_ok_iff {key : Text} {value : Json} {rule : AliasRule} :
    aliasRule key value = .ok rule ↔
      ∃ replacement, value.asString? = some replacement ∧
        AliasRule.ofEntry key replacement = .ok rule := by
  unfold aliasRule
  cases value.asString? with
  | none => simp
  | some replacement => simp

theorem aliasRule_eq_error_iff {key : Text} {value : Json} :
    aliasRule key value = .error error ↔
      value.asString? = none ∧ error = notText key ∨
        value.asString? ≠ none ∧
          ∃ fault, Regex.compile (AliasRule.keyPattern key) = .error fault ∧
            error = .invalidAlias (AliasRule.keyPattern key) fault := by
  unfold aliasRule
  cases text : value.asString? with
  | none => simp [notText, eq_comm]
  | some replacement => simp [AliasRule.ofEntry_eq_error_iff]

theorem fails_aliasRule_iff {entry : Text × Json} :
    Fails (aliasRule entry.1 entry.2) ↔ IsBadAlias entry := by
  simp only [Fails, IsBadAlias, aliasRule_eq_error_iff]
  cases text : entry.2.asString? with
  | none => simp
  | some replacement => simp

theorem aliasRules_eq_error_iff {entries : Json.Members Json} :
    aliasRules entries = .error error ↔
      ∃ key value, IsFirst entries IsBadAlias (key, value) ∧
        aliasRule key value = .error error := by
  have sameFirst : (fun entry : Text × Json => Fails (aliasRule entry.1 entry.2)) = IsBadAlias :=
    funext fun entry => propext fails_aliasRule_iff
  rw [aliasRules_eq_mapM, mapM_eq_error_iff, sameFirst, Prod.exists]

theorem exists_aliasRules_iff {entries : Json.Members Json} :
    (∃ rules, aliasRules entries = .ok rules) ↔ ∀ entry ∈ entries, ¬IsBadAlias entry := by
  rw [aliasRules_eq_mapM, exists_mapM_eq_ok_iff]
  simp only [fails_aliasRule_iff]

/-! ## Settings -/

/-- The directory from which the host takes relative paths of the settings. -/
def IsBase (host : Host) (settings : Settings) (file cwd : Path) : Prop :=
  ∃ current, host.currentDirectory = .ok current ∧
    baseDirectory host current (current.absoluteFrom file) settings.cwd = cwd

/-- The error about the first thing that is wrong with settings. -/
inductive FirstFault (host : Host) (settings : Settings) (file : Path) : ConfigError → Prop
  | gone {error : FileError} (missing : host.currentDirectory = .error error) :
      FirstFault host settings file (.io error)
  | root {cwd : Path} {entry : Text} {fault : Glob.Error}
      (base : IsBase host settings file cwd)
      (first : IsFirst settings.root (IsBadRoot cwd) entry)
      (refused : Glob.segments (cwd.absoluteFrom entry) = .error fault) :
      FirstFault host settings file (.invalidRootGlob entry fault)
  | aliasValue {cwd : Path} {key : Text} {value : Json}
      (base : IsBase host settings file cwd)
      (rootsGood : ∀ entry ∈ settings.root, ¬IsBadRoot cwd entry)
      (first : IsFirst settings.aliases IsBadAlias (key, value))
      (noText : value.asString? = none) :
      FirstFault host settings file (notText key)
  | aliasPattern {cwd : Path} {key : Text} {value : Json} {fault : Regex.Error}
      (base : IsBase host settings file cwd)
      (rootsGood : ∀ entry ∈ settings.root, ¬IsBadRoot cwd entry)
      (first : IsFirst settings.aliases IsBadAlias (key, value))
      (isText : value.asString? ≠ none)
      (refused : Regex.compile (AliasRule.keyPattern key) = .error fault) :
      FirstFault host settings file (.invalidAlias (AliasRule.keyPattern key) fault)

theorem fromBase_eq_error_iff :
    fromBase host settings cwd = .error error ↔
      rootDirectories host cwd settings.root = .error error ∨
        (∀ entry ∈ settings.root, ¬IsBadRoot cwd entry) ∧
          aliasRules settings.aliases = .error error := by
  rw [fromBase, bind_eq_error_iff, ← exists_rootDirectories_iff host]
  simp [bind_eq_error_iff, pure, Except.pure]

theorem exists_fromBase_iff :
    (∃ options, fromBase host settings cwd = .ok options) ↔
      (∀ entry ∈ settings.root, ¬IsBadRoot cwd entry) ∧
        ∀ entry ∈ settings.aliases, ¬IsBadAlias entry := by
  rw [← exists_rootDirectories_iff host, ← exists_aliasRules_iff, fromBase]
  constructor
  · rintro ⟨options, succeeds⟩
    rcases exists_of_bind_eq_ok succeeds with ⟨roots, expanded, succeeds⟩
    rcases exists_of_bind_eq_ok succeeds with ⟨rules, compiled, -⟩
    exact ⟨⟨roots, expanded⟩, rules, compiled⟩
  · rintro ⟨⟨roots, expanded⟩, rules, compiled⟩
    rw [expanded, compiled]
    exact ⟨_, rfl⟩

theorem isBase_iff {current : Path} (launched : host.currentDirectory = .ok current) :
    IsBase host settings file cwd ↔
      cwd = baseDirectory host current (current.absoluteFrom file) settings.cwd := by
  simp [IsBase, launched, eq_comm]

/-- Below a base directory, the fault that is reported is the first one. -/
theorem firstFault_iff_fromBase (base : IsBase host settings file cwd) :
    FirstFault host settings file error ↔ fromBase host settings cwd = .error error := by
  rcases base with ⟨current, launched, isBase⟩
  -- A fault may name its own base directory, but there is only one.
  have sameBase {other : Path} (otherBase : IsBase host settings file other) : other = cwd := by
    rw [← isBase, (isBase_iff launched).mp otherBase]
  rw [fromBase_eq_error_iff, rootDirectories_eq_error_iff, aliasRules_eq_error_iff]
  constructor
  · intro fault
    cases fault with
    | gone missing => simp [launched] at missing
    | root otherBase first refused =>
        cases sameBase otherBase
        exact Or.inl ⟨_, _, first, refused, rfl⟩
    | aliasValue otherBase rootsGood first noText =>
        cases sameBase otherBase
        exact Or.inr ⟨rootsGood, _, _, first, aliasRule_eq_error_iff.mpr (Or.inl ⟨noText, rfl⟩)⟩
    | aliasPattern otherBase rootsGood first isText refused =>
        cases sameBase otherBase
        exact Or.inr ⟨rootsGood, _, _, first,
          aliasRule_eq_error_iff.mpr (Or.inr ⟨isText, _, refused, rfl⟩)⟩
  · have base : IsBase host settings file cwd := ⟨current, launched, isBase⟩
    rintro (⟨entry, fault, first, refused, rfl⟩ | ⟨rootsGood, key, value, first, failed⟩)
    · exact .root base first refused
    · rcases aliasRule_eq_error_iff.mp failed with ⟨noText, rfl⟩ | ⟨isText, fault, refused, rfl⟩
      · exact .aliasValue base rootsGood first noText
      · exact .aliasPattern base rootsGood first isText refused

/--
Settings are refused exactly with the error about the first thing that is wrong with them,
and there are options exactly when nothing is. Then every alias has become one rule.
-/
theorem ofSettings_eq_error_iff (host : Host) (settings : Settings) (file : Path) :
    (∀ error, ofSettings host settings file = .error error ↔
      FirstFault host settings file error) ∧
    ((∃ options, ofSettings host settings file = .ok options) ↔
      ∃ cwd, IsBase host settings file cwd ∧ (∀ entry ∈ settings.root, ¬IsBadRoot cwd entry) ∧
        ∀ entry ∈ settings.aliases, ¬IsBadAlias entry) ∧
    ∀ options, ofSettings host settings file = .ok options →
      List.Forall₂ (fun entry rule => ∃ replacement, entry.2.asString? = some replacement ∧
        AliasRule.ofEntry entry.1 replacement = .ok rule) settings.aliases options.aliases := by
  refine ⟨?_, ?_, ?_⟩
  · intro error
    cases launched : host.currentDirectory with
    | error missing =>
        rw [ofSettings, launched, Except.error.injEq]
        constructor
        · rintro rfl
          exact .gone launched
        · intro fault
          cases fault with
          | gone otherwise => rw [launched] at otherwise; cases otherwise; rfl
          | root base | aliasValue base | aliasPattern base =>
              rcases base with ⟨current, otherwise, -⟩
              rw [launched] at otherwise
              contradiction
    | ok current =>
        rw [ofSettings_eq_fromBase launched]
        exact (firstFault_iff_fromBase ⟨current, launched, rfl⟩).symm
  · constructor
    · rintro ⟨options, succeeds⟩
      rcases exists_of_ofSettings succeeds with ⟨current, launched, taken⟩
      exact ⟨_, ⟨current, launched, rfl⟩, exists_fromBase_iff.mp ⟨options, taken⟩⟩
    · rintro ⟨cwd, ⟨current, launched, rfl⟩, good⟩
      rw [ofSettings_eq_fromBase launched]
      exact exists_fromBase_iff.mpr good
  · intro options succeeds
    have rules := aliasRules_eq_ok_iff.mp (aliasRules_of_ofSettings succeeds)
    simpa only [aliasRule_eq_ok_iff] using rules

/-- Settings in which both lists have something bad behind something good. -/
def faulty : Settings where
  root := ["w?".toList, "**a".toList]
  aliases := [("b".toList, .string "a".toList), ("c".toList, .null), ("^(".toList, .string [])]

theorem ofSettings_faulty :
    ofSettings (questionHost []) faulty "f".toList =
        .error (.invalidRootGlob "**a".toList ⟨3, .recursiveWildcards⟩) ∧
      ofSettings (questionHost []) { faulty with root := [] } "f".toList =
        .error (notText "c".toList) ∧
      ∃ options rule,
        ofSettings (questionHost []) { aliases := faulty.aliases.take 1 } "f".toList =
          .ok options ∧
        options.aliases = [rule] ∧ AliasRule.ofEntry "b".toList "a".toList = .ok rule := by
  have base (settings : Settings) (here : settings.cwd = none) :
      IsBase (questionHost []) settings "f".toList "/".toList :=
    ⟨"/".toList, rfl, by rw [here]; rfl⟩
  have good : ¬IsBadAlias ("b".toList, .string "a".toList) := by
    have compiles : (Regex.compile (AliasRule.keyPattern "b".toList)).isOk = true := by
      decide +kernel
    rintro (noText | ⟨fault, refused⟩)
    · contradiction
    · rw [refused] at compiles
      contradiction
  refine ⟨?_, ?_, ?_⟩
  · apply ((ofSettings_eq_error_iff _ _ _).1 _).mpr
    refine .root (base _ rfl) ⟨["w?".toList], [], rfl, ⟨by decide, _, rfl⟩, ?_⟩ (by decide)
    exact List.forall_mem_singleton.mpr (by rintro ⟨-, fault, refused⟩; contradiction)
  · have noText : Json.null.asString? = none := rfl
    apply ((ofSettings_eq_error_iff _ _ _).1 _).mpr
    refine .aliasValue (base _ rfl) nofun ⟨[_], [_], rfl, Or.inl noText, ?_⟩ noText
    simpa using good
  · rcases ofSettings_eq_error_iff (questionHost [])
      { aliases := faulty.aliases.take 1 } "f".toList with ⟨-, succeeds, rules⟩
    rcases succeeds.mpr ⟨_, base _ rfl, nofun, by simpa [faulty] using good⟩ with
      ⟨options, isOptions⟩
    rcases List.forall₂_cons_left_iff.mp (rules options isOptions) with
      ⟨rule, others, ⟨_, ⟨rfl⟩, isRule⟩, none, isRules⟩
    cases none
    exact ⟨options, rule, isOptions, isRules, isRule⟩

end Options

end ImportResolution
