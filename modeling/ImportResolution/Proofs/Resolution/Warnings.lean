import ImportResolution.Proofs.Resolution.AliasTarget

/-!
# Answers and warnings

The mode, and what the locator says about the target of an alias, decide on one warning
and on nothing else. `Options.resolve_only_warns` puts this together: two runs that differ
in them have the same answer, and a warning is given exactly when outside production the
first alias that matches has a target that is looked up and not found
(`Options.LacksTarget`).
-/

namespace ImportResolution

namespace Options

variable {options : Options} {locator : Locator} {current file : Path} {specifier : Specifier}

/-- The question whether the target exists that the first alias has for a specifier. -/
def IsTargetQuery (options : Options) (file : Path) (specifier : Specifier) (query : Query) :
    Prop :=
  ∃ target, options.IsFirstTarget specifier target ∧ target ≠ [] ∧
    Specifier.isRelative target = false ∧
    query = ⟨target, file.parentOrSelf, options.extensions⟩

/-- Outside production, the first alias has a target that is looked up and not found. -/
structure LacksTarget (options : Options) (locator : Locator) (file : Path)
    (specifier : Specifier) (target : Text) : Prop where
  not_production : options.mode ≠ .production
  not_relative : specifier.isRelative = false
  first : options.IsFirstTarget specifier target
  nonempty : target ≠ []
  target_not_relative : Specifier.isRelative target = false
  unanswered : locator target file.parentOrSelf options.extensions = none

/-! ## Two runs with the same answer -/

theorem resolution_setMode (mode : Mode) :
    ((options.setMode mode).resolve locator current specifier file).resolution =
      (options.resolve locator current specifier file).resolution := by
  cases relative : specifier.isRelative with
  | true => simp [resolve, relative, Outcome.unchanged]
  | false =>
      -- Neither the aliases nor the candidates after them depend on the mode.
      rcases exists_target_or_passesAliases options relative with
        ⟨target, first, nonempty⟩ | passes
      · have firstInMode : (options.setMode mode).IsFirstTarget specifier target := first
        rw [resolve_of_target relative first nonempty,
          resolve_of_target relative firstInMode nonempty]
        rfl
      · have passesInMode : (options.setMode mode).PassesAliases specifier :=
          ⟨relative, passes.no_target⟩
        rw [passes.resolve_eq_search, passesInMode.resolve_eq_search]
        rfl

theorem resolution_congr {other : Locator}
    (agree : ∀ query, ¬options.IsTargetQuery (current.absoluteFrom file) specifier query →
      other.answer query = locator.answer query) :
    (options.resolve other current specifier file).resolution =
      (options.resolve locator current specifier file).resolution := by
  cases relative : specifier.isRelative with
  | true => simp [resolve, relative, Outcome.unchanged]
  | false =>
      rcases exists_target_or_passesAliases options relative with
        ⟨target, first, nonempty⟩ | passes
      · rw [resolve_of_target relative first nonempty, resolve_of_target relative first nonempty]
      · have noTargetQuery : ∀ query,
            ¬options.IsTargetQuery (current.absoluteFrom file) specifier query := by
          rintro query ⟨target, first, nonempty, -⟩
          exact nonempty (passes.no_target target first)
        have sameSearch : Attempt.search other
            (options.laterCandidates (current.absoluteFrom file) specifier) =
            Attempt.search locator
              (options.laterCandidates (current.absoluteFrom file) specifier) :=
          Attempt.search_congr fun query _ => agree query (noTargetQuery query)
        rw [passes.resolve_eq_search, passes.resolve_eq_search, sameSearch]

/-! ## The one warning -/

theorem LacksTarget.warnings_eq {target : Text}
    (lacks : options.LacksTarget locator (current.absoluteFrom file) specifier target) :
    (options.resolve locator current specifier file).warnings =
      [⟨.unresolvedAliasTarget, target, current.absoluteFrom file⟩] := by
  rw [resolve_of_target lacks.not_relative lacks.first lacks.nonempty]
  simp [targetWarnings, targetQueries, lacks.target_not_relative, lacks.not_production,
    Locator.answer, lacks.unanswered]

theorem warnings_eq_nil
    (noneLacks : ∀ target,
      ¬options.LacksTarget locator (current.absoluteFrom file) specifier target) :
    (options.resolve locator current specifier file).warnings = [] := by
  cases relative : specifier.isRelative with
  | true => simp [resolve, relative, Outcome.unchanged]
  | false =>
      rcases exists_target_or_passesAliases options relative with
        ⟨target, first, nonempty⟩ | passes
      · rw [resolve_of_target relative first nonempty]
        by_cases asked : Specifier.isRelative target = true ∨ options.mode = .production
        · simp [targetWarnings, targetQueries, asked]
        · rw [not_or, Bool.not_eq_true] at asked
          have answered : locator target (current.absoluteFrom file).parentOrSelf
              options.extensions ≠ none := fun unanswered =>
            noneLacks target ⟨asked.2, relative, first, nonempty, asked.1, unanswered⟩
          simp [targetWarnings, targetQueries, asked, Locator.answer, answered]
      · rw [passes.resolve_eq]

/--
Neither the mode nor what the locator says about the target of an alias changes the
answer; together they decide whether the one possible warning is given.
-/
theorem resolve_only_warns (options : Options) (locator : Locator) (current file : Path)
    (specifier : Specifier) :
    (∀ first second : Mode,
      ((options.setMode first).resolve locator current specifier file).resolution =
        ((options.setMode second).resolve locator current specifier file).resolution) ∧
    (∀ other : Locator,
      (∀ query, ¬options.IsTargetQuery (current.absoluteFrom file) specifier query →
        other.answer query = locator.answer query) →
      (options.resolve other current specifier file).resolution =
        (options.resolve locator current specifier file).resolution) ∧
    (options.resolve locator current specifier file).warnings.length ≤ 1 ∧
    ∀ warning, warning ∈ (options.resolve locator current specifier file).warnings ↔
      ∃ target, options.LacksTarget locator (current.absoluteFrom file) specifier target ∧
        warning = ⟨.unresolvedAliasTarget, target, current.absoluteFrom file⟩ := by
  refine ⟨?_, fun other agree => resolution_congr agree, ?_⟩
  · intro first second
    rw [resolution_setMode, resolution_setMode]
  · by_cases lacking : ∃ target,
        options.LacksTarget locator (current.absoluteFrom file) specifier target
    · rcases lacking with ⟨target, lacks⟩
      rw [lacks.warnings_eq]
      refine ⟨by simp, ?_⟩
      intro warning
      rw [List.mem_singleton]
      constructor
      · exact fun same => ⟨target, lacks, same⟩
      · rintro ⟨other, otherLacks, rfl⟩
        have sameTarget := (aliasTarget?_eq_some_iff.mpr otherLacks.first).symm.trans
          (aliasTarget?_eq_some_iff.mpr lacks.first)
        rw [Option.some.inj sameTarget]
    · rw [not_exists] at lacking
      rw [warnings_eq_nil lacking]
      simp [lacking]

/-- Outside production a target that is not found is warned about. -/
theorem resolve_only_warns_in_aliasOptions :
    (⟨.unresolvedAliasTarget, "m".toList, "/f".toList⟩ : Warning) ∈
      ((Host.aliasOptions "m".toList).resolve (fun _ _ _ => none) [] "x".toList
        "/f".toList).warnings := by
  have warned := (resolve_only_warns (Host.aliasOptions "m".toList) (fun _ _ _ => none) []
    "/f".toList "x".toList).2.2.2
  have lacks : (Host.aliasOptions "m".toList).LacksTarget (fun _ _ _ => none) "/f".toList
      "x".toList "m".toList :=
    ⟨by decide, rfl, Host.isFirstTarget_aliasOptions "m".toList, by decide, rfl, rfl⟩
  exact (warned _).mpr ⟨"m".toList, lacks, rfl⟩

end Options

end ImportResolution
