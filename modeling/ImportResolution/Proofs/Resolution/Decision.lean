import ImportResolution.Proofs.Resolution.Chain

/-!
# The decision and the questions

Which strategy answers, and which questions the locator is asked on the way, is decided
by the alias rules and by the answers alone. `Options.Decides` says how, case by case,
and `Options.resolve_decides` that resolution follows it.

The empty specifier is left out by the roots, and so is an empty scaled name: they are
no questions at all (`Options.rootQueries`).
-/

namespace ImportResolution

namespace Options

variable {options : Options} {locator : Locator} {file : Path} {specifier : Specifier}

/-- Which strategy answers and which questions are asked, in order. -/
structure Decides (options : Options) (locator : Locator) (specifier : Specifier) (file : Path)
    (outcome : Outcome) : Prop where
  relative : specifier.isRelative = true →
    outcome.resolution = .resolved specifier .relative ∧ outcome.queries = []
  aliased : ∀ target, specifier.isRelative = false →
    options.IsFirstTarget specifier target → target ≠ [] →
    outcome.resolution.strategy? = some .aliased ∧
      outcome.queries = options.targetQueries file target
  root : ∀ before query, options.PassesAliases specifier →
    locator.AnswersFirst (options.rootQueries specifier) before query →
    outcome.resolution.strategy? = some .root ∧ outcome.queries = before ++ [query]
  rootImageScale : ∀ before query, options.PassesAliases specifier →
    (∀ query ∈ options.rootQueries specifier, locator.answer query = none) →
    locator.AnswersFirst (options.imageQueries specifier) before query →
    outcome.resolution.strategy? = some .rootImageScale ∧
      outcome.queries = options.rootQueries specifier ++ (before ++ [query])
  unresolved : options.PassesAliases specifier →
    (∀ query ∈ options.rootQueries specifier, locator.answer query = none) →
    (∀ query ∈ options.imageQueries specifier, locator.answer query = none) →
    outcome.resolution = .unresolved ∧
      outcome.queries = options.rootQueries specifier ++ options.imageQueries specifier

section PassesAliases

variable {current : Path} {before : List Query} {query : Query}

theorem findSome?_rootCandidates_eq_none
    (unanswered : ∀ query ∈ options.rootQueries specifier, locator.answer query = none) :
    (options.rootCandidates file specifier).findSome? (Candidate.value? locator) = none := by
  rw [Candidate.findSome?_eq_none_iff, map_query_rootCandidates]
  exact unanswered

theorem findSome?_imageCandidates_eq_none
    (unanswered : ∀ query ∈ options.imageQueries specifier, locator.answer query = none) :
    (options.imageCandidates file specifier).findSome? (Candidate.value? locator) = none := by
  rw [Candidate.findSome?_eq_none_iff, map_query_imageCandidates]
  exact unanswered

/-- The first root that answers decides, and nothing is asked after it. -/
theorem resolve_of_root (passes : options.PassesAliases specifier)
    (first : locator.AnswersFirst (options.rootQueries specifier) before query) :
    (options.resolve locator current specifier file).resolution.strategy? = some .root ∧
      (options.resolve locator current specifier file).queries = before ++ [query] := by
  have answered : ((options.rootCandidates (current.absoluteFrom file) specifier).findSome?
      (Candidate.value? locator)).isSome := by
    rw [Candidate.isSome_findSome?_iff, map_query_rootCandidates]
    exact first.exists_answered
  rcases Option.isSome_iff_exists.mp answered with ⟨found, isFound⟩
  rw [passes.resolve_eq, findSome?_laterCandidates, isFound]
  refine ⟨rfl, ?_⟩
  rw [Locator.asked_append_of_some first.exists_answered, first.asked_eq]

/-- The first root that answers for a scaled name decides when none has answered before. -/
theorem resolve_of_image (passes : options.PassesAliases specifier)
    (unanswered : ∀ query ∈ options.rootQueries specifier, locator.answer query = none)
    (first : locator.AnswersFirst (options.imageQueries specifier) before query) :
    (options.resolve locator current specifier file).resolution.strategy? = some .rootImageScale ∧
      (options.resolve locator current specifier file).queries =
        options.rootQueries specifier ++ (before ++ [query]) := by
  have answered : ((options.imageCandidates (current.absoluteFrom file) specifier).findSome?
      (Candidate.value? locator)).isSome := by
    rw [Candidate.isSome_findSome?_iff, map_query_imageCandidates]
    exact first.exists_answered
  rcases Option.isSome_iff_exists.mp answered with ⟨found, isFound⟩
  rw [passes.resolve_eq, findSome?_laterCandidates,
    findSome?_rootCandidates_eq_none unanswered, isFound]
  refine ⟨rfl, ?_⟩
  rw [Locator.asked_append_of_none unanswered, first.asked_eq]

/-- Without an answer everything has been asked. -/
theorem resolve_of_unanswered (passes : options.PassesAliases specifier)
    (rootsUnanswered : ∀ query ∈ options.rootQueries specifier, locator.answer query = none)
    (imagesUnanswered : ∀ query ∈ options.imageQueries specifier, locator.answer query = none) :
    (options.resolve locator current specifier file).resolution = .unresolved ∧
      (options.resolve locator current specifier file).queries =
        options.rootQueries specifier ++ options.imageQueries specifier := by
  rw [passes.resolve_eq, findSome?_laterCandidates,
    findSome?_rootCandidates_eq_none rootsUnanswered,
    findSome?_imageCandidates_eq_none imagesUnanswered]
  refine ⟨rfl, ?_⟩
  rw [Locator.asked_append_of_none rootsUnanswered, Locator.asked_of_none imagesUnanswered]

end PassesAliases

/-- Resolution decides by the first answer, and asks up to it. -/
theorem resolve_decides {current : Path} (fileNormal : file.IsNormal) :
    options.Decides locator specifier file
      (options.resolve locator current specifier file) where
  relative := by
    intro relative
    simp [resolve, relative, Outcome.unchanged]
  aliased := by
    intro target notRelative first nonempty
    rw [resolve_of_target notRelative first nonempty,
      Path.absoluteFrom_of_isNormal current fileNormal]
    exact ⟨rfl, rfl⟩
  root := fun _ _ passes first => resolve_of_root passes first
  rootImageScale := fun _ _ passes unanswered first => resolve_of_image passes unanswered first
  unresolved := fun passes rootsUnanswered imagesUnanswered =>
    resolve_of_unanswered passes rootsUnanswered imagesUnanswered

/-- Two roots, the second of which the locator answers for. -/
def twoRoots : Options where
  cwd := "/".toList
  extensions := [".js".toList]
  root := ["/p".toList, "/q".toList]

/-- A locator that finds a file `x` in every directory but the first of `twoRoots`. -/
def secondRootLocator : Locator := fun _ directory _ =>
  if directory = "/p".toList then none else some (directory.join "x".toList)

theorem resolve_decides_for_twoRoots :
    (twoRoots.resolve secondRootLocator [] "a".toList "/f".toList).queries =
      [⟨"./a".toList, "/p".toList, [".js".toList]⟩,
        ⟨"./a".toList, "/q".toList, [".js".toList]⟩] := by
  have decides : twoRoots.Decides secondRootLocator "a".toList "/f".toList
      (twoRoots.resolve secondRootLocator [] "a".toList "/f".toList) :=
    resolve_decides ⟨by decide, by decide⟩
  exact (decides.root [⟨"./a".toList, "/p".toList, [".js".toList]⟩]
    ⟨"./a".toList, "/q".toList, [".js".toList]⟩ (passesAliases_of_no_rules rfl rfl)
    ⟨[], by decide, by decide, by decide⟩).2

/-- The roots are not asked about every specifier that reaches them: the empty one is left out. -/
theorem not_forall_roots_asked :
    ¬∀ (options : Options) (locator : Locator) (current file : Path) (specifier : Specifier)
        (before after : List Path) (root : Path),
      file.IsNormal → options.PassesAliases specifier →
      options.root = before ++ root :: after →
      (∀ earlier ∈ before,
        locator ('.' :: '/' :: specifier) earlier options.extensions = none) →
      (locator ('.' :: '/' :: specifier) root options.extensions).isSome →
      (options.resolve locator current specifier file).resolution.strategy? = some .root ∧
        (options.resolve locator current specifier file).queries =
          (before ++ [root]).map fun root =>
            ⟨'.' :: '/' :: specifier, root, options.extensions⟩ := by
  intro always
  have asked := always twoRoots secondRootLocator [] "/f".toList [] ["/p".toList] [] "/q".toList
    ⟨by decide, by decide⟩ (passesAliases_of_no_rules rfl rfl) rfl (by decide) (by decide)
  revert asked
  decide

end Options

end ImportResolution
