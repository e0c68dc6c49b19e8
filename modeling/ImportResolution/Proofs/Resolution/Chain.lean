import ImportResolution.Proofs.Path.Relative
import ImportResolution.Proofs.Resolution.Search

/-!
# The chain of strategies

A specifier that is not relative is first handed to the aliases. If they make nothing
of it, the roots and the scaled images are one search: every root for the specifier
itself, then, for an image, every root for each of its scaled names.

`Options.resolve_of_target` and `Options.PassesAliases.resolve_eq` say this of the answer
with all its warnings and questions. `Options.eq_ofModule_of_resolved_root` reads off
what an answer by a root names.
-/

namespace ImportResolution

/-- The outcome that an attempt amounts to. -/
def Outcome.ofAttempt (attempt : Attempt (Specifier × Strategy)) : Outcome :=
  ⟨.ofFound attempt.found, attempt.warnings, attempt.queries⟩

namespace Options

/-! ## The first alias -/

/-- The first alias rule that matches a specifier makes `target` of it. -/
def IsFirstTarget (options : Options) (specifier : Specifier) (target : Text) : Prop :=
  ∃ earlier rule later, options.aliases = earlier ++ rule :: later ∧
    AliasRule.apply rule specifier = some target ∧
    ∀ other ∈ earlier, AliasRule.apply other specifier = none

theorem aliasTarget?_eq_some_iff {options : Options} {specifier : Specifier} {target : Text} :
    options.aliasTarget? specifier = some target ↔ options.IsFirstTarget specifier target :=
  List.findSome?_eq_some_iff

/-- No alias rule matches a specifier that is not relative, or the first has an empty result. -/
structure PassesAliases (options : Options) (specifier : Specifier) : Prop where
  not_relative : specifier.isRelative = false
  no_target : ∀ target, options.IsFirstTarget specifier target → target = []

/-- Unless an alias has a result that is not empty, a specifier passes the aliases. -/
theorem exists_target_or_passesAliases (options : Options) {specifier : Specifier}
    (notRelative : specifier.isRelative = false) :
    (∃ target, options.IsFirstTarget specifier target ∧ target ≠ []) ∨
      options.PassesAliases specifier := by
  by_cases some : ∃ target, options.IsFirstTarget specifier target ∧ target ≠ []
  · exact Or.inl some
  · refine Or.inr ⟨notRelative, ?_⟩
    intro target first
    by_contra nonempty
    exact some ⟨target, first, nonempty⟩

theorem passesAliases_of_no_rules {options : Options} {specifier : Specifier}
    (noRules : options.aliases = [])
    (notRelative : specifier.isRelative = false) : options.PassesAliases specifier := by
  refine ⟨notRelative, ?_⟩
  rintro target ⟨earlier, rule, later, rules, -⟩
  simp [noRules] at rules

/-! ## The candidates of each strategy -/

/-- The questions about a specifier, one for each root; there are none about the empty one. -/
def rootQueries (options : Options) (specifier : Specifier) : List Query :=
  if specifier.isEmpty then []
  else options.root.map fun root => ⟨'.' :: '/' :: specifier, root, options.extensions⟩

/-- The questions about the scaled names of an image: every root for one scale after the other. -/
def imageQueries (options : Options) (specifier : Specifier) : List Query :=
  if options.imageTypes.contains specifier.extension then
    options.imageScale.flatMap fun scale => options.rootQueries (scaledName specifier scale)
  else []

/-- What the roots can make of a specifier. -/
def rootCandidates (options : Options) (file : Path) (specifier : Specifier) :
    List (Candidate Specifier) :=
  (options.rootQueries specifier).map fun query =>
    ⟨query, Specifier.ofModule options file specifier⟩

/-- What the roots can make of the scaled names of an image. -/
def imageCandidates (options : Options) (file : Path) (specifier : Specifier) :
    List (Candidate Specifier) :=
  if options.imageTypes.contains specifier.extension then
    options.imageScale.flatMap fun scale =>
      (options.rootCandidates file (scaledName specifier scale)).map fun candidate =>
        candidate.map (unscaledName specifier)
  else []

variable {options : Options} {locator : Locator} {file : Path} {specifier : Specifier}

theorem map_query_rootCandidates (file : Path) :
    (options.rootCandidates file specifier).map Candidate.query =
      options.rootQueries specifier := by
  simp [rootCandidates, Function.comp_def]

theorem map_query_imageCandidates (file : Path) :
    (options.imageCandidates file specifier).map Candidate.query =
      options.imageQueries specifier := by
  unfold imageCandidates imageQueries
  split
  · simp only [List.map_flatMap, List.map_map]
    congr 1
    funext scale
    exact map_query_rootCandidates file
  · rfl

theorem searchRoots_eq_search :
    options.searchRoots locator specifier =
      Attempt.search locator ((options.rootQueries specifier).map fun query => ⟨query, id⟩) := by
  unfold searchRoots rootQueries
  split
  · rfl
  · simp only [Attempt.ask_eq_search, Attempt.firstOf_search, List.map_map]
    congr 1
    exact List.map_eq_flatMap.symm

theorem resolveRoot_eq_search :
    options.resolveRoot locator file specifier =
      Attempt.search locator (options.rootCandidates file specifier) := by
  rw [resolveRoot, searchRoots_eq_search, Attempt.map_search, List.map_map]
  rfl

theorem resolveImage_eq_search :
    options.resolveImage locator file specifier =
      Attempt.search locator (options.imageCandidates file specifier) := by
  unfold resolveImage imageCandidates
  simp only [List.contains_iff_mem]
  split
  · simp only [resolveRoot_eq_search, Attempt.map_search, Attempt.firstOf_search]
  · rfl

/-! ## The answer -/

/-- What the strategies after the aliases can make of a specifier, in order. -/
def laterCandidates (options : Options) (file : Path) (specifier : Specifier) :
    List (Candidate (Specifier × Strategy)) :=
  ((options.rootCandidates file specifier).map fun candidate =>
      candidate.map fun found => (found, .root)) ++
    (options.imageCandidates file specifier).map fun candidate =>
      candidate.map fun found => (found, .rootImageScale)

theorem map_query_laterCandidates :
    (options.laterCandidates file specifier).map Candidate.query =
      options.rootQueries specifier ++ options.imageQueries specifier := by
  rw [laterCandidates, List.map_append, List.map_map, List.map_map,
    ← map_query_rootCandidates file, ← map_query_imageCandidates file]
  rfl

theorem findSome?_laterCandidates :
    (options.laterCandidates file specifier).findSome? (Candidate.value? locator) =
      (((options.rootCandidates file specifier).findSome? (Candidate.value? locator)).map
          fun found => (found, Strategy.root)).or
        (((options.imageCandidates file specifier).findSome? (Candidate.value? locator)).map
          fun found => (found, Strategy.rootImageScale)) := by
  rw [laterCandidates, List.findSome?_append, Candidate.findSome?_map, Candidate.findSome?_map]

/-- Past the aliases the answer is the first candidate whose question is answered. -/
theorem PassesAliases.resolve_eq {current : Path} (passes : options.PassesAliases specifier) :
    options.resolve locator current specifier file =
      ⟨.ofFound ((options.laterCandidates (current.absoluteFrom file) specifier).findSome?
          (Candidate.value? locator)), [],
        locator.asked (options.rootQueries specifier ++ options.imageQueries specifier)⟩ := by
  have missed : options.resolveAlias locator (current.absoluteFrom file) specifier = .miss := by
    unfold resolveAlias
    cases matched : options.aliasTarget? specifier with
    | none => rfl
    | some target => simp [passes.no_target target (aliasTarget?_eq_some_iff.mp matched)]
  -- The three strategies become one search, of which the aliases are an empty part.
  have later : Attempt.firstOf
      (fun strategy => (options.attempt locator (current.absoluteFrom file) specifier strategy).map
        fun found => (found, strategy)) strategies =
      Attempt.search locator (options.laterCandidates (current.absoluteFrom file) specifier) := by
    simp only [strategies, Attempt.firstOf, attempt, missed, resolveRoot_eq_search,
      resolveImage_eq_search, Attempt.map_search, Attempt.miss_map, Attempt.miss_orElse]
    rw [← Attempt.search_nil, Attempt.orElse_search, Attempt.orElse_search, List.append_nil]
    rfl
  simp only [resolve, passes.not_relative, Bool.false_eq_true, if_false, later]
  rw [Attempt.search, map_query_laterCandidates]

/-- Past the aliases only a root or a scaled image can answer. -/
theorem PassesAliases.resolution_ne_aliased {current : Path}
    (passes : options.PassesAliases specifier) (result : Specifier) :
    (options.resolve locator current specifier file).resolution ≠ .resolved result .aliased := by
  rw [passes.resolve_eq, findSome?_laterCandidates]
  cases (options.rootCandidates (current.absoluteFrom file) specifier).findSome?
      (Candidate.value? locator) with
  | some named => simp [Resolution.ofFound]
  | none =>
      cases (options.imageCandidates (current.absoluteFrom file) specifier).findSome?
          (Candidate.value? locator) with
      | some named => simp [Resolution.ofFound]
      | none => simp [Resolution.ofFound]

/-- Past the aliases the outcome is that of one search through the later candidates. -/
theorem PassesAliases.resolve_eq_search {current : Path}
    (passes : options.PassesAliases specifier) :
    options.resolve locator current specifier file =
      .ofAttempt (Attempt.search locator
        (options.laterCandidates (current.absoluteFrom file) specifier)) := by
  rw [passes.resolve_eq, ← map_query_laterCandidates]
  rfl

/-- The specifier that takes the place of one for which an alias has a target. -/
def rewritten (options : Options) (file : Path) (target : Text) : Specifier :=
  if Specifier.isRelative target then
    Specifier.asRelative (Specifier.wayFromImporter options.cwd file target)
  else target

/-- The question whether the target of an alias exists, where it is asked. -/
def targetQueries (options : Options) (file : Path) (target : Text) : List Query :=
  if Specifier.isRelative target ∨ options.mode = .production then []
  else [⟨target, file.parentOrSelf, options.extensions⟩]

/-- The warnings about a target of an alias: one for each question without an answer. -/
def targetWarnings (options : Options) (locator : Locator) (file : Path) (target : Text) :
    List Warning :=
  ((options.targetQueries file target).filter fun query => (locator.answer query).isNone).map
    fun query => ⟨.unresolvedAliasTarget, query.specifier, file⟩

/-- A relative specifier is answered before anything is looked at. -/
theorem resolve_of_isRelative {current : Path} (relative : specifier.isRelative = true) :
    options.resolve locator current specifier file = .unchanged specifier := by
  simp [resolve, relative]

/-- With an alias the answer is what it makes of the specifier, whatever the locator says. -/
theorem resolve_of_target {current : Path} {target : Text}
    (notRelative : specifier.isRelative = false) (first : options.IsFirstTarget specifier target)
    (nonempty : target ≠ []) :
    options.resolve locator current specifier file =
      ⟨.resolved (options.rewritten (current.absoluteFrom file) target) .aliased,
        options.targetWarnings locator (current.absoluteFrom file) target,
        options.targetQueries (current.absoluteFrom file) target⟩ := by
  have found : options.resolveAlias locator (current.absoluteFrom file) specifier =
      ⟨some (options.rewritten (current.absoluteFrom file) target),
        options.targetWarnings locator (current.absoluteFrom file) target,
        options.targetQueries (current.absoluteFrom file) target⟩ := by
    have matched := aliasTarget?_eq_some_iff.mpr first
    have notEmpty : target.isEmpty = false := by simpa using nonempty
    simp only [resolveAlias, matched, notEmpty, Bool.false_eq_true, if_false]
    by_cases relative : Specifier.isRelative target
    · simp [rewritten, targetWarnings, targetQueries, relative, Attempt.hit]
    · by_cases production : options.mode = .production
      · simp [rewritten, targetWarnings, targetQueries, relative, production, Attempt.hit]
      · cases answer : locator.answer ⟨target, (current.absoluteFrom file).parentOrSelf,
          options.extensions⟩ with
        | none => simp [rewritten, targetWarnings, targetQueries, relative, production, answer]
        | some path => simp [rewritten, targetWarnings, targetQueries, relative, production, answer]
  simp only [resolve, notRelative, Bool.false_eq_true, if_false, strategies, Attempt.firstOf,
    attempt, found]
  rfl

/-! ## Where is asked from -/

theorem directory_mem_root_of_mem_rootQueries {query : Query}
    (query_mem : query ∈ options.rootQueries specifier) : query.directory ∈ options.root := by
  unfold rootQueries at query_mem
  split at query_mem
  · simp at query_mem
  · rcases List.mem_map.mp query_mem with ⟨root, root_mem, rfl⟩
    exact root_mem

theorem directory_mem_root_of_mem_imageQueries {query : Query}
    (query_mem : query ∈ options.imageQueries specifier) : query.directory ∈ options.root := by
  unfold imageQueries at query_mem
  split at query_mem
  · rcases List.mem_flatMap.mp query_mem with ⟨scale, -, scaled_mem⟩
    exact directory_mem_root_of_mem_rootQueries scaled_mem
  · simp at query_mem

/-- Only the importing directory and the roots are asked from. -/
theorem resolve_congr {other : Locator} {current : Path}
    (agree : ∀ query : Query, query.directory = (current.absoluteFrom file).parentOrSelf ∨
      query.directory ∈ options.root → locator.answer query = other.answer query) :
    options.resolve locator current specifier file =
      options.resolve other current specifier file := by
  cases relative : specifier.isRelative with
  | true => rw [resolve_of_isRelative relative, resolve_of_isRelative relative]
  | false =>
      rcases exists_target_or_passesAliases options relative with
        ⟨target, first, nonempty⟩ | passes
      · have sameWarnings : options.targetWarnings locator (current.absoluteFrom file) target =
            options.targetWarnings other (current.absoluteFrom file) target := by
          rw [targetWarnings, targetWarnings, List.filter_congr]
          intro query query_mem
          unfold targetQueries at query_mem
          split at query_mem
          · simp at query_mem
          · rw [List.mem_singleton.mp query_mem, agree _ (Or.inl rfl)]
        rw [resolve_of_target relative first nonempty, resolve_of_target relative first nonempty,
          sameWarnings]
      · rw [passes.resolve_eq_search, passes.resolve_eq_search]
        congr 1
        apply Attempt.search_congr
        intro query query_mem
        rw [map_query_laterCandidates, List.mem_append] at query_mem
        rcases query_mem with ofRoot | ofImage
        · exact agree query (Or.inr (directory_mem_root_of_mem_rootQueries ofRoot))
        · exact agree query (Or.inr (directory_mem_root_of_mem_imageQueries ofImage))

/-! ## Answers by a root -/

/-- The first root below which the locator finds the specifier, with what it finds there. -/
def rootHit? (options : Options) (locator : Locator) (specifier : Specifier) :
    Option (Path × Path) :=
  options.root.findSome? fun root =>
    (locator ('.' :: '/' :: specifier) root options.extensions).map fun found => (root, found)

theorem located_of_rootHit? {root found : Path}
    (hit : options.rootHit? locator specifier = some (root, found)) :
    root ∈ options.root ∧
      locator ('.' :: '/' :: specifier) root options.extensions = some found := by
  rcases List.exists_of_findSome?_eq_some hit with ⟨other, other_mem, located⟩
  rcases Option.map_eq_some_iff.mp located with ⟨path, answer, same⟩
  rcases Prod.mk.inj same with ⟨rfl, rfl⟩
  exact ⟨other_mem, answer⟩

theorem findSome?_rootCandidates (nonempty : specifier ≠ []) :
    (options.rootCandidates file specifier).findSome? (Candidate.value? locator) =
      (options.rootHit? locator specifier).map fun hit =>
        Specifier.ofModule options file specifier hit.2 := by
  have notEmpty : specifier.isEmpty = false := by simpa using nonempty
  simp only [rootCandidates, rootQueries, notEmpty, Bool.false_eq_true, if_false, rootHit?,
    List.map_map, List.findSome?_map, List.map_findSome?]
  congr 1
  funext root
  simp [Candidate.value?, Locator.answer, Function.comp_def]

/-- Among the later candidates, what answers by a root is what the roots make of it. -/
theorem ofFound_later_eq_resolved_root {result : Specifier} :
    Resolution.ofFound ((options.laterCandidates file specifier).findSome?
        (Candidate.value? locator)) = .resolved result .root ↔
      (options.rootCandidates file specifier).findSome? (Candidate.value? locator) =
        some result := by
  rw [findSome?_laterCandidates]
  cases (options.rootCandidates file specifier).findSome? (Candidate.value? locator) with
  | some found => simp [Resolution.ofFound]
  | none =>
      cases (options.imageCandidates file specifier).findSome? (Candidate.value? locator) with
      | none => simp [Resolution.ofFound]
      | some found => simp [Resolution.ofFound]

/-- Only past the aliases can a strategy after them answer. -/
theorem passesAliases_of_resolved {current : Path} {result : Specifier} {strategy : Strategy}
    (resolved : (options.resolve locator current specifier file).resolution =
      .resolved result strategy)
    (notRelative : strategy ≠ .relative) (notAliased : strategy ≠ .aliased) :
    options.PassesAliases specifier := by
  cases relative : specifier.isRelative with
  | true =>
      simp only [resolve, relative, if_true, Outcome.unchanged, Resolution.resolved.injEq]
        at resolved
      exact absurd resolved.2.symm notRelative
  | false =>
      rcases exists_target_or_passesAliases options relative with
        ⟨target, first, nonempty⟩ | passes
      · rw [resolve_of_target relative first nonempty, Resolution.resolved.injEq] at resolved
        exact absurd resolved.2.symm notAliased
      · exact passes

/-- An answer that a root has given names what the first root with an answer holds. -/
theorem eq_ofModule_of_resolved_root {current : Path} {result : Specifier}
    (resolved : (options.resolve locator current specifier file).resolution =
      .resolved result .root) :
    specifier ≠ [] ∧ ∃ root found, options.rootHit? locator specifier = some (root, found) ∧
      result = Specifier.ofModule options (current.absoluteFrom file) specifier found := by
  have passes := passesAliases_of_resolved resolved (by simp) (by simp)
  rw [passes.resolve_eq, ofFound_later_eq_resolved_root] at resolved
  have nonempty : specifier ≠ [] := by
    rintro rfl
    simp [rootCandidates, rootQueries] at resolved
  rw [findSome?_rootCandidates nonempty, Option.map_eq_some_iff] at resolved
  rcases resolved with ⟨⟨root, found⟩, hit, named⟩
  exact ⟨nonempty, root, found, hit, named.symm⟩

/-! ## Answers by a scaled image -/

/--
The first scale at which a root holds an image, with the first such root and what the
locator finds there.
-/
def imageHit? (options : Options) (locator : Locator) (specifier : Specifier) :
    Option (Text × Path × Path) :=
  options.imageScale.findSome? fun scale =>
    (options.rootHit? locator (scaledName specifier scale)).map fun hit => (scale, hit)

theorem rootHit?_of_imageHit? {scale : Text} {root found : Path}
    (hit : options.imageHit? locator specifier = some (scale, root, found)) :
    scale ∈ options.imageScale ∧
      options.rootHit? locator (scaledName specifier scale) = some (root, found) := by
  rcases List.exists_of_findSome?_eq_some hit with ⟨other, other_mem, rootHit⟩
  rcases Option.map_eq_some_iff.mp rootHit with ⟨pair, inRoot, same⟩
  rcases Prod.mk.inj same with ⟨rfl, rfl⟩
  exact ⟨other_mem, inRoot⟩

theorem findSome?_imageCandidates (image : options.imageTypes.contains specifier.extension = true)
    (nonempty : ∀ scale, scaledName specifier scale ≠ []) :
    (options.imageCandidates file specifier).findSome? (Candidate.value? locator) =
      (options.imageHit? locator specifier).map fun hit =>
        unscaledName specifier
          (Specifier.ofModule options file (scaledName specifier hit.1) hit.2.2) := by
  rw [imageCandidates, if_pos image, imageHit?]
  induction options.imageScale with
  | nil => rfl
  | cons scale scales ih =>
      rw [List.flatMap_cons, List.findSome?_append, ih, Candidate.findSome?_map,
        findSome?_rootCandidates (nonempty scale), List.findSome?_cons]
      cases options.rootHit? locator (scaledName specifier scale) <;> simp

/-- Among the later candidates, what answers by a scaled image is what the images make of it. -/
theorem imageCandidates_of_ofFound_later {result : Specifier}
    (resolved : Resolution.ofFound ((options.laterCandidates file specifier).findSome?
      (Candidate.value? locator)) = .resolved result .rootImageScale) :
    (options.imageCandidates file specifier).findSome? (Candidate.value? locator) =
      some result := by
  rw [findSome?_laterCandidates] at resolved
  cases roots : (options.rootCandidates file specifier).findSome? (Candidate.value? locator) with
  | some found => simp [roots, Resolution.ofFound] at resolved
  | none =>
      cases images : (options.imageCandidates file specifier).findSome?
        (Candidate.value? locator) with
      | none => simp [roots, images, Resolution.ofFound] at resolved
      | some found => simpa [roots, images, Resolution.ofFound] using resolved

/-- Only an image can be answered by a scaled one. -/
theorem extension_mem_imageTypes_of_resolved {current : Path} {result : Specifier}
    (resolved : (options.resolve locator current specifier file).resolution =
      .resolved result .rootImageScale) :
    specifier.extension ∈ options.imageTypes := by
  have passes := passesAliases_of_resolved resolved (by simp) (by simp)
  rw [passes.resolve_eq] at resolved
  by_contra notImage
  have fromImages := imageCandidates_of_ofFound_later resolved
  simp [imageCandidates, notImage] at fromImages

/-- An answer by a scaled image names what a root holds at the first scale that hits. -/
theorem eq_unscaledName_of_resolved_image {current : Path} {result : Specifier}
    (nonempty : ∀ scale, scaledName specifier scale ≠ [])
    (resolved : (options.resolve locator current specifier file).resolution =
      .resolved result .rootImageScale) :
    ∃ scale root found, options.imageHit? locator specifier = some (scale, root, found) ∧
      result = unscaledName specifier
        (Specifier.ofModule options (current.absoluteFrom file) (scaledName specifier scale)
          found) := by
  have image := List.contains_iff_mem.mpr (extension_mem_imageTypes_of_resolved resolved)
  have passes := passesAliases_of_resolved resolved (by simp) (by simp)
  rw [passes.resolve_eq] at resolved
  have fromImages := imageCandidates_of_ofFound_later resolved
  rw [findSome?_imageCandidates image nonempty, Option.map_eq_some_iff] at fromImages
  rcases fromImages with ⟨⟨scale, root, found⟩, hit, named⟩
  exact ⟨scale, root, found, hit, named.symm⟩

end Options

end ImportResolution
