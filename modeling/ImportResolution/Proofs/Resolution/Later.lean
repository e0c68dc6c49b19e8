import ImportResolution.Proofs.Resolution.AliasTarget
import ImportResolution.Proofs.Resolution.Decision

/-!
# Alternatives after a hit

Rules, roots and scales are tried in order, so what stands behind one that hits is never
looked at. `Options.resolve_ignores_later` compares two runs whose options agree up to a
hit: a rule that matches makes the rules behind it irrelevant, a root that holds the
specifier the roots behind it and everything about images, and a scale at which some root
holds the image the scales behind it. Not only the answer is the same, but also the
warnings and the questions.

Roots are the inner and scales the outer search for an image, so the roots behind the one
that holds a scaled image do matter.
-/

namespace ImportResolution

namespace Options

variable {options : Options} {locator : Locator} {current file root : Path}
  {specifier : Specifier}

/-- A root holds a module for a specifier; nothing is asked about the empty one. -/
def RootHits (options : Options) (locator : Locator) (specifier : Specifier) (root : Path) :
    Prop :=
  specifier ≠ [] ∧ (locator ('.' :: '/' :: specifier) root options.extensions).isSome = true

/-! ## Rules -/

/-- Resolution depends on the rules by what the first that matches makes of the specifier. -/
theorem resolve_congr_aliases {rules : List AliasRule}
    (same : aliasTarget? { options with aliases := rules } specifier =
      options.aliasTarget? specifier) :
    resolve { options with aliases := rules } locator current specifier file =
      options.resolve locator current specifier file := by
  have sameAttempt : ∀ file, resolveAlias { options with aliases := rules } locator file specifier =
      options.resolveAlias locator file specifier := by
    intro file
    rw [resolveAlias, same]
    rfl
  simp only [resolve, strategies, Attempt.firstOf, attempt, sameAttempt]
  rfl

theorem aliasTarget?_of_append {earlier : List AliasRule} {rule : AliasRule}
    (applies : (rule.apply specifier).isSome) (later : List AliasRule) :
    aliasTarget? { options with aliases := earlier ++ rule :: later } specifier =
      aliasTarget? { options with aliases := earlier ++ [rule] } specifier := by
  rcases Option.isSome_iff_exists.mp applies with ⟨target, result⟩
  simp [aliasTarget?, List.findSome?_append, result]

/-! ## Roots and scales -/

/-- Resolution depends on roots and images by the search that comes after the aliases. -/
theorem resolve_congr_later (roots : List Path) (types scales : List Text)
    (same : ∀ file, Attempt.search locator (laterCandidates
        { options with root := roots, imageTypes := types, imageScale := scales }
          file specifier) =
      Attempt.search locator (options.laterCandidates file specifier)) :
    resolve { options with root := roots, imageTypes := types, imageScale := scales }
        locator current specifier file =
      options.resolve locator current specifier file := by
  cases relative : specifier.isRelative with
  | true => rw [resolve_of_isRelative relative, resolve_of_isRelative relative]
  | false =>
      rcases exists_target_or_passesAliases options relative with
        ⟨target, first, nonempty⟩ | passes
      · have firstChanged : IsFirstTarget
            { options with root := roots, imageTypes := types, imageScale := scales }
            specifier target := first
        rw [resolve_of_target relative first nonempty,
          resolve_of_target relative firstChanged nonempty]
        rfl
      · have passesChanged : PassesAliases
            { options with root := roots, imageTypes := types, imageScale := scales }
            specifier := ⟨relative, passes.no_target⟩
        rw [passes.resolve_eq_search, passesChanged.resolve_eq_search, same]

theorem rootCandidates_append (first second : List Path) :
    rootCandidates { options with root := first ++ second } file specifier =
      rootCandidates { options with root := first } file specifier ++
        rootCandidates { options with root := second } file specifier := by
  unfold rootCandidates rootQueries
  split
  · rfl
  · rw [List.map_append, List.map_append]
    rfl

theorem imageCandidates_append (first second : List Text) :
    imageCandidates { options with imageScale := first ++ second } file specifier =
      imageCandidates { options with imageScale := first } file specifier ++
        imageCandidates { options with imageScale := second } file specifier := by
  unfold imageCandidates
  split
  · rw [List.flatMap_append]
    rfl
  · rfl

/-- The roots have an answer when one of them holds the specifier. -/
theorem RootHits.answered (hits : options.RootHits locator specifier root)
    (root_mem : root ∈ options.root) :
    ∃ query ∈ options.rootQueries specifier, (locator.answer query).isSome := by
  refine ⟨⟨'.' :: '/' :: specifier, root, options.extensions⟩, ?_, hits.2⟩
  have notEmpty : specifier.isEmpty = false := by simpa using hits.1
  simp [rootQueries, notEmpty, root_mem]

/-- Up to a root that holds the specifier, the roots are all that is searched. -/
theorem search_laterCandidates_of_root (file : Path) (before : List Path)
    (hits : options.RootHits locator specifier root) (after : List Path) :
    Attempt.search locator
        (laterCandidates { options with root := before ++ root :: after } file specifier) =
      Attempt.search locator
        ((rootCandidates { options with root := before ++ [root] } file specifier).map
          fun candidate => candidate.map fun found => (found, .root)) := by
  have split : before ++ root :: after = (before ++ [root]) ++ after := by simp
  have answered : ∃ query ∈ ((rootCandidates { options with root := before ++ [root] }
      file specifier).map fun candidate => candidate.map fun found =>
        (found, Strategy.root)).map Candidate.query, (locator.answer query).isSome := by
    have hitsAlone : RootHits { options with root := before ++ [root] } locator specifier root :=
      hits
    rw [List.map_map]
    exact map_query_rootCandidates file ▸ hitsAlone.answered (by simp)
  rw [laterCandidates, split, rootCandidates_append, List.map_append, List.append_assoc,
    Attempt.search_append_of_answered answered]

/-- The images have an answer when a root holds one of them at some scale. -/
theorem RootHits.image_answered {scale : Text}
    (hits : options.RootHits locator (scaledName specifier scale) root)
    (root_mem : root ∈ options.root) (scale_mem : scale ∈ options.imageScale)
    (image : options.imageTypes.contains specifier.extension = true) :
    ∃ query ∈ options.imageQueries specifier, (locator.answer query).isSome := by
  rcases hits.answered root_mem with ⟨query, query_mem, answered⟩
  refine ⟨query, ?_, answered⟩
  rw [imageQueries, if_pos image, List.mem_flatMap]
  exact ⟨scale, scale_mem, query_mem⟩

/-- Behind a scale at which a root holds the image, no other scale is searched. -/
theorem search_laterCandidates_of_scale (file : Path) (before : List Text) {scale : Text}
    (root_mem : root ∈ options.root)
    (hits : options.RootHits locator (scaledName specifier scale) root) (after : List Text) :
    Attempt.search locator
        (laterCandidates { options with imageScale := before ++ scale :: after }
          file specifier) =
      Attempt.search locator
        (laterCandidates { options with imageScale := before ++ [scale] } file specifier) := by
  have split : before ++ scale :: after = (before ++ [scale]) ++ after := by simp
  have appended : laterCandidates { options with imageScale := before ++ scale :: after }
      file specifier =
      laterCandidates { options with imageScale := before ++ [scale] } file specifier ++
        (imageCandidates { options with imageScale := after } file specifier).map
          fun candidate => candidate.map fun found => (found, .rootImageScale) := by
    rw [laterCandidates, split, imageCandidates_append, List.map_append, ← List.append_assoc]
    rfl
  rw [appended]
  by_cases image : options.imageTypes.contains specifier.extension = true
  · apply Attempt.search_append_of_answered
    have hitsAlone : RootHits { options with imageScale := before ++ [scale] } locator
        (scaledName specifier scale) root := hits
    rcases hitsAlone.image_answered root_mem (by simp) image with ⟨query, query_mem, answered⟩
    rw [map_query_laterCandidates]
    exact ⟨query, List.mem_append_right _ query_mem, answered⟩
  · -- For a specifier that is no image there are no scaled names at all.
    have noImages : imageCandidates { options with imageScale := after } file specifier = [] :=
      if_neg image
    rw [noImages, List.map_nil, List.append_nil]

/-! ## Two runs that agree up to a hit -/

/--
What stands behind a hit changes nothing: neither rules behind one that matches, even with
an empty result, nor roots behind one that holds the specifier and anything about images,
nor scales behind one at which a root holds the image.
-/
theorem resolve_ignores_later (options : Options) (locator : Locator) (current file : Path)
    (specifier : Specifier) :
    (∀ (earlier later replaced : List AliasRule) (rule : AliasRule),
      options.aliases = earlier ++ rule :: later → (rule.apply specifier).isSome →
      resolve { options with aliases := earlier ++ rule :: replaced } locator current specifier
          file =
        options.resolve locator current specifier file) ∧
    (∀ (before after roots : List Path) (root : Path) (types scales : List Text),
      options.root = before ++ root :: after → options.RootHits locator specifier root →
      resolve { options with
            root := before ++ root :: roots, imageTypes := types, imageScale := scales }
          locator current specifier file =
        options.resolve locator current specifier file) ∧
    ∀ (before after scales : List Text) (scale : Text),
      options.imageScale = before ++ scale :: after →
      (∃ root ∈ options.root, options.RootHits locator (scaledName specifier scale) root) →
      resolve { options with imageScale := before ++ scale :: scales } locator current specifier
          file =
        options.resolve locator current specifier file := by
  refine ⟨?_, ?_, ?_⟩
  · intro earlier later replaced rule rules applies
    apply resolve_congr_aliases
    rw [aliasTarget?_of_append applies, ← aliasTarget?_of_append applies later, ← rules]
  · intro before after roots root types scales rootsEq hits
    apply resolve_congr_later
    intro file
    have hitsChanged : RootHits { options with imageTypes := types, imageScale := scales }
        locator specifier root := hits
    have changed := search_laterCandidates_of_root file before hitsChanged roots
    have same := search_laterCandidates_of_root file before hits after
    rw [← rootsEq] at same
    exact changed.trans same.symm
  · rintro before after scales scale scalesEq ⟨root, root_mem, hits⟩
    apply resolve_congr_later options.root options.imageTypes
    intro file
    have changed := search_laterCandidates_of_scale file before root_mem hits scales
    have same := search_laterCandidates_of_scale file before root_mem hits after
    rw [← scalesEq] at same
    exact changed.trans same.symm

/-- A locator that finds one image, at the smaller scale in one root and the larger in another. -/
def scaledLocator : Locator := fun specifier directory _ =>
  if specifier = "./a@3x.png".toList ∧ directory = "/p".toList ∨
      specifier = "./a@2x.png".toList ∧ directory = "/q".toList then
    some (directory.join specifier)
  else none

/-- A rule with an empty result, the second of two roots, and the first of two scales. -/
theorem resolve_ignores_later_in_twoRoots :
    resolve { Host.aliasOptions [] with
          aliases := (Host.aliasOptions []).aliases ++ (Host.aliasOptions "m".toList).aliases }
        secondRootLocator [] "x".toList "/f".toList =
      (Host.aliasOptions []).resolve secondRootLocator [] "x".toList "/f".toList ∧
    resolve { twoRoots with
          root := ["/p".toList, "/q".toList, "/r".toList], imageTypes := [], imageScale := [] }
        secondRootLocator [] "a".toList "/f".toList =
      twoRoots.resolve secondRootLocator [] "a".toList "/f".toList ∧
    resolve { twoRoots with imageScale := ["@2x".toList] } scaledLocator [] "a.png".toList
        "/f".toList =
      twoRoots.resolve scaledLocator [] "a.png".toList "/f".toList := by
  have rules := (resolve_ignores_later (Host.aliasOptions []) secondRootLocator [] "/f".toList
    "x".toList).1
  have roots := (resolve_ignores_later twoRoots secondRootLocator [] "/f".toList "a".toList).2.1
  have scales := (resolve_ignores_later twoRoots scaledLocator [] "/f".toList
    "a.png".toList).2.2
  refine ⟨?_, ?_, ?_⟩
  · exact rules [] [] (Host.aliasOptions "m".toList).aliases _ rfl rfl
  · exact roots ["/p".toList] [] ["/r".toList] "/q".toList [] [] rfl ⟨by decide, by decide⟩
  · exact scales [] ["@3x".toList] [] "@2x".toList rfl
      ⟨"/q".toList, by decide, by decide, by decide⟩

/-- The second root has the image at the first scale, so the root behind the first one matters. -/
example :
    (resolve { twoRoots with root := ["/p".toList] } scaledLocator [] "a.png".toList
        "/f".toList).resolution = .resolved "./p/a.png".toList .rootImageScale ∧
      (twoRoots.resolve scaledLocator [] "a.png".toList "/f".toList).resolution =
        .resolved "./q/a.png".toList .rootImageScale := by
  decide

end Options

end ImportResolution
