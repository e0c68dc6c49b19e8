import ImportResolution.Proofs.Resolution.AliasTarget
import ImportResolution.Proofs.Resolution.Decision

/-!
# The shape of answers

A root, a scaled image and an alias with a relative target name a module from the
importing file: their answers start with `./` or `../` and have no backslash
(`Specifier.IsLocal`), whatever the options, the locator and the importing file are. Such
an answer is final, since resolution leaves it as it is (`Options.resolve_isLocal`).
-/

namespace ImportResolution

namespace Specifier

variable {specifier : Specifier}

/-- Starts with `./` or `../`, and slashes alone separate its segments. -/
structure IsLocal (specifier : Specifier) : Prop where
  relative : specifier.isRelative = true
  no_backslash : '\\' ∉ specifier

/-- Whether a text is relative is decided by what stands up to its first slash. -/
theorem isRelative_append_slash (directory first second : Text) :
    isRelative (directory ++ '/' :: first) = isRelative (directory ++ '/' :: second) := by
  rcases directory with _ | ⟨char, _ | ⟨next, _ | ⟨third, rest⟩⟩⟩ <;>
    simp only [List.nil_append, List.cons_append, isRelative] <;> grind

theorem isLocal_asRelative (noBackslash : '\\' ∉ specifier) : specifier.asRelative.IsLocal := by
  refine ⟨isRelative_asRelative specifier, ?_⟩
  unfold asRelative
  split
  · exact noBackslash
  · split
    · simp
    · split
      · simp
      · simp [noBackslash]

theorem not_mem_withoutExtension (noBackslash : '\\' ∉ specifier) (extensions : List Text) :
    '\\' ∉ specifier.withoutExtension extensions := by
  have keeps : ∀ name : Text, '\\' ∉ name → '\\' ∉ nameWithout name extensions := by
    intro name absent backslash_mem
    exact absent ((nameWithout_begins name extensions).subset backslash_mem)
  unfold withoutExtension
  rcases splitName_cases specifier with
    ⟨alone, -⟩ | ⟨directory, separator, name, splits, whole, -, -⟩
  · rw [alone]
    exact keeps specifier noBackslash
  · rw [splits]
    intro backslash_mem
    rcases List.mem_append.mp backslash_mem with inDirectory | inRest
    · apply noBackslash
      simp [whole, inDirectory]
    · rcases List.mem_cons.mp inRest with isSlash | inKept
      · contradiction
      · apply keeps name ?_ inKept
        intro inName
        apply noBackslash
        simp [whole, inName]

/-- A module is named in local form, whatever was found and wherever it is. -/
theorem isLocal_ofModule (options : Options) (file : Path) (specifier : Specifier)
    (found : Path) : (ofModule options file specifier found).IsLocal := by
  have noBackslash : '\\' ∉ wayFromImporter options.cwd file found :=
    Text.not_mem_replaceChar (by decide) _
  apply isLocal_asRelative
  split
  · exact noBackslash
  · exact not_mem_withoutExtension noBackslash options.stripExtensions

namespace IsLocal

/-- A local specifier has a directory. -/
theorem exists_splitName (isLocal : specifier.IsLocal) :
    ∃ directory name, specifier.splitName = (some directory, name) ∧
      specifier = directory ++ '/' :: name := by
  rcases isLocal with ⟨relative, noBackslash⟩
  rcases splitName_cases specifier with
    ⟨-, segment⟩ | ⟨directory, separator, name, splits, whole, isSeparator, -⟩
  · have slash_mem : '/' ∈ specifier := by
      unfold isRelative at relative
      split at relative
      · simp
      · simp
      · contradiction
    simpa [Specifier.isSeparator] using segment '/' slash_mem
  · have isSlash : separator = '/' := by
      have inWhole : separator ∈ specifier := by simp [whole]
      have notBackslash : separator ≠ '\\' := by
        rintro rfl
        exact noBackslash inWhole
      simpa [Specifier.isSeparator, notBackslash] using isSeparator
    subst isSlash
    exact ⟨directory, name, splits, whole⟩

/-- Another final segment without backslashes leaves a local specifier local. -/
theorem unscaledName {scaled : Specifier} (isLocal : scaled.IsLocal) (specifier : Specifier) :
    (Options.unscaledName specifier scaled).IsLocal := by
  rcases isLocal.exists_splitName with ⟨directory, name, splits, whole⟩
  rcases isLocal with ⟨relative, noBackslash⟩
  have named : Options.unscaledName specifier scaled =
      directory ++ '/' :: specifier.splitName.2 := by
    simp [Options.unscaledName, splits, stem_append_extension]
  rw [whole] at relative noBackslash
  rw [named]
  constructor
  · rw [isRelative_append_slash directory _ name]
    exact relative
  · have inSegment := (not_mem_splitName_snd specifier).2
    simp_all

end IsLocal

end Specifier

namespace Attempt

theorem exists_of_found_firstOf {α β : Type} {attempt : β → Attempt α} {items : List β} {value : α}
    (found : (firstOf attempt items).found = some value) :
    ∃ item ∈ items, (attempt item).found = some value := by
  induction items with
  | nil => simp [firstOf, miss] at found
  | cons item items ih =>
      cases first : (attempt item).found with
      | some other =>
          simp only [firstOf, orElse, first, Option.some.injEq] at found
          exact ⟨item, List.mem_cons_self, by rw [first, found]⟩
      | none =>
          simp only [firstOf, orElse, first] at found
          rcases ih found with ⟨later, later_mem, isFound⟩
          exact ⟨later, List.mem_cons_of_mem item later_mem, isFound⟩

end Attempt

namespace Options

variable {options : Options} {locator : Locator} {current file : Path}
  {specifier result : Specifier}

theorem isLocal_of_found_resolveRoot {named : Specifier}
    (found : (options.resolveRoot locator file specifier).found = some named) :
    named.IsLocal := by
  rcases Option.map_eq_some_iff.mp found with ⟨path, -, rfl⟩
  exact Specifier.isLocal_ofModule options file specifier path

/-- An answer by a scaled image renames what a root has answered for the scaled name. -/
theorem exists_scaled_of_resolved_image
    (resolved : (options.resolve locator current specifier file).resolution =
      .resolved result .rootImageScale) :
    ∃ scale named, (options.resolveRoot locator (current.absoluteFrom file)
        (scaledName specifier scale)).found = some named ∧
      result = unscaledName specifier named := by
  have passes := passesAliases_of_resolved resolved (by simp) (by simp)
  rw [passes.resolve_eq] at resolved
  have found : (options.resolveImage locator (current.absoluteFrom file) specifier).found =
      some result := by
    rw [resolveImage_eq_search]
    exact imageCandidates_of_ofFound_later resolved
  unfold resolveImage at found
  split at found
  · rcases Attempt.exists_of_found_firstOf found with ⟨scale, -, scaled⟩
    rcases Option.map_eq_some_iff.mp scaled with ⟨named, isNamed, rfl⟩
    exact ⟨scale, named, isNamed, rfl⟩
  · simp [Attempt.miss] at found

/-- An answer by an alias is what was made of the first target. -/
theorem eq_rewritten_of_resolved_alias {target : Text}
    (resolved : (options.resolve locator current specifier file).resolution =
      .resolved result .aliased)
    (first : options.IsFirstTarget specifier target) :
    result = options.rewritten (current.absoluteFrom file) target := by
  have notRelative : specifier.isRelative = false := by
    rw [Bool.eq_false_iff]
    intro relative
    simp [resolve_of_isRelative relative, Outcome.unchanged] at resolved
  rcases exists_target_or_passesAliases options notRelative with
    ⟨other, otherFirst, nonempty⟩ | passes
  · have same := (aliasTarget?_eq_some_iff.mpr otherFirst).symm.trans
      (aliasTarget?_eq_some_iff.mpr first)
    rw [resolve_of_target notRelative otherFirst nonempty, Option.some.inj same] at resolved
    simpa using resolved.symm
  · exact absurd resolved (passes.resolution_ne_aliased result)

/-- An answer that names a module from the importing file is local. -/
theorem isLocal_of_resolved {strategy : Strategy}
    (resolved : (options.resolve locator current specifier file).resolution =
      .resolved result strategy)
    (names : strategy = .root ∨ strategy = .rootImageScale ∨
      strategy = .aliased ∧ ∃ target, options.IsFirstTarget specifier target ∧
        Specifier.isRelative target = true) :
    result.IsLocal := by
  rcases names with rfl | rfl | ⟨rfl, target, first, relative⟩
  · rcases eq_ofModule_of_resolved_root resolved with ⟨-, root, found, -, rfl⟩
    exact Specifier.isLocal_ofModule options (current.absoluteFrom file) specifier found
  · rcases exists_scaled_of_resolved_image resolved with ⟨scale, named, isNamed, rfl⟩
    exact (isLocal_of_found_resolveRoot isNamed).unscaledName specifier
  · rw [eq_rewritten_of_resolved_alias resolved first, rewritten, if_pos relative]
    exact Specifier.isLocal_asRelative (Text.not_mem_replaceChar (by decide) _)

/--
An answer that names a module from the importing file is local, and resolving it again,
from any file and with any options, leaves it as it is without a question or a warning. A
scaled image always has a directory in which it is renamed. An alias with any other target
answers with the target itself.
-/
theorem resolve_isLocal (options : Options) (locator : Locator) (current file : Path)
    (specifier : Specifier) :
    (∀ result strategy, (options.resolve locator current specifier file).resolution =
        .resolved result strategy →
      (strategy = .root ∨ strategy = .rootImageScale ∨
        strategy = .aliased ∧ ∃ target, options.IsFirstTarget specifier target ∧
          Specifier.isRelative target = true) →
      result.IsLocal ∧
        ∀ (others : Options) (other : Locator) (directory importer : Path),
          others.resolve other directory result importer = .unchanged result) ∧
    (∀ scale named, (options.resolveRoot locator (current.absoluteFrom file)
        (scaledName specifier scale)).found = some named → named.splitName.1 ≠ none) ∧
    ∀ result target, (options.resolve locator current specifier file).resolution =
        .resolved result .aliased →
      options.IsFirstTarget specifier target → Specifier.isRelative target = false →
      result = target := by
  refine ⟨?_, ?_, ?_⟩
  · intro result strategy resolved names
    have isLocal := isLocal_of_resolved resolved names
    refine ⟨isLocal, ?_⟩
    intro others other directory importer
    exact resolve_of_isRelative isLocal.relative
  · intro scale named found
    rcases (isLocal_of_found_resolveRoot found).exists_splitName with ⟨directory, name, splits, -⟩
    simp [splits]
  · intro result target resolved first notRelative
    rw [eq_rewritten_of_resolved_alias resolved first]
    simp [rewritten, notRelative]

/-- A locator that finds one file everywhere, with a backslash in its name. -/
def backslashLocator : Locator := fun _ _ _ => some "/p\\q.js".toList

/-- Neither the importing file nor the directory from which it is taken is absolute here. -/
theorem resolve_isLocal_in_twoRoots :
    ((twoRoots.resolve backslashLocator [] "a".toList "f".toList).resolution =
        .resolved ".//p/q".toList .root ∧ Specifier.IsLocal ".//p/q".toList) ∧
    (∃ named, (twoRoots.resolveRoot backslashLocator (Path.absoluteFrom [] "f".toList)
        (scaledName "a.png".toList "@2x".toList)).found = some named ∧
      named.splitName.1 ≠ none) ∧
    ∃ result, ((Host.aliasOptions "m".toList).resolve backslashLocator [] "x".toList
        "f".toList).resolution = .resolved result .aliased ∧ result = "m".toList := by
  have roots := resolve_isLocal twoRoots backslashLocator [] "f".toList
  have aliases := resolve_isLocal (Host.aliasOptions "m".toList) backslashLocator []
    "f".toList "x".toList
  have first := Host.isFirstTarget_aliasOptions "m".toList
  refine ⟨⟨by decide, ?_⟩, ⟨".//p/q".toList, by decide, ?_⟩, "m".toList, ?_, ?_⟩
  · exact ((roots "a".toList).1 _ _ (by decide) (Or.inl rfl)).1
  · exact (roots "a.png".toList).2.1 "@2x".toList _ (by decide)
  · rw [resolve_of_target rfl first (by decide)]
    rfl
  · apply aliases.2.2 _ _ ?_ first rfl
    rw [resolve_of_target rfl first (by decide)]
    rfl

end Options

end ImportResolution
