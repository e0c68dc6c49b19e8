import ImportResolution.Proofs.Options.Aliases
import ImportResolution.Proofs.Resolution.Later
import ImportResolution.Proofs.Resolution.WorkingDirectory

/-!
# Setting an alias

An alias that is set under a new key goes behind those that there are, and a specifier that
one of them matches does not see it. Under a key that there is, the new value takes the
place of the old one, and with it the answer to a specifier that this key is the first to
match. `Host.resolution_setAlias_iff` says for which specifiers the answer stays the same.
-/

namespace ImportResolution

namespace Options

variable {options : Options} {locator : Locator} {current file : Path} {specifier : Specifier}

/-- The answer that an alias gives with a target; with the empty one it gives none. -/
def aliasAnswer? (options : Options) (file : Path) (target : Text) : Option Specifier :=
  if target.isEmpty then none else some (options.rewritten file target)

section Target

variable {target : Text} (notRelative : specifier.isRelative = false)
  (matched : options.aliasTarget? specifier = some target)

include notRelative matched in
theorem resolution_of_aliasAnswer {result : Specifier}
    (answer : options.aliasAnswer? (current.absoluteFrom file) target = some result) :
    (options.resolve locator current specifier file).resolution = .resolved result .aliased := by
  unfold aliasAnswer? at answer
  split at answer
  · contradiction
  · rename_i nonempty
    rw [List.isEmpty_iff] at nonempty
    rw [resolve_of_target notRelative (aliasTarget?_eq_some_iff.mp matched) nonempty,
      ← Option.some.inj answer]

include notRelative matched in
theorem passesAliases_of_no_answer
    (noAnswer : options.aliasAnswer? (current.absoluteFrom file) target = none) :
    options.PassesAliases specifier := by
  have empty : target = [] := by simpa [aliasAnswer?] using noAnswer
  refine ⟨notRelative, ?_⟩
  intro other first
  have same := matched.symm.trans (aliasTarget?_eq_some_iff.mpr first)
  rw [← Option.some.inj same, empty]

end Target

/-- Where two lists of rules match, their resolutions are the same when their answers are. -/
theorem resolution_eq_iff_of_targets {rules : List AliasRule} {target newTarget : Text}
    (matched : options.aliasTarget? specifier = some target)
    (newMatched : aliasTarget? { options with aliases := rules } specifier = some newTarget) :
    (resolve { options with aliases := rules } locator current specifier file).resolution =
        (options.resolve locator current specifier file).resolution ↔
      specifier.isRelative = true ∨
        options.aliasAnswer? (current.absoluteFrom file) newTarget =
          options.aliasAnswer? (current.absoluteFrom file) target := by
  cases relative : specifier.isRelative with
  | true => simp [resolve_of_isRelative relative]
  | false =>
      have sameAnswer : aliasAnswer? { options with aliases := rules }
          (current.absoluteFrom file) newTarget =
          options.aliasAnswer? (current.absoluteFrom file) newTarget := rfl
      cases answer : options.aliasAnswer? (current.absoluteFrom file) target with
      | none =>
          have passes := passesAliases_of_no_answer relative matched answer
          cases newAnswer : options.aliasAnswer? (current.absoluteFrom file) newTarget with
          | none =>
              rw [newAnswer] at sameAnswer
              have newPasses := passesAliases_of_no_answer relative newMatched sameAnswer
              rw [passes.resolve_eq_search, newPasses.resolve_eq_search]
              exact iff_of_true rfl (Or.inr rfl)
          | some result =>
              rw [newAnswer] at sameAnswer
              rw [resolution_of_aliasAnswer relative newMatched sameAnswer]
              simpa using (passes.resolution_ne_aliased result).symm
      | some result =>
          rw [resolution_of_aliasAnswer relative matched answer]
          cases newAnswer : options.aliasAnswer? (current.absoluteFrom file) newTarget with
          | none =>
              rw [newAnswer] at sameAnswer
              have newPasses := passesAliases_of_no_answer relative newMatched sameAnswer
              simpa using newPasses.resolution_ne_aliased result
          | some newResult =>
              rw [newAnswer] at sameAnswer
              rw [resolution_of_aliasAnswer relative newMatched sameAnswer]
              simp

end Options

theorem Settings.matchingKey?_ne_of_not_mem {settings : Settings} {key : Text}
    (isNew : key ∉ settings.aliases.map Prod.fst) (specifier : Specifier) :
    settings.matchingKey? specifier ≠ some key := by
  intro first
  exact isNew (List.mem_of_find?_eq_some first)

theorem Settings.keyMatches_of_matchingKey? {settings : Settings} {key : Text}
    {specifier : Specifier} (first : settings.matchingKey? specifier = some key) :
    AliasRule.keyMatches key specifier = true := by
  unfold matchingKey? at first
  have passes := List.find?_some first
  exact passes

namespace Host

variable {host : Host} {settings : Settings} {file : Path} {options later : Options}
  {key value target : Text} {specifier : Specifier}

theorem resolveWith_setAlias_of_ne (before : Options.ofSettings host settings file = .ok options)
    (after : Options.ofSettings host (settings.setAlias key value) file = .ok later)
    (matched : options.aliasTarget? specifier = some target)
    (notFirst : settings.matchingKey? specifier ≠ some key) :
    host.resolveWith later specifier file = host.resolveWith options specifier file := by
  rcases Options.aliasTarget?_setAlias before after specifier with ⟨rule, -, newTarget⟩
  have changed := Options.eq_of_ofSettings_setAlias before after
  rw [if_neg notFirst, matched, Option.some_or, ← matched] at newTarget
  generalize later.aliases = rules at changed
  subst changed
  exact Options.resolve_congr_aliases newTarget

/--
Both settings have an answer to a specifier that an alias matches. It is the same unless
the key was the first to match the specifier, and then exactly if the new value answers
as the old one did.
-/
theorem resolution_setAlias_iff (before : Options.ofSettings host settings file = .ok options)
    (after : Options.ofSettings host (settings.setAlias key value) file = .ok later)
    (matched : options.aliasTarget? specifier = some target) :
    ∃ outcome newOutcome,
      host.resolve settings specifier file = .ok outcome ∧
      host.resolve (settings.setAlias key value) specifier file = .ok newOutcome ∧
      (settings.matchingKey? specifier ≠ some key → newOutcome = outcome) ∧
      (newOutcome.resolution = outcome.resolution ↔
        specifier.isRelative = true ∨ settings.matchingKey? specifier ≠ some key ∨
          ∃ rule newTarget, AliasRule.ofEntry key value = .ok rule ∧
            rule.apply specifier = some newTarget ∧
            options.aliasAnswer? (host.importBase.absoluteFrom file) newTarget =
              options.aliasAnswer? (host.importBase.absoluteFrom file) target) := by
  refine ⟨host.resolveWith options specifier file, host.resolveWith later specifier file,
    resolve_of_ofSettings before, resolve_of_ofSettings after,
    resolveWith_setAlias_of_ne before after matched, ?_⟩
  by_cases first : settings.matchingKey? specifier = some key
  · rcases Options.aliasTarget?_setAlias before after specifier with ⟨rule, isRule, newMatched⟩
    have newMatches : (rule.apply specifier).isSome = true := by
      rw [AliasRule.isSome_apply_of_ofEntry isRule]
      exact Settings.keyMatches_of_matchingKey? first
    rcases Option.isSome_iff_exists.mp newMatches with ⟨newTarget, applied⟩
    have changed := Options.eq_of_ofSettings_setAlias before after
    rw [if_pos first, applied] at newMatched
    generalize later.aliases = rules at changed
    subst changed
    rw [resolveWith, resolveWith, Options.resolution_eq_iff_of_targets matched newMatched]
    simp [first, isRule, applied]
  · have same := resolveWith_setAlias_of_ne before after matched first
    rw [same]
    exact iff_of_true rfl (Or.inr (Or.inl first))

/-- A host without files. -/
def emptyHost : Host := ⟨.empty, ⟨[], 0⟩, none⟩

/-- Settings with one alias. -/
def vendorSettings : Settings := { aliases := [("lib".toList, .string "./vendor".toList)] }

theorem aliasTarget?_of_vendorSettings {options : Options}
    (normalized : Options.ofSettings emptyHost vendorSettings "/f".toList = .ok options) :
    options.aliasTarget? "lib/x".toList = some "./vendor/x".toList := by
  rw [Options.aliasTarget?,
    Options.findSome?_of_aliasRules (Options.aliasRules_of_ofSettings normalized)]
  decide +kernel

theorem resolution_setAlias_for_vendorSettings :
    ∃ outcome,
      emptyHost.resolve vendorSettings "lib/x".toList "/f".toList = .ok outcome ∧
      emptyHost.resolve (vendorSettings.setAlias "lib/x".toList "./other".toList)
        "lib/x".toList "/f".toList = .ok outcome ∧
      outcome.resolution = .resolved "./vendor/x".toList .aliased := by
  have cwd : (Options.ofSettings emptyHost vendorSettings "/f".toList).toOption.map Options.cwd =
      some "/".toList := by decide +kernel
  have newCwd : (Options.ofSettings emptyHost
      (vendorSettings.setAlias "lib/x".toList "./other".toList) "/f".toList).toOption.map
        Options.cwd = some "/".toList := by decide +kernel
  rcases exists_of_map_toOption cwd with ⟨options, before, -⟩
  rcases exists_of_map_toOption newCwd with ⟨later, after, -⟩
  rcases resolution_setAlias_iff before after (aliasTarget?_of_vendorSettings before) with
    ⟨outcome, newOutcome, resolved, newResolved, same, -⟩
  have notFirst := Settings.matchingKey?_ne_of_not_mem
    (by decide : "lib/x".toList ∉ vendorSettings.aliases.map Prod.fst) "lib/x".toList
  rw [same notFirst] at newResolved
  refine ⟨outcome, resolved, newResolved, ?_⟩
  have answer : (emptyHost.resolve vendorSettings "lib/x".toList "/f".toList).toOption.map
      Outcome.resolution = some (.resolved "./vendor/x".toList .aliased) := by decide +kernel
  rw [resolved] at answer
  exact Option.some.inj answer

/-- Under a key that the settings have, the new value changes what the alias answers. -/
theorem not_forall_resolution_setAlias :
    ¬∀ (host : Host) (settings : Settings) (file : Path) (options later : Options)
      (key value target : Text) (specifier : Specifier),
      Options.ofSettings host settings file = .ok options →
      Options.ofSettings host (settings.setAlias key value) file = .ok later →
      options.aliasTarget? specifier = some target →
      (host.resolve (settings.setAlias key value) specifier file).toOption.map
          Outcome.resolution =
        (host.resolve settings specifier file).toOption.map Outcome.resolution := by
  intro always
  have cwd : (Options.ofSettings emptyHost vendorSettings "/f".toList).toOption.map Options.cwd =
      some "/".toList := by decide +kernel
  have newCwd : (Options.ofSettings emptyHost
      (vendorSettings.setAlias "lib".toList "./other".toList) "/f".toList).toOption.map
        Options.cwd = some "/".toList := by decide +kernel
  rcases exists_of_map_toOption cwd with ⟨options, before, -⟩
  rcases exists_of_map_toOption newCwd with ⟨later, after, -⟩
  have same := always emptyHost vendorSettings "/f".toList options later "lib".toList
    "./other".toList _ "lib/x".toList before after (aliasTarget?_of_vendorSettings before)
  revert same
  decide +kernel

end Host

end ImportResolution
