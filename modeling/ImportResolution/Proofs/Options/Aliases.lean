import ImportResolution.Proofs.Options.WorkingDirectory
import ImportResolution.Resolution.Strategy

/-!
# Alias rules and the settings they come from

Whether a rule matches depends on its key alone, what it makes of a specifier on its value
as well. An alias that is set goes behind the others only if its key is new: a key that the
settings have keeps its place and gets the new value. So a specifier is affected exactly
when no rule has matched it before, or the first that has is the one with that key
(`Options.aliasTarget?_setAlias`).
-/

namespace ImportResolution

/-! ## Members under a key -/

namespace Json.Members

variable {Value Target : Type} {key : Text} {value : Value} {test : Text → Bool}
  {make : Text × Value → Option Target}

theorem mem_insert (members : Members Value) (key : Text) (value : Value) :
    (key, value) ∈ members.insert key value := by
  induction members with
  | nil => simp [insert]
  | cons member rest ih =>
      by_cases same : member.1 = key
      · simp [insert, same]
      · simp [insert, same, ih]

/--
Where it depends on the key whether anything is made of a member, the first that is made
of the members changes with a new one in two cases: it came from the same key, or from none.
-/
theorem findSome?_insert {members : Members Value}
    (byKey : ∀ member ∈ members, (make member).isSome = test member.1)
    (newByKey : (make (key, value)).isSome = test key) :
    (members.insert key value).findSome? make =
      if (members.map Prod.fst).find? test = some key then make (key, value)
      else (members.findSome? make).or (make (key, value)) := by
  induction members with
  | nil => simp [insert]
  | cons member rest ih =>
      rcases member with ⟨present, old⟩
      have oldByKey : (make (present, old)).isSome = test present := byKey _ (by simp)
      have later := ih fun other other_mem => byKey other (by simp [other_mem])
      cases matched : test present with
      | true =>
          rw [matched] at oldByKey
          have first : (((present, old) :: rest).map Prod.fst).find? test = some present :=
            List.find?_cons_of_pos matched
          rcases Option.isSome_iff_exists.mp oldByKey with ⟨target, made⟩
          by_cases same : present = key
          · subst same
            rw [matched] at newByKey
            rcases Option.isSome_iff_exists.mp newByKey with ⟨newTarget, newMade⟩
            rw [first, if_pos rfl, newMade]
            simp [insert, newMade]
          · rw [first, if_neg fun isKey => same (Option.some.inj isKey)]
            simp [insert, same, made]
      | false =>
          rw [matched, Option.isSome_eq_false_iff, Option.isNone_iff_eq_none] at oldByKey
          have others : (((present, old) :: rest).map Prod.fst).find? test =
              (rest.map Prod.fst).find? test := List.find?_cons_of_neg (by simp [matched])
          rw [others]
          by_cases same : present = key
          · subst same
            rw [matched, Option.isSome_eq_false_iff, Option.isNone_iff_eq_none] at newByKey
            -- A key that fails the test is not the first that passes it.
            have notFirst : (rest.map Prod.fst).find? test ≠ some present := by
              intro isFirst
              simpa [matched] using List.find?_some isFirst
            rw [if_neg notFirst]
            simp [insert, oldByKey, newByKey]
          · rw [List.findSome?_cons_of_isNone (by simp [oldByKey]), ← later]
            simp [insert, oldByKey, same]

end Json.Members

namespace AliasRule

variable {key value : Text} {rule : AliasRule}

/-- The pattern of the rules with a key. -/
def keyPattern (key : Text) : Text :=
  if isRegexKey key then key else belowPattern key

/-- Whether rules with a key match a specifier. -/
def keyMatches (key : Text) (specifier : Specifier) : Bool :=
  match Regex.compile (keyPattern key) with
  | .ok pattern => (pattern.captures? specifier).isSome
  | .error _ => false

theorem pattern_of_compile {pattern : Text} {substitution : Substitution}
    (compiled : compile pattern substitution = .ok rule) :
    Regex.compile pattern = .ok rule.pattern := by
  unfold compile at compiled
  split at compiled
  · rename_i regex isRegex
    rw [isRegex, ← Except.ok.inj compiled]
  · contradiction

theorem pattern_of_ofEntry (compiled : ofEntry key value = .ok rule) :
    Regex.compile (keyPattern key) = .ok rule.pattern := by
  unfold ofEntry at compiled
  unfold keyPattern
  split at compiled
  · rename_i isRegex
    rw [if_pos isRegex]
    exact pattern_of_compile compiled
  · rename_i isPrefix
    rw [if_neg isPrefix]
    exact pattern_of_compile compiled

theorem isSome_apply_of_ofEntry (compiled : ofEntry key value = .ok rule)
    (specifier : Specifier) : (rule.apply specifier).isSome = keyMatches key specifier := by
  rw [keyMatches, pattern_of_ofEntry compiled, apply, Option.isSome_map]

end AliasRule

/-- The key of the first alias that matches a specifier. -/
def Settings.matchingKey? (settings : Settings) (specifier : Specifier) : Option Text :=
  (settings.aliases.map Prod.fst).find? fun key => AliasRule.keyMatches key specifier

namespace Options

variable {key value : Text} {specifier : Specifier}

/-- What the rule for one entry of the aliases makes of a specifier. -/
def entryTarget? (specifier : Specifier) (entry : Text × Json) : Option Text :=
  (aliasRule entry.1 entry.2).toOption.bind fun rule => rule.apply specifier

section Entry

variable {entry : Text × Json} {rule : AliasRule}
  (compiled : aliasRule entry.1 entry.2 = .ok rule)

include compiled in
theorem entryTarget?_of_aliasRule : entryTarget? specifier entry = rule.apply specifier := by
  rw [entryTarget?, compiled]
  rfl

include compiled in
theorem isSome_entryTarget? :
    (entryTarget? specifier entry).isSome = AliasRule.keyMatches entry.1 specifier := by
  rw [entryTarget?_of_aliasRule compiled]
  unfold aliasRule at compiled
  split at compiled
  · exact AliasRule.isSome_apply_of_ofEntry compiled specifier
  · contradiction

end Entry

section Rules

variable {entries : Json.Members Json} {rules : List AliasRule}

theorem aliasRules_eq_mapM (entries : Json.Members Json) :
    aliasRules entries = entries.mapM fun entry => aliasRule entry.1 entry.2 := by
  induction entries with
  | nil => rfl
  | cons entry rest ih => rw [aliasRules, ih, List.mapM_cons]

/-- There is one rule for each entry, in order. -/
theorem aliasRules_eq_ok_iff :
    aliasRules entries = .ok rules ↔
      List.Forall₂ (fun entry rule => aliasRule entry.1 entry.2 = .ok rule) entries rules := by
  rw [aliasRules_eq_mapM, mapM_eq_ok_iff]

theorem exists_rule_of_mem (compiled : aliasRules entries = .ok rules) :
    ∀ entry ∈ entries, ∃ rule, aliasRule entry.1 entry.2 = .ok rule := by
  intro entry entry_mem
  rw [aliasRules_eq_mapM] at compiled
  exact not_fails_iff.mp (exists_mapM_eq_ok_iff.mp ⟨rules, compiled⟩ entry entry_mem)

theorem findSome?_of_aliasRules (compiled : aliasRules entries = .ok rules) :
    (rules.findSome? fun rule => rule.apply specifier) =
      entries.findSome? (entryTarget? specifier) := by
  rw [aliasRules_eq_ok_iff] at compiled
  induction compiled with
  | nil => rfl
  | cons isRule _ ih =>
      rw [List.findSome?_cons, List.findSome?_cons, entryTarget?_of_aliasRule isRule, ih]

end Rules

variable {host : Host} {settings : Settings} {file : Path} {options later : Options}

theorem aliasRules_of_ofSettings (normalized : ofSettings host settings file = .ok options) :
    aliasRules settings.aliases = .ok options.aliases := by
  rcases exists_of_ofSettings normalized with ⟨current, -, taken⟩
  rcases exists_of_bind_eq_ok taken with ⟨roots, -, taken⟩
  rcases exists_of_bind_eq_ok taken with ⟨rules, compiled, taken⟩
  rw [compiled, ← Except.ok.inj taken]

theorem eq_of_ofSettings_setAlias (before : ofSettings host settings file = .ok options)
    (after : ofSettings host (settings.setAlias key value) file = .ok later) :
    later = { options with aliases := later.aliases } := by
  rcases exists_of_ofSettings before with ⟨current, here, taken⟩
  rcases exists_of_bind_eq_ok taken with ⟨roots, areRoots, taken⟩
  rcases exists_of_bind_eq_ok taken with ⟨rules, -, taken⟩
  rcases exists_of_ofSettings after with ⟨same, laterHere, laterTaken⟩
  rw [here] at laterHere
  cases laterHere
  rcases exists_of_bind_eq_ok laterTaken with ⟨laterRoots, areLaterRoots, laterTaken⟩
  rcases exists_of_bind_eq_ok laterTaken with ⟨laterRules, -, laterTaken⟩
  have sameRoots : laterRoots = roots :=
    Except.ok.inj (areLaterRoots.symm.trans areRoots)
  rw [← Except.ok.inj laterTaken, ← Except.ok.inj taken, sameRoots]
  rfl

/--
With an alias set, the target of a specifier is what the new value makes of it where the
first match was by the same key, or where there was none; it stays as it was everywhere else.
-/
theorem aliasTarget?_setAlias (before : ofSettings host settings file = .ok options)
    (after : ofSettings host (settings.setAlias key value) file = .ok later)
    (specifier : Specifier) :
    ∃ rule, AliasRule.ofEntry key value = .ok rule ∧
      later.aliasTarget? specifier =
        if settings.matchingKey? specifier = some key then rule.apply specifier
        else (options.aliasTarget? specifier).or (rule.apply specifier) := by
  have rules := aliasRules_of_ofSettings before
  have laterRules := aliasRules_of_ofSettings after
  have entry_mem := Json.Members.mem_insert settings.aliases key (.string value)
  rcases exists_rule_of_mem laterRules _ entry_mem with ⟨rule, isRule⟩
  refine ⟨rule, isRule, ?_⟩
  rw [aliasTarget?, findSome?_of_aliasRules laterRules, aliasTarget?,
    findSome?_of_aliasRules rules, ← entryTarget?_of_aliasRule isRule]
  apply Json.Members.findSome?_insert
  · intro entry entry_mem
    rcases exists_rule_of_mem rules entry entry_mem with ⟨entryRule, compiled⟩
    exact isSome_entryTarget? compiled
  · exact isSome_entryTarget? isRule

end Options

end ImportResolution
