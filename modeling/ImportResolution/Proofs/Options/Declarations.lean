import ImportResolution.Proofs.Options.Aliases
import ImportResolution.Proofs.Options.Roots
import ImportResolution.Proofs.Settings.Documents
import Mathlib.Data.List.Nodup
import Mathlib.Logic.Function.Basic

/-!
# Two ways to declare aliases

Aliases can be set one after the other or be written in a document, and it does not matter
which: an alias that is declared again keeps its place and takes the new value both times.
So there is one rule for each key, where the key is declared first and with the value with
which it is declared last (`Options.aliases_of_declares`).
-/

namespace ImportResolution

/-! ## Keys in the order of their first appearance -/

theorem eraseDups_concat (keys : List Text) (key : Text) :
    (keys ++ [key]).eraseDups =
      if key ∈ keys.eraseDups then keys.eraseDups else keys.eraseDups ++ [key] := by
  rw [List.eraseDups_append]
  by_cases present : key ∈ keys
  · simp [List.removeAll, List.mem_eraseDups, present]
  · simp [List.removeAll, List.mem_eraseDups, present, List.eraseDups_cons]

theorem nodup_eraseDups (keys : List Text) : keys.eraseDups.Nodup := by
  induction keys using List.reverseRecOn with
  | nil => exact List.nodup_nil
  | append_singleton keys key ih =>
      rw [eraseDups_concat]
      split
      case isTrue => exact ih
      case isFalse isNew =>
        exact ih.append (List.nodup_singleton key) (by simpa using isNew)

namespace Json

/-- A member under a key that is there changes its value, and one under a new key is the last. -/
theorem Members.insert_map {Value : Type} {keys : List Text} (distinct : keys.Nodup)
    (values : Text → Value) (key : Text) (value : Value) :
    Members.insert (keys.map fun present => (present, values present)) key value =
      (if key ∈ keys then keys else keys ++ [key]).map fun present =>
        (present, Function.update values key value present) := by
  induction keys with
  | nil => simp [insert]
  | cons head keys ih =>
      rw [List.nodup_cons] at distinct
      by_cases same : head = key
      · subst same
        have others : ∀ present ∈ keys,
            values present = Function.update values head value present := by
          intro present present_mem
          have different := ne_of_mem_of_not_mem present_mem distinct.1
          exact (Function.update_of_ne different value values).symm
        simpa [insert] using others
      · rw [List.map_cons, insert, if_neg same, ih distinct.2]
        by_cases present : key ∈ keys
        · simp [present, same]
        · simp [present, same, Ne.symm same]

/-- Of texts put in one after the other, each key has the last, where the key was put in first. -/
theorem insertTexts_eq_map (pairs : List (Text × Text)) :
    insertTexts [] pairs = (pairs.map Prod.fst).eraseDups.map fun key =>
      (key, .string ((pairs.reverse.lookup key).getD [])) := by
  -- From the end: a pair that comes last decides the value, but not the place, of its key.
  induction pairs using List.reverseRecOn with
  | nil => rfl
  | append_singleton pairs pair ih =>
      rcases pair with ⟨key, value⟩
      have step : insertTexts [] (pairs ++ [(key, value)]) =
          (insertTexts [] pairs).insert key (.string value) := by simp [insertTexts]
      rw [step, ih, Members.insert_map (nodup_eraseDups _), List.map_append, List.map_singleton,
        eraseDups_concat]
      apply List.map_congr_left
      intro present _
      by_cases same : present = key
      · simp [same]
      · have different : (present == key) = false := beq_false_of_ne same
        simp [same, different, List.lookup_cons]

end Json

namespace Settings

/-- The settings with aliases that are set one after the other. -/
def setAliases (settings : Settings) (pairs : List (Text × Text)) : Settings :=
  pairs.foldl (fun settings pair => settings.setAlias pair.1 pair.2) settings

theorem aliases_setAliases (settings : Settings) (pairs : List (Text × Text)) :
    (settings.setAliases pairs).aliases = Json.insertTexts settings.aliases pairs := by
  induction pairs generalizing settings with
  | nil => rfl
  | cons pair pairs ih => exact ih (settings.setAlias pair.1 pair.2)

/-- Whatever aliases there are, a document with nothing else in it declares them. -/
theorem exists_declares (pairs : List (Text × Text)) : ∃ document, Declares document pairs := by
  have isObject := Json.isObject_text Json.isString_text pairs
  set value := (Json.object (pairs.map fun pair => (pair.1, .string pair.2))).text
  have onlyMember : Json.IsMembers Eq true _ [(Field.aliases.key, value)] :=
    .cons (.first Json.isBlanks_nil) (Json.spells_printed _) Json.isBlanks_nil rfl
      (.nil Json.isBlanks_nil)
  exact ⟨_, _, _, [], ⟨[], _, Json.isBlanks_nil, onlyMember, rfl⟩, Json.isBlanks_nil, rfl,
    List.nodup_singleton _, List.mem_singleton_self _,
    List.forall_mem_singleton.mpr (.aliases isObject)⟩

end Settings

namespace Options

variable {host : Host} {settings : Settings} {file : Path} {options : Options}

/-- The rule for a key has its last value, and the rules stand in the order of the keys. -/
theorem rules_of_insertTexts {pairs : List (Text × Text)}
    (declared : settings.aliases = Json.insertTexts [] pairs)
    (normalized : ofSettings host settings file = .ok options) :
    List.Forall₂ (fun key rule => ∃ value, pairs.reverse.lookup key = some value ∧
        AliasRule.ofEntry key value = .ok rule)
      (pairs.map Prod.fst).eraseDups options.aliases := by
  have rules := aliasRules_of_ofSettings normalized
  rw [declared, Json.insertTexts_eq_map, aliasRules_eq_ok_iff, List.forall₂_map_left_iff] at rules
  have hasValue : ∀ key ∈ (pairs.map Prod.fst).eraseDups, ∃ value,
      pairs.reverse.lookup key = some value := by
    intro key key_mem
    rw [← Option.isSome_iff_exists, List.lookup_isSome_iff]
    simpa [List.mem_eraseDups] using key_mem
  refine List.Forall₂.imp ?_ ((List.forall₂_and_left _ _).mpr ⟨hasValue, rules⟩)
  rintro key rule ⟨⟨value, isValue⟩, compiled⟩
  rw [isValue] at compiled
  exact ⟨value, isValue, compiled⟩

/--
A document that declares aliases gives the settings the aliases that they have when the same
ones are set one after the other. From settings with these aliases come options with one rule
for each key, in the order in which the keys are first declared, and with the value with
which each of them is declared last.
-/
theorem aliases_of_declares (pairs : List (Text × Text)) :
    (∃ document, Settings.Declares document pairs) ∧
    ∀ document, Settings.Declares document pairs →
      ∃ settings, Settings.parse document = .ok settings ∧
        settings.aliases = (Settings.setAliases {} pairs).aliases ∧
        ∀ declared : Settings, declared.aliases = settings.aliases →
          ∀ (host : Host) (file : Path) (options : Options),
            ofSettings host declared file = .ok options →
            List.Forall₂ (fun key rule => ∃ value, pairs.reverse.lookup key = some value ∧
                AliasRule.ofEntry key value = .ok rule)
              (pairs.map Prod.fst).eraseDups options.aliases := by
  refine ⟨Settings.exists_declares pairs, ?_⟩
  intro document declares
  rcases Settings.parse_of_declares declares with ⟨settings, isSettings, areAliases⟩
  refine ⟨settings, isSettings, ?_, ?_⟩
  · rw [areAliases, Settings.aliases_setAliases]
  · intro declared sameAliases host file options normalized
    exact rules_of_insertTexts (sameAliases.trans areAliases) normalized

/-- Aliases, one of which is declared twice. -/
def twiceDeclared : List (Text × Text) :=
  [("b".toList, "x".toList), ("a".toList, "y".toList), ("b".toList, "z".toList)]

/-- An object with them, in which blanks stand around the members and a key is escaped. -/
def twiceDeclaringObject : Text :=
  " \x7b \"b\": \"x\", \"\\u0061\": \"y\", \"b\": \"z\" \x7d".toList

/-- A document with this object behind a working directory. -/
def twiceDeclaring : Text :=
  "\x7b\"cwd\": \"d\", \"alias\":".toList ++ twiceDeclaringObject ++ "\x7d".toList

theorem declares_twiceDeclaring : Settings.Declares twiceDeclaring twiceDeclared := by
  have blank : Json.IsBlanks [' '] := List.forall_mem_singleton.mpr rfl
  have printed (text : Text) : Json.IsString (' ' :: Json.stringText text) text :=
    ⟨[' '], _, blank, Json.spells_printed text, rfl⟩
  have escaped : Json.Spells "\\u0061".toList "a".toList :=
    .code (⟨rfl, rfl⟩ : Json.IsCode "0061".toList 97) rfl rfl .nil
  have aliases : Json.IsObject Json.IsString twiceDeclaringObject twiceDeclared :=
    ⟨[' '], _, blank,
      .cons (.first blank) (Json.spells_printed _) Json.isBlanks_nil (printed _)
        (.cons (.later Json.isBlanks_nil blank) escaped Json.isBlanks_nil (printed _)
          (.cons (.later Json.isBlanks_nil blank) (Json.spells_printed _) Json.isBlanks_nil
            (printed _) (.nil blank))), rfl⟩
  have members : Json.IsMembers Eq true _
      [(Settings.Field.cwd.key, ' ' :: Json.stringText "d".toList),
        (Settings.Field.aliases.key, twiceDeclaringObject)] :=
    .cons (.first Json.isBlanks_nil) (Json.spells_printed _) Json.isBlanks_nil rfl
      (.cons (.later Json.isBlanks_nil blank) (Json.spells_printed _) Json.isBlanks_nil rfl
        (.nil Json.isBlanks_nil))
  refine ⟨_, twiceDeclaring, [], ⟨[], _, Json.isBlanks_nil, members, rfl⟩, Json.isBlanks_nil, rfl,
    by decide, by decide, ?_⟩
  rw [List.forall_mem_cons, List.forall_mem_singleton]
  exact ⟨.other (by decide) (Settings.passes_cwd (printed _)), .aliases aliases⟩

theorem aliases_of_twiceDeclaring :
    ∃ settings options first second, Settings.parse twiceDeclaring = .ok settings ∧
      settings.aliases = (Settings.setAliases {} twiceDeclared).aliases ∧
      ofSettings (questionHost []) (Settings.setAliases {} twiceDeclared) "f".toList =
        .ok options ∧
      options.aliases = [first, second] ∧ AliasRule.ofEntry "b".toList "z".toList = .ok first ∧
      AliasRule.ofEntry "a".toList "y".toList = .ok second := by
  have succeeds : (ofSettings (questionHost []) (Settings.setAliases {} twiceDeclared)
      "f".toList).isOk = true := by decide +kernel
  cases normalized : ofSettings (questionHost []) (Settings.setAliases {} twiceDeclared)
      "f".toList with
  | error error =>
      rw [normalized] at succeeds
      contradiction
  | ok options =>
      rcases (aliases_of_declares twiceDeclared).2 twiceDeclaring declares_twiceDeclaring with
        ⟨settings, isSettings, sameAliases, rules⟩
      have keys : (twiceDeclared.map Prod.fst).eraseDups = ["b".toList, "a".toList] := by decide
      have listed := rules _ sameAliases.symm _ _ options normalized
      rw [keys] at listed
      rcases List.forall₂_cons_left_iff.mp listed with
        ⟨first, others, ⟨_, ⟨rfl⟩, isFirst⟩, areOthers, isOptions⟩
      rcases List.forall₂_cons_left_iff.mp areOthers with
        ⟨second, none, ⟨_, ⟨rfl⟩, isSecond⟩, isNone, rfl⟩
      rw [List.forall₂_nil_left_iff.mp isNone] at isOptions
      exact ⟨settings, options, first, second, isSettings, sameAliases, rfl, isOptions, isFirst,
        isSecond⟩

end Options

end ImportResolution
