import ImportResolution.Alias.Rule
import ImportResolution.Proofs.Regex.Crossing
import ImportResolution.Proofs.Regex.Escaped
import ImportResolution.Proofs.Regex.Search
import ImportResolution.Proofs.Regex.Groups

/-!
# What a key stands for

A key that is no regular expression is put into one that a specifier has to match from its
beginning to its end. The expression is followed through its three stages here: what is read
from it, what its code takes from a text, and what the match has captured.

Main statement: `AliasRule.apply_ofEntry_iff`.
-/

namespace ImportResolution

namespace AliasRule

open Regex Regex.Parser

/-! ## The expression -/

/-- What may follow a key in a specifier, as an expression. -/
def restExpr : Expr :=
  .alt [.seq [.char '/', .repetition 0 none true (.oneOf (dot {}))], .empty]

/-- A key with what may follow it, which is the first group. -/
def belowExpr (key : Text) : Expr :=
  .seq (.look .textStart :: (key.map .char ++ [.group 1 restExpr, .look .textEnd]))

/-- The items of the pattern besides the characters of the key. -/
def startItem : Item := ⟨.look .textStart, 0⟩

def restItem : Item := ⟨.group 1 restExpr, 4⟩

def endItem : Item := ⟨.look .textEnd, 0⟩

theorem parseGroup_rest (fuel : Nat) (sequence : List Item) :
    parseGroup (fuel + 8) 1 ⟨"(/.*|)$".toList, {}, 0, []⟩ [] sequence =
      .ok (finish [] (endItem :: restItem :: sequence), ⟨[], {}, 1, []⟩) :=
  rfl

theorem finish_below (key : Text) :
    finish [] (endItem :: restItem :: ((charItems key).reverse ++ [startItem])) =
      ⟨belowExpr key, 5⟩ := by
  have reversed : (endItem :: restItem :: ((charItems key).reverse ++ [startItem])).reverse =
      startItem :: (charItems key ++ [restItem, endItem]) := by
    simp
  have exprs : (charItems key ++ [restItem, endItem]).map Item.expr =
      key.map .char ++ [.group 1 restExpr, .look .textEnd] := by
    simp [charItems, restItem, endItem, Function.comp_def]
  have height : ((charItems key ++ [restItem, endItem]).map Item.height).foldl max 0 = 4 := by
    rw [List.map_append, List.foldl_append, foldl_max_charItems]
    rfl
  have inSequence : combine Expr.seq (startItem :: (charItems key ++ [restItem, endItem])) =
      ⟨belowExpr key, 5⟩ := by
    rw [combine_cons (by simp), exprs, startItem, height]
    rfl
  rw [finish, reversed, inSequence]
  rfl

/-- Whatever a key holds, its pattern is read, and as the characters of the key. -/
theorem parse_belowPattern (key : Text) :
    parse (belowPattern key) = .ok (belowExpr key, ⟨[], {}, 1, []⟩) := by
  rcases Nat.exists_eq_add_of_le (length_le_length_escape key) with ⟨extra, length_eq⟩
  have steps : (belowPattern key).length + 1 = extra + 8 + key.length + 1 := by
    simp [belowPattern, length_eq]
    omega
  have start : primitive {} (belowPattern key) =
      .ok (.look .textStart, escape key ++ "(/.*|)$".toList) := rfl
  have read : parseGroup ((belowPattern key).length + 1) 1
      ⟨belowPattern key, {}, 0, []⟩ [] [] =
        .ok (⟨belowExpr key, 5⟩, ⟨[], {}, 1, []⟩) := by
    rw [steps, parseGroup_primitive (by rintro char ⟨⟩; rfl) start, parseGroup_escape,
      parseGroup_rest]
    exact congrArg (fun item => Except.ok (item, _)) (finish_below key)
  rw [parse, read]
  rfl

/-! ## Its matches -/

/-- What may follow a key in a specifier: nothing, or a slash and the rest of one line. -/
def MayFollow (rest : Text) : Prop :=
  rest = [] ∨ ∃ below, rest = '/' :: below ∧ '\n' ∉ below

theorem crosses_restExpr :
    restExpr.Crosses fun standing next => ∃ rest, MayFollow rest ∧
      Takes rest standing.place next.place ∧ next.recorded = standing.recorded := by
  have line := Expr.Crosses.seq_cons (.char '/')
    (Expr.Crosses.seq_cons (.star (dot {}) true) .seq_nil)
  refine (Expr.Crosses.alt_cons line (.alt_cons .empty .alt_nil)).congr fun standing next => ?_
  constructor
  · rintro (⟨_, ⟨after, follows, rfl⟩, _, ⟨below, inLine, takes, recorded⟩, rfl⟩ | rfl | no)
    · refine ⟨'/' :: below, .inr ⟨below, rfl, ?_⟩, .cons follows takes, recorded⟩
      intro newline
      exact contains_dot_iff.mp (inLine '\n' newline) rfl
    · exact ⟨[], .inl rfl, .nil, rfl⟩
    · contradiction
  · rintro ⟨_, rfl | ⟨below, rfl, inLine⟩, takes, recorded⟩
    · rcases standing with ⟨place, _⟩
      rcases next with ⟨last, _⟩
      cases takes
      cases recorded
      exact .inr (.inl rfl)
    · rcases Takes.cons_iff.mp takes with ⟨after, follows, takes⟩
      refine .inl ⟨_, ⟨after, follows, rfl⟩, next, ⟨below, ?_, takes, recorded⟩, rfl⟩
      intro char char_mem
      rw [contains_dot_iff]
      rintro rfl
      contradiction

theorem crosses_belowExpr (key : Text) :
    (Expr.group 0 (belowExpr key)).Crosses fun standing next =>
      standing.place.before = none ∧ ∃ middle last rest, Takes key standing.place middle ∧
        MayFollow rest ∧ Takes rest middle last ∧ last.after = [] ∧
        next = ⟨last, (1, last.index) :: (3, last.index) :: (2, middle.index) ::
          (0, standing.place.index) :: standing.recorded⟩ := by
  have parts : (belowExpr key).Crosses _ := Expr.Crosses.seq_cons (.look .textStart)
    (Expr.Crosses.text key (.seq_cons (.group 1 crosses_restExpr)
      (.seq_cons (.look .textEnd) .seq_nil)))
  refine (Expr.Crosses.group 0 parts).congr fun standing next => ?_
  constructor
  · rintro ⟨_, ⟨_, ⟨starts, rfl⟩, middle, takesKey, _,
      ⟨⟨last, _⟩, ⟨rest, follows, takesRest, rfl⟩, rfl⟩, _, ⟨ends, rfl⟩, rfl⟩, rfl⟩
    exact ⟨Option.isNone_iff_eq_none.mp starts, middle, last, rest, takesKey, follows, takesRest,
      List.head?_eq_none_iff.mp (Option.isNone_iff_eq_none.mp ends), rfl⟩
  · rintro ⟨starts, middle, last, rest, takesKey, follows, takesRest, ends, rfl⟩
    exact ⟨_, ⟨_, ⟨Option.isNone_iff_eq_none.mpr starts, rfl⟩, middle, takesKey, _,
      ⟨⟨last, _⟩, ⟨rest, follows, takesRest, rfl⟩, rfl⟩, _,
      ⟨Option.isNone_iff_eq_none.mpr (List.head?_eq_none_iff.mpr ends), rfl⟩, rfl⟩, rfl⟩

/-- The pattern of a key is matched at the beginning of a text, and up to its end. -/
theorem leads_belowExpr_iff {key : Text} {place : Place} {places : List (Nat × Nat)} :
    Leads (belowExpr key).program place ⟨0, []⟩ places ↔
      place.before = none ∧ ∃ rest, place.after = key ++ rest ∧ MayFollow rest ∧
        places = [(1, place.index + key.length + rest.length),
          (3, place.index + key.length + rest.length), (2, place.index + key.length),
          (0, place.index)] := by
  rw [Expr.leads_program_iff (crosses_belowExpr key)]
  constructor
  · rintro ⟨_, starts, middle, last, rest, takesKey, follows, takesRest, ends, stands⟩
    have after_eq : place.after = key ++ rest := by
      rw [takesKey.after_eq, takesRest.after_eq, ends, List.append_nil]
    refine ⟨starts, rest, after_eq, follows, ?_⟩
    rw [← takesKey.index_eq, ← takesRest.index_eq]
    exact congrArg Standing.recorded stands
  · rintro ⟨starts, rest, after_eq, follows, rfl⟩
    rcases Takes.exists_of_after_eq after_eq with ⟨middle, takesKey, middle_after⟩
    rcases Takes.exists_of_after_eq (middle_after.trans (List.append_nil rest).symm) with
      ⟨last, takesRest, ends⟩
    refine ⟨last, starts, middle, last, rest, takesKey, follows, takesRest, ends, ?_⟩
    rw [takesRest.index_eq, takesKey.index_eq]

/-- A search finds the key at the beginning of a text, with all that follows as its group. -/
theorem search_belowExpr_iff {key text : Text} {places : List (Nat × Nat)} :
    (belowExpr key).program.search text = some places ↔
      ∃ rest, text = key ++ rest ∧ MayFollow rest ∧
        places = [(1, key.length + rest.length), (3, key.length + rest.length),
          (2, key.length), (0, 0)] := by
  have found : ∀ {places}, (belowExpr key).program.search text = some places →
      ∃ rest, text = key ++ rest ∧ MayFollow rest ∧
        places = [(1, key.length + rest.length), (3, key.length + rest.length),
          (2, key.length), (0, 0)] := by
    intro places answered
    rcases exists_leads_of_search answered with ⟨place, place_mem, leads⟩
    rcases leads_belowExpr_iff.mp leads with ⟨starts, rest, after_eq, follows, recorded⟩
    rw [eq_of_mem_placesFrom place_mem starts] at after_eq recorded
    refine ⟨rest, after_eq, follows, ?_⟩
    simpa using recorded
  constructor
  · exact found
  · rintro ⟨rest, text_eq, follows, rfl⟩
    have leads : Leads (belowExpr key).program ⟨0, none, text⟩ ⟨0, []⟩ _ :=
      leads_belowExpr_iff.mpr ⟨rfl, rest, text_eq, follows, rfl⟩
    have answers := isSome_search_iff.mpr ⟨_, mem_placesFrom 0 none text, _, leads⟩
    rcases Option.isSome_iff_exists.mp answers with ⟨places, answered⟩
    rcases found answered with ⟨other, other_eq, -, rfl⟩
    rw [answered, List.append_cancel_left (text_eq.symm.trans other_eq)]

/-! ## The rule -/

variable {key value : Text} {rule : AliasRule}

theorem eq_of_ofEntry (isPrefix : isRegexKey key = false)
    (compiled : ofEntry key value = .ok rule) :
    rule = ⟨⟨belowPattern key, (belowExpr key).program, []⟩,
      .function fun captures => value ++ (captures.group? 1).getD []⟩ := by
  rw [ofEntry, isPrefix, if_neg Bool.false_ne_true, ofKey, compile] at compiled
  split at compiled
  · rename_i regex isRegex
    rcases exists_of_compile isRegex with ⟨expr, scanner, parsed, -, rfl⟩
    cases (parse_belowPattern key).symm.trans parsed
    exact (Except.ok.inj compiled).symm
  · contradiction

/-- The group holds what follows the key. -/
theorem apply_eq_map (isPrefix : isRegexKey key = false) (compiled : ofEntry key value = .ok rule)
    (specifier : Specifier) :
    rule.apply specifier = ((belowExpr key).program.search specifier).map fun places =>
      value ++ (Captures.group? ⟨specifier, places, []⟩ 1).getD [] := by
  rw [eq_of_ofEntry isPrefix compiled, apply, captures?, Option.map_map]
  rfl

/--
A key that is no regular expression matches itself, and what lies below it unless that holds
a line break. The value, read as it is written, takes the place of the key.
-/
theorem apply_ofEntry_iff (isPrefix : isRegexKey key = false)
    (compiled : ofEntry key value = .ok rule) (specifier : Specifier) (result : Text) :
    rule.apply specifier = some result ↔
      ∃ rest, specifier = key ++ rest ∧ MayFollow rest ∧ result = value ++ rest := by
  have group_eq (rest : Text) :
      Captures.group? ⟨key ++ rest, [(1, key.length + rest.length),
        (3, key.length + rest.length), (2, key.length), (0, 0)], []⟩ 1 = some rest := by
    have bounds : Captures.group? ⟨key ++ rest, [(1, key.length + rest.length),
        (3, key.length + rest.length), (2, key.length), (0, 0)], []⟩ 1 =
        some (((key ++ rest).drop key.length).take (key.length + rest.length - key.length)) := rfl
    rw [bounds, List.drop_left, Nat.add_sub_cancel_left, List.take_length]
  rw [apply_eq_map isPrefix compiled, Option.map_eq_some_iff]
  constructor
  · rintro ⟨places, answered, rfl⟩
    rcases search_belowExpr_iff.mp answered with ⟨rest, rfl, follows, rfl⟩
    exact ⟨rest, rfl, follows, by rw [group_eq]; rfl⟩
  · rintro ⟨rest, rfl, follows, rfl⟩
    exact ⟨_, search_belowExpr_iff.mpr ⟨rest, rfl, follows, rfl⟩, by rw [group_eq]; rfl⟩

/-- Neither the key nor the value is read as a pattern. -/
theorem apply_ofEntry_below_operators :
    isRegexKey "c++".toList = false ∧
      ∃ rule, ofEntry "c++".toList "./$1".toList = .ok rule ∧
        rule.apply "c++/a".toList = some "./$1/a".toList ∧
        rule.apply "c++a".toList = none := by
  have isPrefix : isRegexKey "c++".toList = false := by decide
  have summary : (ofEntry "c++".toList "./$1".toList).toOption.map (fun _ => ()) = some () := by
    decide +kernel
  rcases exists_of_map_toOption summary with ⟨rule, compiled, -⟩
  refine ⟨isPrefix, rule, compiled, ?_, ?_⟩
  · rw [apply_ofEntry_iff isPrefix compiled]
    exact ⟨"/a".toList, rfl, .inr ⟨"a".toList, rfl, by decide⟩, rfl⟩
  · rw [Option.eq_none_iff_forall_ne_some]
    intro result applied
    rcases (apply_ofEntry_iff isPrefix compiled _ _).mp applied with ⟨rest, whole, follows, -⟩
    have split : "c++a".toList = "c++".toList ++ "a".toList := rfl
    obtain rfl := List.append_cancel_left (split.symm.trans whole)
    rcases follows with empty | ⟨below, slash, -⟩
    · exact absurd empty (by decide)
    · exact absurd (List.cons.inj slash).1 (by decide)

/-- Not everything that lies below a key is matched. -/
theorem not_forall_apply_ofEntry :
    ¬∀ (key value rest : Text) (rule : AliasRule), isRegexKey key = false →
      ofEntry key value = .ok rule → (rest = [] ∨ rest.head? = some '/') →
      rule.apply (key ++ rest) = some (value ++ rest) := by
  intro matched
  have summary : (ofEntry "lib".toList "./vendor".toList).toOption.map
      (fun rule => rule.apply "lib/a\nb".toList) = some none := by
    decide +kernel
  rcases exists_of_map_toOption summary with ⟨rule, compiled, unanswered⟩
  have answered := matched "lib".toList "./vendor".toList "/a\nb".toList rule (by decide) compiled
    (.inr rfl)
  have whole : "lib".toList ++ "/a\nb".toList = "lib/a\nb".toList := rfl
  rw [whole, unanswered] at answered
  exact Option.some_ne_none _ answered.symm

end AliasRule

end ImportResolution
