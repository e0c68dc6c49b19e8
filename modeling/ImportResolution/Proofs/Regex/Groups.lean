import ImportResolution.Proofs.Outcome
import ImportResolution.Proofs.Regex.Search
import ImportResolution.Regex.Captures

/-!
# The groups of a pattern

Reading a pattern counts the groups that it opens and collects their names. Whatever is
read in between keeps two facts (`Regex.Parser.IsSound`): a name begins with a letter or an
underscore, and the code of an expression records places only for groups that have been
counted. Since the size of a pattern is limited, so is the number of its groups.

Main statements, for the captures of any match: a name that begins with a digit names no
group (`Captures.named?_eq_none_of_isDigit`), and a number too large for an index has no
group (`Captures.group?_eq_none_of_le`).
-/

namespace ImportResolution

namespace Regex

/-! ## What code records -/

namespace Code

/-- All places that the code records go to slots below a limit. -/
def RecordsBelow (limit : Nat) (code : Code) : Prop :=
  ∀ slot, .record slot ∈ code.instructions → slot < limit

namespace RecordsBelow

variable {limit : Nat} {first second body : Code}

theorem mono {larger : Nat} (below : first.RecordsBelow limit) (le : limit ≤ larger) :
    first.RecordsBelow larger :=
  fun slot slot_mem => Nat.lt_of_lt_of_le (below slot slot_mem) le

theorem nothing : nothing.RecordsBelow limit := by
  intro slot slot_mem
  simp [Code.nothing] at slot_mem

theorem failure : failure.RecordsBelow limit := by
  intro slot slot_mem
  simp [Code.failure] at slot_mem

theorem single {instruction : Instruction} (other : ∀ slot, instruction ≠ .record slot) :
    (single instruction).RecordsBelow limit := by
  intro slot slot_mem
  exact absurd (List.mem_singleton.mp slot_mem).symm (other slot)

theorem record {slot : Nat} (below : slot < limit) :
    (Code.single (.record slot)).RecordsBelow limit := by
  intro other other_mem
  rw [Instruction.record.inj (List.mem_singleton.mp other_mem)]
  exact below

theorem append (firstBelow : first.RecordsBelow limit) (secondBelow : second.RecordsBelow limit) :
    (first.append second).RecordsBelow limit := by
  intro slot slot_mem
  rcases List.mem_append.mp slot_mem with inFirst | inSecond
  · exact firstBelow slot inFirst
  · exact secondBelow slot inSecond

theorem either (firstBelow : first.RecordsBelow limit) (secondBelow : second.RecordsBelow limit) :
    (first.either second).RecordsBelow limit := by
  intro slot slot_mem
  simp only [Code.either, List.mem_cons, List.mem_append, reduceCtorEq, false_or] at slot_mem
  rcases slot_mem with inFirst | inSecond
  · exact firstBelow slot inFirst
  · exact secondBelow slot inSecond

theorem choose (greedy : Bool) (into past : Int) :
    (Code.single (choose greedy into past)).RecordsBelow limit :=
  single fun slot => by simp [Code.choose]

theorem copies (count : Nat) (below : body.RecordsBelow limit) :
    (body.copies count).RecordsBelow limit := by
  intro slot slot_mem
  rcases List.mem_flatten.mp slot_mem with ⟨copy, copy_mem, inCopy⟩
  rw [List.eq_of_mem_replicate copy_mem] at inCopy
  exact below slot inCopy

theorem upTo (count : Nat) (greedy : Bool) (below : body.RecordsBelow limit) :
    (body.upTo count greedy).RecordsBelow limit := by
  intro slot slot_mem
  rcases List.mem_flatMap.mp slot_mem with ⟨done, -, inTurn⟩
  rcases List.mem_cons.mp inTurn with isChoice | inBody
  · simp [Code.choose] at isChoice
  · exact below slot inBody

theorem plus (greedy : Bool) (below : body.RecordsBelow limit) :
    (body.plus greedy).RecordsBelow limit :=
  below.append (choose greedy _ _)

theorem option (greedy : Bool) (below : body.RecordsBelow limit) :
    (body.option greedy).RecordsBelow limit :=
  (choose greedy _ _).append below

theorem star (greedy : Bool) (below : body.RecordsBelow limit) :
    (body.star greedy).RecordsBelow limit :=
  (choose greedy _ _).append (below.append (single fun slot => by simp))

theorem repetition (least : Nat) (most : Option Nat) (greedy matchesEmpty : Bool)
    (below : body.RecordsBelow limit) :
    (Code.repetition least most greedy matchesEmpty body).RecordsBelow limit := by
  unfold Code.repetition
  split
  · split
    · exact (below.plus greedy).option greedy
    · exact below.star greedy
  · exact (below.copies _).append (below.plus greedy)
  · exact (below.copies _).append (below.upTo _ greedy)

end RecordsBelow

end Code

/-- What the code of an expression records. -/
def Expr.RecordsBelow (limit : Nat) (expr : Expr) : Prop :=
  expr.code.RecordsBelow limit

namespace Expr

namespace RecordsBelow

variable {limit : Nat}

theorem empty : Expr.empty.RecordsBelow limit :=
  Code.RecordsBelow.nothing

theorem char (character : Char) : (Expr.char character).RecordsBelow limit :=
  Code.RecordsBelow.single fun slot => by simp

theorem oneOf (charClass : CharClass) : (Expr.oneOf charClass).RecordsBelow limit :=
  Code.RecordsBelow.single fun slot => by simp

theorem look (assertion : Look) : (Expr.look assertion).RecordsBelow limit :=
  Code.RecordsBelow.single fun slot => by simp

theorem repetition (least : Nat) (most : Option Nat) (greedy : Bool) {body : Expr}
    (below : body.RecordsBelow limit) :
    (Expr.repetition least most greedy body).RecordsBelow limit :=
  Code.RecordsBelow.repetition least most greedy body.matchesEmpty below

theorem group {index : Nat} {body : Expr} (counted : 2 * index + 1 < limit)
    (below : body.RecordsBelow limit) : (Expr.group index body).RecordsBelow limit := by
  have starts : (Code.single (.record (2 * index))).RecordsBelow limit :=
    Code.RecordsBelow.record (by omega)
  exact starts.append (Code.RecordsBelow.append below (.record counted))

theorem seq {parts : List Expr} (below : ∀ part ∈ parts, part.RecordsBelow limit) :
    (Expr.seq parts).RecordsBelow limit := by
  induction parts with
  | nil => exact Code.RecordsBelow.nothing
  | cons part parts ih =>
      rw [List.forall_mem_cons] at below
      exact Code.RecordsBelow.append below.1 (ih below.2)

theorem alt {branches : List Expr} (below : ∀ branch ∈ branches, branch.RecordsBelow limit) :
    (Expr.alt branches).RecordsBelow limit := by
  induction branches with
  | nil => exact Code.RecordsBelow.failure
  | cons branch branches ih =>
      rw [List.forall_mem_cons] at below
      exact Code.RecordsBelow.either below.1 (ih below.2)

end RecordsBelow

end Expr

/-! ## What is read without a group -/

namespace Parser

/-- An expression that holds no group, so that its code records nothing. -/
def IsGroupless (expr : Expr) : Prop :=
  ∀ limit, expr.RecordsBelow limit

theorem isGroupless_literal (flags : Flags) (char : Char) : IsGroupless (literal flags char) := by
  intro limit
  unfold literal
  split
  · exact .oneOf _
  · exact .char char

theorem yields_hexEscape (flags : Flags) (count : Nat) (text : Text) :
    Yields (fun read => IsGroupless read.1) (hexEscape flags count text) := by
  unfold hexEscape
  split
  · exact .error _
  · apply Yields.andThen
    rintro ⟨value, rest⟩
    dsimp only
    split
    · exact .error _
    · split
      · exact .ok (isGroupless_literal flags _)
      · exact .error _
  · apply Yields.andThen
    rintro ⟨value, rest⟩
    dsimp only
    split
    · exact .ok (isGroupless_literal flags _)
    · exact .error _

theorem yields_namedBoundary (flags : Flags) (text : Text) :
    Yields (fun read => IsGroupless read.1) (namedBoundary flags text) := by
  have boundary : ∀ assertion, IsGroupless (.look assertion) := fun assertion _ => .look assertion
  unfold namedBoundary
  split
  · split
    · exact .error _
    · split
      · dsimp only
        split
        · split
          all_goals first | exact .ok (boundary _) | exact .error _
        · exact .error _
      · exact .ok (boundary _)
  · exact .ok (boundary _)

theorem yields_escapeSequence (flags : Flags) (text : Text) :
    Yields (fun read => IsGroupless read.1) (escapeSequence flags text) := by
  have assertion : ∀ look, IsGroupless (.look look) := fun look _ => .look look
  have oneOf : ∀ charClass, IsGroupless (.oneOf charClass) := fun charClass _ => .oneOf charClass
  have literal : ∀ char, IsGroupless (literal flags char) := isGroupless_literal flags
  unfold escapeSequence
  split
  · exact .error _
  · split
    · exact .error _
    · split
      · exact .ok (literal _)
      · split
        all_goals first
          | exact .error _
          | exact .ok (literal _)
          | exact .ok (oneOf _)
          | exact .ok (assertion _)
          | exact yields_hexEscape flags _ _
          | exact yields_namedBoundary flags _

theorem yields_primitive (flags : Flags) (text : Text) :
    Yields (fun read => IsGroupless read.1) (primitive flags text) := by
  unfold primitive
  split
  · exact .error _
  · exact yields_escapeSequence flags _
  · exact .ok fun _ => .oneOf _
  · exact .ok fun _ => .look _
  · exact .ok fun _ => .look _
  · exact .ok (isGroupless_literal flags _)

theorem yields_bracketClass (flags : Flags) (text : Text) :
    Yields (fun read => IsGroupless read.1) (bracketClass flags text) := by
  unfold bracketClass
  extract_lets inside
  have insideGroupless : ∀ begun, Yields (fun read => IsGroupless read.1) (inside begun) := by
    rintro ⟨negated, text⟩
    apply Yields.andThen
    rintro ⟨dashes, text⟩
    extract_lets members
    have membersGroupless : ∀ begun, Yields (fun read => IsGroupless read.1) (members begun) := by
      rintro ⟨begun, text⟩
      apply Yields.andThen
      rintro ⟨ranges, rest⟩
      exact .ok fun _ => .oneOf _
    dsimp only
    split
    · split
      · exact .error _
      · exact .andThen membersGroupless
    · exact .andThen membersGroupless
  split
  · exact .error _
  · split
    · exact .error _
    · exact .andThen insideGroupless
  · exact .andThen insideGroupless

/-! ## Items and their repetition -/

/-- The groups in the items are among those that have been counted. -/
def ItemsBelow (groups : Nat) (items : List Item) : Prop :=
  ∀ item ∈ items, item.expr.RecordsBelow (2 * groups + 2)

namespace ItemsBelow

variable {groups : Nat} {items sequence alternatives : List Item} {item : Item}

theorem mono {more : Nat} (below : ItemsBelow groups items) (le : groups ≤ more) :
    ItemsBelow more items :=
  fun item item_mem => Code.RecordsBelow.mono (below item item_mem) (by omega)

theorem cons (itemBelow : item.expr.RecordsBelow (2 * groups + 2))
    (below : ItemsBelow groups items) : ItemsBelow groups (item :: items) := by
  intro other other_mem
  rcases List.mem_cons.mp other_mem with rfl | other_mem
  · exact itemBelow
  · exact below other other_mem

theorem nil : ItemsBelow groups [] := by simp [ItemsBelow]

theorem reverse (below : ItemsBelow groups items) : ItemsBelow groups items.reverse :=
  fun item item_mem => below item (List.mem_reverse.mp item_mem)

theorem combine {node : List Expr → Expr}
    (nodeBelow : ∀ {exprs : List Expr}, (∀ expr ∈ exprs, expr.RecordsBelow (2 * groups + 2)) →
      (node exprs).RecordsBelow (2 * groups + 2))
    (below : ItemsBelow groups items) :
    (combine node items).expr.RecordsBelow (2 * groups + 2) := by
  unfold Parser.combine
  split
  · exact .empty
  · rename_i item
    exact below item (by simp)
  · apply nodeBelow
    intro expr expr_mem
    rcases List.mem_map.mp expr_mem with ⟨item, item_mem, rfl⟩
    exact below item item_mem

theorem finish (alternativesBelow : ItemsBelow groups alternatives)
    (sequenceBelow : ItemsBelow groups sequence) :
    (finish alternatives sequence).expr.RecordsBelow (2 * groups + 2) := by
  have last := sequenceBelow.reverse.combine Expr.RecordsBelow.seq
  exact (alternativesBelow.cons last).reverse.combine Expr.RecordsBelow.alt

theorem applyCount (count : Count) (error : Error) (below : ItemsBelow groups sequence) :
    Yields (ItemsBelow groups) (applyCount count error sequence) := by
  unfold Parser.applyCount
  split
  · exact .error error
  · rename_i item items
    have itemBelow := below item (by simp)
    have others : ItemsBelow groups items :=
      fun other other_mem => below other (by simp [other_mem])
    apply Yields.ok
    apply others.cons
    unfold Count.apply
    split
    · exact .empty
    · split
      · exact itemBelow
      · exact .repetition _ _ _ itemBelow

end ItemsBelow

/-! ## Names and numbers of groups -/

/-- Each name begins as a name may. -/
def AreGroupNames (names : List (Text × Nat)) : Prop :=
  ∀ entry ∈ names, ∃ first ∈ entry.1.head?, isNameChar true first = true

theorem yields_groupName {taken : Text} (text : Text)
    (begun : taken = [] ∨ ∃ first ∈ taken.getLast?, isNameChar true first = true) :
    Yields (fun read => ∃ first ∈ read.1.head?, isNameChar true first = true)
      (groupName taken text) := by
  induction text generalizing taken with
  | nil =>
      unfold groupName
      split <;> exact .error _
  | cons char rest ih =>
      rw [groupName.eq_def]
      split
      · split <;> exact .error _
      · split
        · exact .error _
        · rename_i nonempty
          apply Yields.ok
          rcases begun with empty | begun
          · simp [empty] at nonempty
          · simpa using begun
      · rename_i follows
        obtain ⟨rfl, rfl⟩ := List.cons.inj follows
        split
        · rename_i isNameChar
          apply ih
          right
          rcases begun with rfl | ⟨first, first_mem, begins⟩
          · exact ⟨char, by simp, isNameChar⟩
          · refine ⟨first, ?_, begins⟩
            rw [Option.mem_def] at first_mem ⊢
            rw [List.getLast?_cons, first_mem]
            rfl
        · exact .error _

/-- What the start of a group makes of the groups and names counted so far. -/
structure Opens (scanner : Scanner) (read : GroupStart × Scanner) : Prop where
  names : AreGroupNames read.2.names
  le_groups : scanner.groups ≤ read.2.groups
  counted : ∀ index, read.1 = .capture index → index ≤ read.2.groups

theorem yields_namedGroup {scanner : Scanner} (named : AreGroupNames scanner.names)
    (text : Text) : Yields (Opens scanner) (namedGroup scanner text) := by
  refine Yields.bind (yields_groupName text (Or.inl rfl)) ?_
  rintro ⟨name, rest⟩ begins
  simp only
  split
  · exact .error _
  · apply Yields.ok
    refine ⟨?_, Nat.le_succ _, ?_⟩
    · intro entry entry_mem
      rcases List.mem_cons.mp entry_mem with rfl | entry_mem
      · exact begins
      · exact named entry entry_mem
    · rintro index ⟨⟩
      exact Nat.le_refl _

theorem yields_groupStart {scanner : Scanner} (named : AreGroupNames scanner.names) :
    Yields (Opens scanner) (groupStart scanner) := by
  unfold groupStart
  dsimp only
  split
  · exact .error _
  · split
    · exact yields_namedGroup named _
    · exact yields_namedGroup named _
    · exact .error _
    · apply Yields.andThen
      rintro ⟨flags, left⟩
      dsimp only
      split
      · exact .ok ⟨named, Nat.le_refl _, fun index same => by simp at same⟩
      · split
        · exact .error _
        · exact .ok ⟨named, Nat.le_refl _, fun index same => by simp at same⟩
    · refine .ok ⟨named, Nat.le_succ _, ?_⟩
      rintro index ⟨⟩
      exact Nat.le_refl _

theorem recordsBelow_close {start : GroupStart} {body : Item} {groups : Nat}
    (counted : ∀ index, start = .capture index → index ≤ groups)
    (below : body.expr.RecordsBelow (2 * groups + 2)) :
    (start.close body).expr.RecordsBelow (2 * groups + 2) := by
  unfold GroupStart.close
  split
  · rename_i index
    have le := counted index rfl
    exact .group (by omega) below
  · exact below

/-! ## Reading a whole pattern -/

/-- What is known of the rest of a group, where `least` groups have been counted before it. -/
structure Reads (least : Nat) (read : Item × Scanner) : Prop where
  names : AreGroupNames read.2.names
  le_groups : least ≤ read.2.groups
  below : read.1.expr.RecordsBelow (2 * read.2.groups + 2)

theorem yields_parseGroup {least fuel depth : Nat} {scanner : Scanner}
    {alternatives sequence : List Item} (le : least ≤ scanner.groups)
    (named : AreGroupNames scanner.names)
    (alternativesBelow : ItemsBelow scanner.groups alternatives)
    (sequenceBelow : ItemsBelow scanner.groups sequence) :
    Yields (Reads least) (parseGroup fuel depth scanner alternatives sequence) := by
  induction fuel generalizing least depth scanner alternatives sequence with
  | zero => exact .error _
  | succ fuel ih =>
      rw [parseGroup]
      dsimp only
      split
      · exact .ok ⟨named, le, alternativesBelow.finish sequenceBelow⟩
      · rename_i rest _
        refine Yields.bind (yields_groupStart named) ?_
        rintro ⟨start, inner⟩ opens
        have innerLe : least ≤ inner.groups := Nat.le_trans le opens.le_groups
        dsimp only
        split
        · exact ih innerLe opens.names (alternativesBelow.mono opens.le_groups)
            (sequenceBelow.mono opens.le_groups)
        · split
          · exact .error _
          · refine Yields.bind (ih (Nat.le_refl inner.groups) opens.names .nil .nil) ?_
            rintro ⟨body, outer⟩ reads
            have grown : scanner.groups ≤ outer.groups :=
              Nat.le_trans opens.le_groups reads.le_groups
            dsimp only
            split
            · have closed := recordsBelow_close
                (fun index same => Nat.le_trans (opens.counted index same) reads.le_groups)
                reads.below
              exact ih (Nat.le_trans le grown) reads.names (alternativesBelow.mono grown)
                ((sequenceBelow.mono grown).cons closed)
            · exact .error _
      · split
        · exact .error _
        · exact .ok ⟨named, le, alternativesBelow.finish sequenceBelow⟩
      · have branch := sequenceBelow.reverse.combine Expr.RecordsBelow.seq
        exact ih le named (alternativesBelow.cons branch) .nil
      · refine Yields.bind (yields_bracketClass _ _) ?_
        rintro ⟨expr, rest⟩ groupless
        exact ih le named alternativesBelow (sequenceBelow.cons (groupless _))
      · refine Yields.bind (sequenceBelow.applyCount _ _) ?_
        intro repeated repeatedBelow
        exact ih le named alternativesBelow repeatedBelow
      · refine Yields.bind (sequenceBelow.applyCount _ _) ?_
        intro repeated repeatedBelow
        exact ih le named alternativesBelow repeatedBelow
      · refine Yields.bind (sequenceBelow.applyCount _ _) ?_
        intro repeated repeatedBelow
        exact ih le named alternativesBelow repeatedBelow
      · split
        · exact .error _
        · apply Yields.andThen
          rintro ⟨count, rest⟩
          refine Yields.bind (sequenceBelow.applyCount _ _) ?_
          intro repeated repeatedBelow
          exact ih le named alternativesBelow repeatedBelow
      · refine Yields.bind (yields_primitive _ _) ?_
        rintro ⟨expr, rest⟩ groupless
        exact ih le named alternativesBelow (sequenceBelow.cons (groupless _))

theorem yields_parse (pattern : Text) :
    Yields (fun read => AreGroupNames read.2.names ∧
      read.1.RecordsBelow (2 * read.2.groups + 2)) (parse pattern) := by
  have noNames : AreGroupNames [] := by simp [AreGroupNames]
  refine Yields.bind (yields_parseGroup (Nat.zero_le _) noNames .nil .nil) ?_
  rintro ⟨item, scanner⟩ reads
  dsimp only
  split
  · exact .error _
  · exact .ok ⟨reads.names, reads.below⟩

end Parser

/-! ## The groups of a match -/

theorem Leads.mem_or_record_mem {program : Program} {place : Place} {thread : Thread}
    {places : List (Nat × Nat)} (leads : Leads program place thread places)
    {entry : Nat × Nat} (entry_mem : entry ∈ places) :
    entry ∈ thread.places ∨ .record entry.1 ∈ program := by
  induction leads with
  | matched _ => exact Or.inl entry_mem
  | @onward place thread next instruction places found next_mem _ ih =>
      rcases ih entry_mem with before | recorded
      · cases instruction with
        | take _ => simp [Thread.onward] at next_mem
        | look look =>
            simp only [Thread.onward] at next_mem
            split at next_mem
            · rw [List.mem_singleton.mp next_mem] at before
              exact Or.inl before
            · simp at next_mem
        | record slot =>
            rw [List.mem_singleton.mp next_mem] at before
            rcases List.mem_cons.mp before with rfl | before
            · exact Or.inr (Array.mem_of_getElem? found)
            · exact Or.inl before
        | fork distances =>
            rcases List.mem_map.mp next_mem with ⟨distance, -, rfl⟩
            exact Or.inl before
      · exact Or.inr recorded
  | take _ _ _ _ ih => exact ih entry_mem

theorem exists_of_compile {pattern : Text} {regex : Regex}
    (compiled : compile pattern = .ok regex) :
    ∃ expr scanner, Parser.parse pattern = .ok (expr, scanner) ∧
      programSize expr scanner.groups scanner.names ≤ sizeLimit ∧
      regex = ⟨pattern, expr.program, scanner.names⟩ := by
  rcases exists_of_bind_eq_ok compiled with ⟨⟨expr, scanner⟩, parsed, built⟩
  dsimp only at built
  split at built
  · contradiction
  · rename_i small
    exact ⟨expr, scanner, parsed, Nat.le_of_not_lt small, (Except.ok.inj built).symm⟩

theorem groups_lt_sizeLimit {expr : Expr} {groups : Nat} {names : List (Text × Nat)}
    (small : programSize expr groups names ≤ sizeLimit) : 2 * groups + 2 < sizeLimit := by
  simp only [programSize, groupSize, sizeLimit] at small ⊢
  omega

variable {pattern text : Text} {regex : Regex} {captures : Captures}

/-- A match of a compiled pattern records places for few groups only. -/
theorem lt_sizeLimit_of_mem_places (compiled : compile pattern = .ok regex)
    (matched : regex.captures? text = some captures) {entry : Nat × Nat}
    (entry_mem : entry ∈ captures.places) : entry.1 < sizeLimit := by
  rcases exists_of_compile compiled with ⟨expr, scanner, parsed, small, rfl⟩
  rcases Option.map_eq_some_iff.mp matched with ⟨places, found, rfl⟩
  rcases exists_leads_of_search found with ⟨place, -, leads⟩
  have few := groups_lt_sizeLimit small
  have below : (Expr.group 0 expr).RecordsBelow (2 * scanner.groups + 2) :=
    .group (by omega) (Parser.yields_parse pattern _ parsed).2
  rcases leads.mem_or_record_mem entry_mem with none_mem | recorded
  · simp at none_mem
  · exact Nat.lt_trans (below entry.1 (List.mem_toArray.mp recorded)) few

theorem begins_of_mem_names (compiled : compile pattern = .ok regex)
    {entry : Text × Nat} (entry_mem : entry ∈ regex.names) :
    ∃ first ∈ entry.1.head?, Parser.isNameChar true first = true := by
  rcases exists_of_compile compiled with ⟨expr, scanner, parsed, -, rfl⟩
  exact (Parser.yields_parse pattern _ parsed).1 entry entry_mem

end Regex

namespace Captures

open Regex

variable {pattern text : Text} {regex : Regex} {captures : Captures}

/-- No pattern has so many groups that a large number would be one of them. -/
theorem group?_eq_none_of_le (compiled : compile pattern = .ok regex)
    (matched : regex.captures? text = some captures) {index : Nat} (large : sizeLimit ≤ index) :
    captures.group? index = none := by
  have unrecorded : captures.places.lookup (2 * index) = none := by
    rw [List.lookup_eq_none_iff]
    intro entry entry_mem
    have small := lt_sizeLimit_of_mem_places compiled matched entry_mem
    rw [bne_iff_ne]
    omega
  rw [group?, unrecorded]

theorem isNameChar_eq_false_of_isDigit {char : Char} (isDigit : char.isDigit = true) :
    Parser.isNameChar true char = false := by
  have noDigits : ∀ code ∈ List.range' 48 10, Text.inRanges Text.alphabeticRanges code = false := by
    decide +kernel
  simp only [Char.isDigit, Bool.and_eq_true, decide_eq_true_eq] at isDigit
  have code_mem : char.toNat ∈ List.range' 48 10 := by
    rw [List.mem_range'_1]
    exact ⟨isDigit.1, Nat.lt_succ_of_le isDigit.2⟩
  have notUnderscore : char ≠ '_' := by
    rintro rfl
    simp at isDigit
  simp [Parser.isNameChar, Text.isAlphabetic, noDigits _ code_mem, notUnderscore]

/-- No group has a name that begins with something else than a name may. -/
theorem named?_eq_none (compiled : compile pattern = .ok regex)
    (matched : regex.captures? text = some captures) {first : Char} {rest : Text}
    (begins : Parser.isNameChar true first = false) : captures.named? (first :: rest) = none := by
  rcases Option.map_eq_some_iff.mp matched with ⟨places, -, rfl⟩
  have unnamed : regex.names.lookup (first :: rest) = none := by
    rw [List.lookup_eq_none_iff]
    intro entry entry_mem
    rcases begins_of_mem_names compiled entry_mem with ⟨other, other_mem, otherBegins⟩
    rw [bne_iff_ne]
    intro same
    rw [← same, List.head?_cons, Option.mem_some] at other_mem
    rw [← other_mem, begins] at otherBegins
    contradiction
  rw [named?, unnamed]
  rfl

end Captures

end ImportResolution
