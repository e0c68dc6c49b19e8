import ImportResolution.Alias.Rule
import ImportResolution.Proofs.Regex.Groups
import Mathlib.Data.List.TakeWhile

/-!
# What templates mean

The replacement of an alias is converted to a template, and the template is then read once
more when it is expanded. This file gives one equation for each token of a replacement
(`Template.convert_…`) and for what the conversion makes of it (`Expansion.expand_…`), so
that both readings come to the same tokens.

Main statement: `AliasRule.apply_eq_meaning`. A replacement that is written with backslash
references alone means what its reading from the left says, and every text can be written
by doubling its backslashes and dollar signs.
-/

namespace ImportResolution

/-! ## Numbers -/

/-- A number as it is written in a reference. -/
structure IsNumber (digits : Text) : Prop where
  ne_nil : digits ≠ []
  isDigit : ∀ digit ∈ digits, digit.isDigit = true

theorem IsNumber.not_mem {digits : Text} (number : IsNumber digits) {char : Char}
    (notDigit : char.isDigit = false) : char ∉ digits := by
  intro mem
  rw [number.isDigit char mem] at notDigit
  contradiction

/-- No digit stands at the beginning of a text, so a number before it ends there. -/
def EndsNumber (text : Text) : Prop :=
  ∀ char ∈ text.head?, char.isDigit = false

/-- No character of a name stands there either, so a name without braces ends before it. -/
def EndsName (text : Text) : Prop :=
  ∀ char ∈ text.head?, Expansion.isReferenceChar char = false

theorem eq_false_of_mem_head?_dropWhile {test : Char → Bool} {text : Text} {char : Char}
    (isHead : char ∈ (text.dropWhile test).head?) : test char = false := by
  have fails := List.head?_dropWhile_not test text
  rw [isHead] at fails
  simpa using fails

/-! ## Converting a replacement -/

namespace Template

attribute [local simp] convertFrom

theorem convertFrom_number_of_endsNumber {rest : Text} (ends : EndsNumber rest) :
    convertFrom .number rest = '\x7d' :: convert rest := by
  cases rest with
  | nil => rfl
  | cons char rest =>
      have notDigit : char.isDigit = false := ends char rfl
      simp only [convertFrom, convert, notDigit, Bool.false_eq_true, if_false]
      split
      · rfl
      · split <;> rfl

theorem convertFrom_number_append {digits : Text} (isDigit : ∀ digit ∈ digits, digit.isDigit = true)
    (rest : Text) : convertFrom .number (digits ++ rest) = digits ++ convertFrom .number rest := by
  induction digits with
  | nil => rfl
  | cons digit digits ih =>
      rw [List.cons_append, convertFrom, if_pos (isDigit digit (by simp)),
        ih fun other other_mem => isDigit other (List.mem_cons_of_mem digit other_mem)]
      rfl

/-- A number behind a backslash is put in braces behind a dollar sign. -/
theorem convert_backslash_number {digits rest : Text} (number : IsNumber digits)
    (ends : EndsNumber rest) :
    convert ('\\' :: digits ++ rest) = '$' :: '\x7b' :: digits ++ '\x7d' :: convert rest := by
  rcases number with ⟨ne_nil, isDigit⟩
  cases digits with
  | nil => exact absurd rfl ne_nil
  | cons digit digits =>
      have first : digit.isDigit = true := isDigit digit (by simp)
      have others : ∀ other ∈ digits, other.isDigit = true :=
        fun other other_mem => isDigit other (List.mem_cons_of_mem digit other_mem)
      have step : convert ('\\' :: digit :: digits ++ rest) =
          '$' :: '\x7b' :: digit :: convertFrom .number (digits ++ rest) := by
        simp [convert, first]
      rw [step, convertFrom_number_append others, convertFrom_number_of_endsNumber ends]
      rfl

theorem convert_backslash_backslash (rest : Text) :
    convert ('\\' :: '\\' :: rest) = '\\' :: convert rest := by
  simp [convert]

theorem convert_backslash {rest : Text} (ends : EndsNumber rest)
    (single : '\\' ∉ rest.head?) : convert ('\\' :: rest) = '\\' :: convert rest := by
  cases rest with
  | nil => rfl
  | cons char rest =>
      have notDigit : char.isDigit = false := ends char rfl
      have notBackslash : char ≠ '\\' := by simpa [eq_comm] using single
      by_cases dollar : char = '$'
      · simp [convert, dollar, Char.isDigit]
      · simp [convert, dollar, notDigit, notBackslash]

theorem convert_dollar_dollar (rest : Text) :
    convert ('$' :: '$' :: rest) = '$' :: '$' :: convert rest := by
  simp [convert]

/-- A text that makes a reference of a dollar sign before it. -/
def GoesOnReference (text : Text) : Prop :=
  ∃ char ∈ text.head?, char.isDigit = true ∨ char = '\x7b'

/-- Any other dollar sign is literal, and is written twice in a template. -/
theorem convert_dollar {rest : Text} (literal : ¬GoesOnReference rest) (single : '$' ∉ rest.head?) :
    convert ('$' :: rest) = '$' :: '$' :: convert rest := by
  cases rest with
  | nil => rfl
  | cons char rest =>
      have notReference : char.isDigit = false ∧ char ≠ '\x7b' := by
        simpa [GoesOnReference] using literal
      have notDollar : char ≠ '$' := by simpa [eq_comm] using single
      by_cases backslash : char = '\\'
      · simp [convert, backslash, Char.isDigit]
      · simp [convert, backslash, notReference, notDollar]

theorem convert_char {char : Char} (notDollar : char ≠ '$') (notBackslash : char ≠ '\\')
    (rest : Text) : convert (char :: rest) = char :: convert rest := by
  simp [convert, notDollar, notBackslash]

/-- What has no meaning in a replacement is kept. -/
theorem convert_append {plain : Text} (notDollar : '$' ∉ plain) (notBackslash : '\\' ∉ plain)
    (rest : Text) : convert (plain ++ rest) = plain ++ convert rest := by
  induction plain with
  | nil => rfl
  | cons char plain ih =>
      rw [List.mem_cons, not_or] at notDollar notBackslash
      rw [List.cons_append, convert_char (Ne.symm notDollar.1) (Ne.symm notBackslash.1),
        ih notDollar.2 notBackslash.2]
      rfl

end Template

/-! ## Expanding a template -/

namespace Expansion

variable {captures : Captures}

attribute [local simp] pieces

theorem expand_dollar_dollar (rest : Text) :
    expand ('$' :: '$' :: rest) captures = '$' :: expand rest captures := by
  simp [expand, Piece.text]

theorem expand_char {char : Char} (notDollar : char ≠ '$') (rest : Text) :
    expand (char :: rest) captures = char :: expand rest captures := by
  simp [expand, Piece.text, notDollar]

theorem expand_append {plain : Text} (notDollar : '$' ∉ plain) (rest : Text) :
    expand (plain ++ rest) captures = plain ++ expand rest captures := by
  induction plain with
  | nil => rfl
  | cons char plain ih =>
      rw [List.mem_cons, not_or] at notDollar
      rw [List.cons_append, expand_char (Ne.symm notDollar.1), ih notDollar.2]
      rfl

theorem pieces_braced_append {name : Text} (unclosed : '\x7d' ∉ name) (taken rest : Text) :
    pieces (.braced taken) (name ++ '\x7d' :: rest) =
      .reference (.ofText (taken.reverse ++ name)) :: pieces .literal rest := by
  induction name generalizing taken with
  | nil => simp
  | cons char name ih =>
      rw [List.mem_cons, not_or] at unclosed
      rw [List.cons_append, pieces, if_neg (Ne.symm unclosed.1), ih unclosed.2]
      simp

/-- A name in braces is a reference, whatever follows. -/
theorem expand_braced {name : Text} (unclosed : '\x7d' ∉ name) (rest : Text) :
    expand ('$' :: '\x7b' :: name ++ '\x7d' :: rest) captures =
      (Reference.ofText name).text captures ++ expand rest captures := by
  have read : pieces .literal ('$' :: '\x7b' :: name ++ '\x7d' :: rest) =
      .reference (.ofText name) :: pieces .literal rest := by
    have opened : pieces .literal ('$' :: '\x7b' :: name ++ '\x7d' :: rest) =
        pieces (.braced []) (name ++ '\x7d' :: rest) := by
      simp
    rw [opened, pieces_braced_append unclosed]
    rfl
  rw [expand, read, List.flatMap_cons]
  rfl

theorem pieces_bare_append {name : Text} (inName : ∀ char ∈ name, isReferenceChar char = true)
    (taken rest : Text) :
    pieces (.bare taken) (name ++ rest) = pieces (.bare (name.reverse ++ taken)) rest := by
  induction name generalizing taken with
  | nil => rfl
  | cons char name ih =>
      rw [List.cons_append, pieces, if_pos (inName char (by simp)),
        ih fun other other_mem => inName other (List.mem_cons_of_mem char other_mem)]
      simp

theorem pieces_bare_of_endsName {rest : Text} (ends : EndsName rest) (taken : Text) :
    pieces (.bare taken) rest = .reference (.ofText taken.reverse) :: pieces .literal rest := by
  cases rest with
  | nil => rfl
  | cons char rest =>
      have outside : isReferenceChar char = false := ends char rfl
      simp [outside]

/-- Without braces a reference takes all characters that a name may have. -/
theorem expand_bare {name rest : Text} (ne_nil : name ≠ [])
    (inName : ∀ char ∈ name, isReferenceChar char = true) (ends : EndsName rest) :
    expand ('$' :: name ++ rest) captures =
      (Reference.ofText name).text captures ++ expand rest captures := by
  cases name with
  | nil => exact absurd rfl ne_nil
  | cons first name =>
      have firstInName : isReferenceChar first = true := inName first (by simp)
      have notDollar : first ≠ '$' := by
        rintro rfl
        exact absurd firstInName (by decide)
      have notBrace : first ≠ '\x7b' := by
        rintro rfl
        exact absurd firstInName (by decide)
      have opened : pieces .literal ('$' :: first :: name ++ rest) =
          pieces (.bare [first]) (name ++ rest) := by
        simp [notDollar, notBrace, firstInName]
      have others : ∀ char ∈ name, isReferenceChar char = true :=
        fun char char_mem => inName char (List.mem_cons_of_mem first char_mem)
      rw [expand, opened, pieces_bare_append others, pieces_bare_of_endsName ends,
        List.reverse_append, List.reverse_reverse, List.flatMap_cons]
      rfl

theorem ofText_of_isNumber {digits : Text} (number : IsNumber digits) :
    Reference.ofText digits =
      if Text.decimalValue digits < 0x10000000000000000 then
        .numbered (Text.decimalValue digits)
      else .named digits := by
  have allDigits : digits.all Char.isDigit = true := List.all_eq_true.mpr number.isDigit
  have nonempty : digits.isEmpty = false := by simpa using number.ne_nil
  have unsigned : ∀ others, digits ≠ '+' :: others := by
    rintro others rfl
    have plus_not_mem : '+' ∉ '+' :: others := number.not_mem rfl
    simp at plus_not_mem
  rw [Reference.ofText, index?.eq_def]
  simp only [nonempty, allDigits, Bool.not_true, Bool.or_self, Bool.false_eq_true, if_false]
  by_cases small : Text.decimalValue digits < 0x10000000000000000
  · simp [small]
  · simp [small]

/-- A number stands for what its group has captured, also when it is too large for an index. -/
theorem text_ofText_of_isNumber {pattern text : Text} {regex : Regex}
    (compiled : Regex.compile pattern = .ok regex)
    (matched : regex.captures? text = some captures) {digits : Text} (number : IsNumber digits) :
    (Reference.ofText digits).text captures =
      (captures.group? (Text.decimalValue digits)).getD [] := by
  rw [ofText_of_isNumber number]
  split
  · rfl
  · rename_i large
    have noGroup : captures.group? (Text.decimalValue digits) = none := by
      apply Captures.group?_eq_none_of_le compiled matched
      simp only [Regex.sizeLimit]
      omega
    rcases number with ⟨ne_nil, isDigit⟩
    cases digits with
    | nil => exact absurd rfl ne_nil
    | cons first others =>
        have noName : captures.named? (first :: others) = none :=
          Captures.named?_eq_none compiled matched
            (Captures.isNameChar_eq_false_of_isDigit (isDigit first (by simp)))
        rw [Reference.text, noGroup, noName]

end Expansion

/-! ## Reading a replacement from the left -/

namespace Template

/-- A part of a replacement: a character, or a reference to the group with a number. -/
inductive Token
  | literal (char : Char)
  | group (digits : Text)
  deriving DecidableEq, Repr

namespace Token

/-- What a part stands for in a match; a group that took no part in it stands for nothing. -/
def text (captures : Captures) : Token → Text
  | .literal char => [char]
  | .group digits => (captures.group? (Text.decimalValue digits)).getD []

/--
The part that a replacement begins with, and what follows it. A backslash before digits
refers to a group, a backslash or a dollar sign that is written twice stands for one, and
any other character for itself.
-/
def first (char : Char) (rest : Text) : Token × Text :=
  if char = '\\' then
    if rest.takeWhile Char.isDigit ≠ [] then
      (.group (rest.takeWhile Char.isDigit), rest.dropWhile Char.isDigit)
    else if rest.head? = some '\\' then (.literal '\\', rest.tail)
    else (.literal '\\', rest)
  else if char = '$' ∧ rest.head? = some '$' then (.literal '$', rest.tail)
  else (.literal char, rest)

theorem length_first_le (char : Char) (rest : Text) : (first char rest).2.length ≤ rest.length := by
  have dropped : (rest.dropWhile Char.isDigit).length ≤ rest.length :=
    (List.dropWhile_sublist _).length_le
  unfold first
  split
  · split
    · exact dropped
    · split <;> simp
  · split <;> simp

end Token

/-- The parts of a replacement from left to right, each with the text at which it begins. -/
def reading : Text → List (Text × Token)
  | [] => []
  | char :: rest =>
      (char :: rest, (Token.first char rest).1) :: reading (Token.first char rest).2
termination_by replacement => replacement.length
decreasing_by
  have shorter := Token.length_first_le char rest
  simp only [List.length_cons]
  omega

/-- What a replacement means in a match. -/
def meaning (captures : Captures) (replacement : Text) : Text :=
  (reading replacement).flatMap fun step => step.2.text captures

/-- Reading never stands at a dollar sign before a digit or an opening brace. -/
def IsBackslashed (replacement : Text) : Prop :=
  ∀ step ∈ reading replacement, ∀ rest, step.1 = '$' :: rest → ¬GoesOnReference rest

theorem isNumber_takeWhile {rest : Text} (begins : rest.takeWhile Char.isDigit ≠ []) :
    IsNumber (rest.takeWhile Char.isDigit) :=
  ⟨begins, fun _ digit_mem => List.mem_takeWhile_imp digit_mem⟩

theorem endsNumber_dropWhile (rest : Text) : EndsNumber (rest.dropWhile Char.isDigit) :=
  fun _ isHead => eq_false_of_mem_head?_dropWhile isHead

theorem endsNumber_of_takeWhile_eq_nil {rest : Text} (none : rest.takeWhile Char.isDigit = []) :
    EndsNumber rest := by
  have same : rest.dropWhile Char.isDigit = rest := by
    have whole := List.takeWhile_append_dropWhile (p := Char.isDigit) (l := rest)
    rwa [none, List.nil_append] at whole
  rw [← same]
  exact endsNumber_dropWhile rest

/-- The conversion and the expansion of a replacement agree with its reading on the first part. -/
theorem expand_convert_cons {pattern text : Text} {regex : Regex} {captures : Captures}
    (compiled : Regex.compile pattern = .ok regex)
    (matched : regex.captures? text = some captures) {char : Char} {rest : Text}
    (literal : char = '$' → ¬GoesOnReference rest) :
    Expansion.expand (convert (char :: rest)) captures =
      (Token.first char rest).1.text captures ++
        Expansion.expand (convert (Token.first char rest).2) captures := by
  unfold Token.first
  by_cases backslash : char = '\\'
  · subst backslash
    rw [if_pos rfl]
    split
    · rename_i begins
      have number := isNumber_takeWhile begins
      have unclosed : '\x7d' ∉ rest.takeWhile Char.isDigit := number.not_mem rfl
      have whole : '\\' :: rest =
          '\\' :: rest.takeWhile Char.isDigit ++ rest.dropWhile Char.isDigit := by
        rw [List.cons_append, List.takeWhile_append_dropWhile]
      rw [whole, convert_backslash_number number (endsNumber_dropWhile rest),
        Expansion.expand_braced unclosed, Expansion.text_ofText_of_isNumber compiled matched number]
      rfl
    · rename_i noNumber
      have ends := endsNumber_of_takeWhile_eq_nil (not_not.mp noNumber)
      split
      · rename_i doubled
        rcases List.head?_eq_some_iff.mp doubled with ⟨others, rfl⟩
        rw [convert_backslash_backslash, Expansion.expand_char (by decide)]
        rfl
      · rename_i single
        rw [convert_backslash ends single, Expansion.expand_char (by decide)]
        rfl
  · rw [if_neg backslash]
    by_cases dollar : char = '$'
    · subst dollar
      split
      · rename_i doubled
        rcases List.head?_eq_some_iff.mp doubled.2 with ⟨others, rfl⟩
        rw [convert_dollar_dollar, Expansion.expand_dollar_dollar]
        rfl
      · rename_i single
        rw [convert_dollar (literal rfl) (fun second => single ⟨rfl, second⟩),
          Expansion.expand_dollar_dollar]
        rfl
    · rw [if_neg (fun doubled => dollar doubled.1), convert_char dollar backslash,
        Expansion.expand_char dollar]
      rfl

/-- A replacement with backslash references alone expands to what it means. -/
theorem expand_convert {pattern text : Text} {regex : Regex} {captures : Captures}
    (compiled : Regex.compile pattern = .ok regex)
    (matched : regex.captures? text = some captures) {replacement : Text}
    (backslashed : IsBackslashed replacement) :
    Expansion.expand (convert replacement) captures = meaning captures replacement := by
  induction replacement using reading.induct with
  | case1 => simp [convert, convertFrom, Expansion.expand, Expansion.pieces, meaning, reading]
  | case2 char rest ih =>
      unfold IsBackslashed at backslashed
      rw [reading, List.forall_mem_cons] at backslashed
      have here : char = '$' → ¬GoesOnReference rest := by
        rintro rfl
        exact backslashed.1 rest rfl
      rw [expand_convert_cons compiled matched here, ih backslashed.2, meaning, meaning]
      rw [reading.eq_def (char :: rest), List.flatMap_cons]

/-- A text with its backslashes and dollar signs written twice. -/
def doubled (text : Text) : Text :=
  text.flatMap fun char => if char = '\\' ∨ char = '$' then [char, char] else [char]

theorem first_doubled (char : Char) (rest : Text) :
    doubled (char :: rest) =
        char :: (if char = '\\' ∨ char = '$' then [char] else []) ++ doubled rest ∧
      Token.first char ((if char = '\\' ∨ char = '$' then [char] else []) ++ doubled rest) =
        (.literal char, doubled rest) := by
  by_cases backslash : char = '\\'
  · subst backslash
    simp [doubled, Token.first, Char.isDigit]
  · by_cases dollar : char = '$'
    · subst dollar
      simp [doubled, Token.first]
    · simp [doubled, Token.first, backslash, dollar]

/-- A doubled text is read one character of the text after the other. -/
theorem reading_doubled_cons (char : Char) (rest : Text) :
    reading (doubled (char :: rest)) =
      (doubled (char :: rest), .literal char) :: reading (doubled rest) := by
  rcases first_doubled char rest with ⟨whole, begins⟩
  rw [whole, List.cons_append, reading, begins]

theorem isBackslashed_doubled (text : Text) : IsBackslashed (doubled text) := by
  induction text with
  | nil => simp [IsBackslashed, doubled, reading]
  | cons char rest ih =>
      unfold IsBackslashed
      rw [reading_doubled_cons, List.forall_mem_cons]
      refine ⟨?_, ih⟩
      intro others stands goesOn
      rw [(first_doubled char rest).1, List.cons_append, List.cons.injEq] at stands
      rcases stands with ⟨rfl, rfl⟩
      simp [GoesOnReference, Char.isDigit] at goesOn

theorem meaning_doubled (captures : Captures) (text : Text) :
    meaning captures (doubled text) = text := by
  induction text with
  | nil => simp [meaning, doubled, reading]
  | cons char rest ih =>
      rw [meaning, reading_doubled_cons, List.flatMap_cons]
      exact congrArg (List.cons char) ih

end Template

/-! ## Rules with a regular expression -/

namespace AliasRule

variable {pattern : Text} {regex : Regex} {specifier : Specifier} {captures : Captures}

theorem exists_ofRegex (compiled : Regex.compile pattern = .ok regex)
    (matched : regex.captures? specifier = some captures) (replacement : Text) :
    ∃ rule, ofRegex pattern replacement = .ok rule ∧ rule.apply specifier =
      some (Expansion.expand (Template.convert replacement) captures) := by
  refine ⟨⟨regex, .ofReplacement replacement⟩, ?_, ?_⟩
  · rw [ofRegex, compile, compiled]
  · rw [apply, matched]
    rfl

/--
A rule gives what the reading of its replacement says, if that never stands at a dollar
sign before a digit or a brace. A doubled text is given as it was, whatever it holds.
-/
theorem apply_eq_meaning (compiled : Regex.compile pattern = .ok regex)
    (matched : regex.captures? specifier = some captures) :
    (∀ replacement, Template.IsBackslashed replacement →
      ∃ rule, ofRegex pattern replacement = .ok rule ∧
        rule.apply specifier = some (Template.meaning captures replacement)) ∧
    ∀ text, ∃ rule, ofRegex pattern (Template.doubled text) = .ok rule ∧
      rule.apply specifier = some text := by
  have reads : ∀ replacement, Template.IsBackslashed replacement →
      ∃ rule, ofRegex pattern replacement = .ok rule ∧
        rule.apply specifier = some (Template.meaning captures replacement) := by
    intro replacement backslashed
    rcases exists_ofRegex compiled matched replacement with ⟨rule, isRule, applied⟩
    rw [Template.expand_convert compiled matched backslashed] at applied
    exact ⟨rule, isRule, applied⟩
  refine ⟨reads, ?_⟩
  intro text
  rcases reads _ (Template.isBackslashed_doubled text) with ⟨rule, isRule, applied⟩
  rw [Template.meaning_doubled] at applied
  exact ⟨rule, isRule, applied⟩

/--
A dollar sign before a letter, two backslashes, a group that there is, two dollar signs and
a group that there is not; then a text that would refer to a group.
-/
theorem apply_eq_meaning_below_home :
    ∃ regex captures, Regex.compile "^~/(.*)$".toList = .ok regex ∧
      regex.captures? "~/a".toList = some captures ∧
      Template.IsBackslashed "./$src\\\\/\\1$$\\2".toList ∧
      Template.meaning captures "./$src\\\\/\\1$$\\2".toList = "./$src\\/a$".toList ∧
      (∃ rule, ofRegex "^~/(.*)$".toList "./$src\\\\/\\1$$\\2".toList = .ok rule ∧
        rule.apply "~/a".toList = some "./$src\\/a$".toList) ∧
      ∃ rule, ofRegex "^~/(.*)$".toList (Template.doubled "$1\\1".toList) = .ok rule ∧
        rule.apply "~/a".toList = some "$1\\1".toList := by
  have summary : (Regex.compile "^~/(.*)$".toList).toOption.map (fun regex =>
      (regex.captures? "~/a".toList).map fun captures => (captures.group? 1, captures.group? 2)) =
      some (some (some "a".toList, none)) := by
    decide +kernel
  rcases exists_of_map_toOption summary with ⟨regex, compiled, match_eq⟩
  rcases Option.map_eq_some_iff.mp match_eq with ⟨captures, matched, groups⟩
  obtain ⟨first, second⟩ := Prod.mk.inj groups
  have backslashed : Template.IsBackslashed "./$src\\\\/\\1$$\\2".toList := by
    simp [Template.IsBackslashed, Template.reading, Template.Token.first,
      Template.GoesOnReference, Char.isDigit]
  have means : Template.meaning captures "./$src\\\\/\\1$$\\2".toList =
      "./$src\\/a$".toList := by
    simp [Template.meaning, Template.reading, Template.Token.first, Template.Token.text,
      Char.isDigit, Text.decimalValue, first, second]
  rcases apply_eq_meaning compiled matched with ⟨reads, literal⟩
  have applied := reads _ backslashed
  rw [means] at applied
  exact ⟨regex, captures, compiled, matched, backslashed, means, applied, literal _⟩

end AliasRule

end ImportResolution
