import ImportResolution.Proofs.Alias.Template

/-!
# The spellings of a group reference

A replacement refers to a group as `\N`, `$N` or `${N}`. The first is put in braces by the
conversion, so both it and the last insert the group whatever follows. The second is left
bare, and when the template is expanded its name goes on over letters and underscores.

Main statement: `AliasRule.apply_respelled_iff`.
-/

namespace ImportResolution

/-! ## Replacements in two parts -/

namespace Template

/-- The last character, if any, is neither a dollar sign nor a backslash. -/
def EndsPlain (text : Text) : Prop :=
  ∀ char ∈ text.getLast?, char ≠ '$' ∧ char ≠ '\\'

theorem EndsPlain.of_cons {char : Char} {rest : Text} (plain : EndsPlain (char :: rest)) :
    EndsPlain rest := by
  intro last isLast
  refine plain last ?_
  rw [Option.mem_def] at isLast ⊢
  rw [List.getLast?_cons, isLast]
  rfl

/-- A dollar sign or a backslash in a text that ends plainly has something behind it. -/
theorem EndsPlain.ne_nil {char : Char} {rest : Text} (plain : EndsPlain (char :: rest))
    (special : char = '$' ∨ char = '\\') : rest ≠ [] := by
  rintro rfl
  have notSpecial := plain char rfl
  rcases special with dollar | backslash
  · exact notSpecial.1 dollar
  · exact notSpecial.2 backslash

/-- A text that ends plainly is converted by itself; a number at its end must end there. -/
theorem convertFrom_append_of_endsNumber {first rest : Text} {mode : Mode}
    (plain : EndsPlain first) (outside : first = [] → mode = .literal ∨ mode = .number)
    (ends : EndsNumber rest) :
    convertFrom mode (first ++ rest) = convertFrom mode first ++ convert rest := by
  induction first generalizing mode with
  | nil =>
      rcases outside rfl with rfl | rfl
      · rfl
      · exact convertFrom_number_of_endsNumber ends
  | cons char first ih =>
      have literal := @ih .literal plain.of_cons fun _ => .inl rfl
      have number := @ih .number plain.of_cons fun _ => .inr rfl
      have special : char = '$' ∨ char = '\\' → ∀ next, convertFrom next (first ++ rest) =
          convertFrom next first ++ convert rest :=
        fun isSpecial next => ih plain.of_cons fun nothing =>
          absurd nothing (plain.ne_nil isSpecial)
      rw [List.cons_append]
      cases mode <;> simp only [convertFrom] <;> split_ifs <;> simp [*]

theorem ne_dollar_of_isDigit {char : Char} (isDigit : char.isDigit = true) : char ≠ '$' := by
  rintro rfl
  simp [Char.isDigit] at isDigit

/-- A template in which every dollar sign has the character behind it that it is about. -/
inductive IsPaired : Text → Prop
  | nil : IsPaired []
  | char {char : Char} {rest : Text} (notDollar : char ≠ '$') (paired : IsPaired rest) :
      IsPaired (char :: rest)
  | dollar {char : Char} {rest : Text} (paired : IsPaired rest) : IsPaired ('$' :: char :: rest)

theorem isPaired_convertFrom (mode : Mode) (replacement : Text) :
    IsPaired (convertFrom mode replacement) := by
  induction replacement generalizing mode with
  | nil =>
      cases mode with
      | literal => exact .nil
      | dollar => exact .dollar .nil
      | backslash => exact .char (by decide) .nil
      | number => exact .char (by decide) .nil
  | cons char rest ih =>
      cases mode with
      | literal =>
          rw [convertFrom]
          split_ifs with dollar backslash
          · exact ih .dollar
          · exact ih .backslash
          · exact .char dollar (ih .literal)
      | dollar =>
          rw [convertFrom]
          split_ifs with dollar reference backslash
          · exact .dollar (ih .literal)
          · exact .dollar (ih .literal)
          · exact .dollar (ih .backslash)
          · exact .dollar (.char dollar (ih .literal))
      | backslash =>
          rw [convertFrom]
          split_ifs with isDigit backslash dollar
          · exact .dollar (.char (ne_dollar_of_isDigit isDigit) (ih .number))
          · exact .char (by decide) (ih .literal)
          · exact .char (by decide) (ih .dollar)
          · exact .char (by decide) (.char dollar (ih .literal))
      | number =>
          rw [convertFrom]
          split_ifs with isDigit dollar backslash
          · exact .char (ne_dollar_of_isDigit isDigit) (ih .number)
          · exact .char (by decide) (ih .dollar)
          · exact .char (by decide) (ih .backslash)
          · exact .char (by decide) (.char dollar (ih .literal))

end Template

/-! ## Templates in two parts -/

namespace Expansion

/-- How reading a template goes on after one more character, if all its braces are closed. -/
def Mode.next (char : Char) : Mode → Mode
  | .literal => if char = '$' then .dollar else .literal
  | .dollar =>
      if char = '$' then .literal
      else if char = '\x7b' then .braced []
      else if isReferenceChar char then .bare [char]
      else .literal
  | .braced taken => if char = '\x7d' then .literal else .braced (char :: taken)
  | .bare taken =>
      if isReferenceChar char then .bare (char :: taken)
      else if char = '$' then .dollar
      else .literal

/-- How reading a template goes on after some text. -/
def Mode.after (text : Text) (mode : Mode) : Mode :=
  text.foldl (fun mode char => mode.next char) mode

theorem Mode.after_cons (char : Char) (rest : Text) (mode : Mode) :
    mode.after (char :: rest) = (mode.next char).after rest :=
  rfl

/-- Braces that are closed have their closing brace. -/
theorem Mode.brace_mem_of_after {text : Text} {taken : Text}
    (closed : ∀ name, Mode.after text (.braced taken) ≠ .braced name) : '\x7d' ∈ text := by
  induction text generalizing taken with
  | nil => exact absurd rfl (closed taken)
  | cons char rest ih =>
      by_cases closes : char = '\x7d'
      · simp [closes]
      · rw [Mode.after_cons, Mode.next, if_neg closes] at closed
        exact List.mem_cons_of_mem char (ih closed)

theorem Mode.next_ne_dollar {char : Char} (notDollar : char ≠ '$') (mode : Mode) :
    mode.next char ≠ .dollar := by
  cases mode with
  | literal => simp [Mode.next, notDollar]
  | dollar =>
      rw [Mode.next, if_neg notDollar]
      split_ifs <;> simp
  | braced taken =>
      rw [Mode.next]
      split_ifs <;> simp
  | bare taken =>
      rw [Mode.next, if_neg notDollar]
      split_ifs <;> simp

theorem Mode.next_next_ne_dollar {mode : Mode} (settled : mode ≠ .dollar) (char : Char) :
    (mode.next '$').next char ≠ .dollar := by
  cases mode with
  | literal =>
      rw [Mode.next, if_pos rfl, Mode.next]
      split_ifs <;> simp
  | dollar => contradiction
  | braced taken =>
      rw [Mode.next, if_neg (by decide), Mode.next]
      split_ifs <;> simp
  | bare taken =>
      rw [Mode.next, if_neg (by decide), if_pos rfl, Mode.next]
      split_ifs <;> simp

/-- No dollar sign of such a template is left to what follows it. -/
theorem Mode.after_ne_dollar {template : Text} (paired : Template.IsPaired template) {mode : Mode}
    (settled : mode ≠ .dollar) : mode.after template ≠ .dollar := by
  induction paired generalizing mode with
  | nil => exact settled
  | char notDollar _ ih => exact ih (Mode.next_ne_dollar notDollar mode)
  | dollar _ ih => exact ih (Mode.next_next_ne_dollar settled _)

/-- Two templates are read one after the other, if the first does not run into the second. -/
theorem pieces_append {first rest : Text} {mode : Mode}
    (closed : ∀ name, mode.after first ≠ .braced name) (settled : mode.after first ≠ .dollar)
    (ends : EndsName rest) :
    pieces mode (first ++ rest) = pieces mode first ++ pieces .literal rest := by
  induction first generalizing mode with
  | nil =>
      cases mode with
      | literal => rfl
      | dollar => exact absurd rfl settled
      | braced taken => exact absurd rfl (closed taken)
      | bare taken => exact pieces_bare_of_endsName ends taken
  | cons char first ih =>
      rw [Mode.after_cons] at closed settled
      have read := ih closed settled
      rw [List.cons_append]
      cases mode with
      | literal =>
          rw [pieces, pieces]
          rw [Mode.next] at read
          split_ifs at read ⊢ with dollar
          · exact read
          · rw [read]
            rfl
      | dollar =>
          rw [pieces, pieces]
          by_cases brace : char = '\x7b'
          · subst brace
            have brace_mem : '\x7d' ∈ first := Mode.brace_mem_of_after closed
            simpa [brace_mem, Mode.next] using read
          · rw [Mode.next] at read
            simp only [brace, decide_false, Bool.false_and, Bool.false_eq_true, if_false] at read ⊢
            split_ifs at read ⊢ with dollar inName
            · rw [read]
              rfl
            · exact read
            · rw [read]
              rfl
      | braced taken =>
          rw [pieces, pieces]
          rw [Mode.next] at read
          split_ifs at read ⊢ with closes
          · rw [read]
            rfl
          · exact read
      | bare taken =>
          rw [pieces, pieces]
          rw [Mode.next] at read
          split_ifs at read ⊢ with inName dollar
          · exact read
          · rw [read]
            rfl
          · rw [read]
            rfl

theorem expand_append_of_settled {first rest : Text} {captures : Captures}
    (closed : ∀ name, Mode.after first .literal ≠ .braced name)
    (settled : Mode.after first .literal ≠ .dollar)
    (ends : EndsName rest) :
    expand (first ++ rest) captures = expand first captures ++ expand rest captures := by
  rw [expand, pieces_append closed settled ends, List.flatMap_append]
  rfl

end Expansion

/-! ## Spellings -/

/-- How the reference to a group is written. -/
inductive Spelling
  | backslash
  | bare
  | braced
  deriving DecidableEq, Repr

/-- The reference with a number in one of its spellings. -/
def Spelling.write (digits : Text) : Spelling → Text
  | .backslash => '\\' :: digits
  | .bare => '$' :: digits
  | .braced => '$' :: '\x7b' :: digits ++ ['\x7d']

namespace Template

/-- Some braces behind a dollar sign are still open where a replacement ends. -/
def LeavesOpen (replacement : Text) : Prop :=
  ∃ name, Expansion.Mode.after (convert replacement) .literal = .braced name

/-- A reference with a backslash and one in braces come to the same. -/
theorem convert_write_of_ne_bare {spelling : Spelling} (notBare : spelling ≠ .bare)
    {digits after : Text} (number : IsNumber digits) (ends : EndsNumber after) :
    convert (spelling.write digits ++ after) =
      '$' :: '\x7b' :: digits ++ '\x7d' :: convert after := by
  cases spelling with
  | backslash => exact convert_backslash_number number ends
  | bare => contradiction
  | braced =>
      have notDollar : '$' ∉ digits ++ ['\x7d'] := by
        have outside : '$' ∉ digits := number.not_mem rfl
        simp [outside]
      have notBackslash : '\\' ∉ digits ++ ['\x7d'] := by
        have outside : '\\' ∉ digits := number.not_mem rfl
        simp [outside]
      have opened : convert (Spelling.braced.write digits ++ after) =
          '$' :: '\x7b' :: convert (digits ++ ['\x7d'] ++ after) := by
        simp [Spelling.write, convert, convertFrom]
      rw [opened, convert_append notDollar notBackslash]
      simp

theorem convert_write_bare {digits : Text} (number : IsNumber digits) (after : Text) :
    convert (Spelling.bare.write digits ++ after) = '$' :: digits ++ convert after := by
  cases digits with
  | nil => exact absurd rfl number.ne_nil
  | cons digit digits =>
      have first : digit.isDigit = true := number.isDigit digit (by simp)
      have notDollar : '$' ∉ digit :: digits := number.not_mem rfl
      have notBackslash : '\\' ∉ digit :: digits := number.not_mem rfl
      rw [List.mem_cons, not_or] at notDollar notBackslash
      have opened : convert (Spelling.bare.write (digit :: digits) ++ after) =
          '$' :: digit :: convert (digits ++ after) := by
        simp [Spelling.write, convert, convertFrom, first, Ne.symm notDollar.1]
      rw [opened, convert_append notDollar.2 notBackslash.2]
      rfl

theorem endsName_cons {char : Char} (outside : Expansion.isReferenceChar char = false)
    (rest : Text) : EndsName (char :: rest) := by
  rintro first ⟨⟩
  exact outside

theorem endsName_convertFrom {mode : Mode} (special : mode = .dollar ∨ mode = .backslash)
    (rest : Text) : EndsName (convertFrom mode rest) := by
  rcases special with rfl | rfl
  · cases rest with
    | nil => exact endsName_cons (by decide) _
    | cons char rest =>
        rw [convertFrom]
        split_ifs <;> exact endsName_cons (by decide) _
  · cases rest with
    | nil => exact endsName_cons (by decide) _
    | cons char rest =>
        rw [convertFrom]
        split_ifs <;> exact endsName_cons (by decide) _

/-- The conversion puts no character of a name at the beginning. -/
theorem endsName_convert {replacement : Text} (ends : EndsName replacement) :
    EndsName (convert replacement) := by
  cases replacement with
  | nil => exact ends
  | cons char rest =>
      rw [convert, convertFrom]
      split_ifs
      · exact endsName_convertFrom (.inl rfl) rest
      · exact endsName_convertFrom (.inr rfl) rest
      · exact endsName_cons (ends char rfl) _

theorem isReferenceChar_of_isDigit {char : Char} (isDigit : char.isDigit = true) :
    Expansion.isReferenceChar char = true := by
  simp [Expansion.isReferenceChar, Char.isAlphanum, isDigit]

/-- A name that begins with a digit and goes on with something else is no index. -/
theorem ofText_eq_named {first char : Char} {others : Text} (isDigit : first.isDigit = true)
    (char_mem : char ∈ others) (notDigit : char.isDigit = false) :
    Expansion.Reference.ofText (first :: others) = .named (first :: others) := by
  have notNumber : (first :: others).all Char.isDigit = false := by
    rw [List.all_eq_false]
    exact ⟨char, List.mem_cons_of_mem first char_mem, by simp [notDigit]⟩
  have unsigned : first ≠ '+' := by
    rintro rfl
    simp [Char.isDigit] at isDigit
  have noIndex : Expansion.index? (first :: others) = none := by
    rw [Expansion.index?.eq_def]
    split
    · rename_i rest whole
      exact absurd (List.cons.inj whole).1 unsigned
    · simp only [notNumber, Bool.not_false, Bool.or_true, if_true]
  rw [Expansion.Reference.ofText, noIndex]

/-- The part of a text that belongs to a name before it. -/
theorem exists_name_append (text : Text) :
    ∃ name rest, text = name ++ rest ∧
      (∀ char ∈ name, Expansion.isReferenceChar char = true) ∧ EndsName rest := by
  refine ⟨text.takeWhile Expansion.isReferenceChar, text.dropWhile Expansion.isReferenceChar,
    List.takeWhile_append_dropWhile.symm, ?_, ?_⟩
  · exact fun _ char_mem => List.mem_takeWhile_imp char_mem
  · exact fun _ isHead => eq_false_of_mem_head?_dropWhile isHead

section

variable {pattern text : Text} {regex : Regex} {captures : Captures}
variable {digits after : Text} {spelling : Spelling}

/-- No group has a name that begins with a number. -/
theorem text_ofText_eq_nil (compiled : Regex.compile pattern = .ok regex)
    (matched : regex.captures? text = some captures) (number : IsNumber digits) {char : Char}
    {others : Text} (char_mem : char ∈ others) (notDigit : char.isDigit = false) :
    (Expansion.Reference.ofText (digits ++ others)).text captures = [] := by
  rcases number with ⟨ne_nil, isDigit⟩
  cases digits with
  | nil => exact absurd rfl ne_nil
  | cons first digits =>
      have first_isDigit : first.isDigit = true := isDigit first (by simp)
      have noName : captures.named? (first :: (digits ++ others)) = none :=
        Captures.named?_eq_none compiled matched
          (Captures.isNameChar_eq_false_of_isDigit first_isDigit)
      rw [List.cons_append, ofText_eq_named first_isDigit
        (List.mem_append_right digits char_mem) notDigit, Expansion.Reference.text, noName]
      rfl

/-- A reference inserts the text of its group, unless its name goes on behind the number. -/
theorem expand_write (compiled : Regex.compile pattern = .ok regex)
    (matched : regex.captures? text = some captures) (number : IsNumber digits)
    (ends : EndsNumber after) (separate : spelling ≠ .bare ∨ EndsName after) :
    Expansion.expand (convert (spelling.write digits ++ after)) captures =
      (captures.group? (Text.decimalValue digits)).getD [] ++
        Expansion.expand (convert after) captures := by
  rw [← Expansion.text_ofText_of_isNumber compiled matched number]
  by_cases bare : spelling = .bare
  · subst bare
    have endsName : EndsName after := separate.resolve_left (not_not.mpr rfl)
    have inName : ∀ digit ∈ digits, Expansion.isReferenceChar digit = true :=
      fun digit digit_mem => isReferenceChar_of_isDigit (number.isDigit digit digit_mem)
    rw [convert_write_bare number,
      Expansion.expand_bare number.ne_nil inName (endsName_convert endsName)]
  · have unclosed : '\x7d' ∉ digits := number.not_mem rfl
    rw [convert_write_of_ne_bare bare number ends, Expansion.expand_braced unclosed]

/--
A bare reference before a letter or an underscore takes it and what follows it into the
name of a group that there is not, so all of the name is lost.
-/
theorem exists_expand_write_bare (compiled : Regex.compile pattern = .ok regex)
    (matched : regex.captures? text = some captures) (number : IsNumber digits)
    (ends : EndsNumber after) (goesOn : ¬EndsName after) :
    ∃ lost, lost ≠ [] ∧ Expansion.expand (convert after) captures =
      lost ++ Expansion.expand (convert (Spelling.bare.write digits ++ after)) captures := by
  cases after with
  | nil => simp [EndsName] at goesOn
  | cons char after =>
      have inName : Expansion.isReferenceChar char = true := by
        simpa [EndsName] using goesOn
      have notDigit : char.isDigit = false := ends char rfl
      have notDollar : char ≠ '$' := by
        rintro rfl
        contradiction
      have notBackslash : char ≠ '\\' := by
        rintro rfl
        contradiction
      rcases exists_name_append (convert after) with ⟨name, rest, convert_eq, name_inName, ends⟩
      have kept : convert (char :: after) = char :: name ++ rest := by
        rw [convert_char notDollar notBackslash, convert_eq]
        rfl
      have name_outside : '$' ∉ char :: name := by
        intro dollar_mem
        rcases List.mem_cons.mp dollar_mem with dollar | dollar_mem
        · exact notDollar dollar.symm
        · exact absurd (name_inName '$' dollar_mem) (by decide)
      refine ⟨char :: name, List.cons_ne_nil _ _, ?_⟩
      rw [kept, Expansion.expand_append name_outside, convert_write_bare number, kept]
      have joined : '$' :: digits ++ (char :: name ++ rest) =
          '$' :: (digits ++ char :: name) ++ rest := by
        simp
      have joined_inName : ∀ other ∈ digits ++ char :: name,
          Expansion.isReferenceChar other = true := by
        simp only [List.forall_mem_append, List.forall_mem_cons]
        exact ⟨fun digit digit_mem => isReferenceChar_of_isDigit (number.isDigit digit digit_mem),
          inName, name_inName⟩
      rw [joined, Expansion.expand_bare (by simp) joined_inName ends,
        text_ofText_eq_nil compiled matched number (by simp) notDigit]
      rfl

/-- Only a bare reference that goes on differs from the others. -/
theorem expand_write_eq_iff (compiled : Regex.compile pattern = .ok regex)
    (matched : regex.captures? text = some captures) (number : IsNumber digits)
    (ends : EndsNumber after) (written other : Spelling) :
    Expansion.expand (convert (other.write digits ++ after)) captures =
        Expansion.expand (convert (written.write digits ++ after)) captures ↔
      (written = .bare ↔ other = .bare) ∨ EndsName after := by
  have inserts {spelling : Spelling} :=
    @expand_write _ _ _ _ _ _ spelling compiled matched number ends
  by_cases separate : EndsName after
  · simp [inserts, separate]
  · rcases exists_expand_write_bare compiled matched number ends separate with
      ⟨lost, ne_nil, loses⟩
    have differs : ∀ spelling ≠ Spelling.bare,
        Expansion.expand (convert (spelling.write digits ++ after)) captures ≠
          Expansion.expand (convert (Spelling.bare.write digits ++ after)) captures := by
      intro spelling notBare same
      rw [inserts (.inl notBare), loses, ← List.append_assoc, List.append_left_eq_self] at same
      exact ne_nil (List.append_eq_nil_iff.mp same).2
    by_cases writtenBare : written = .bare
    · by_cases otherBare : other = .bare
      · simp [writtenBare, otherBare]
      · simp [writtenBare, otherBare, separate, differs other otherBare]
    · by_cases otherBare : other = .bare
      · simp [writtenBare, otherBare, separate, (differs written writtenBare).symm]
      · simp [writtenBare, otherBare, inserts]

/-- What stands before a reference is expanded by itself, if it leaves no braces open. -/
theorem expand_append_write {before : Text} (plain : EndsPlain before)
    (closed : ¬LeavesOpen before) (spelling : Spelling) :
    Expansion.expand (convert (before ++ spelling.write digits ++ after)) captures =
      Expansion.expand (convert before) captures ++
        Expansion.expand (convert (spelling.write digits ++ after)) captures := by
  have separate : EndsNumber (spelling.write digits ++ after) := by
    cases spelling <;> rintro char ⟨⟩ <;> rfl
  have endsName : EndsName (spelling.write digits ++ after) := by
    cases spelling <;> exact endsName_cons (by decide) _
  have converted : convert (before ++ spelling.write digits ++ after) =
      convert before ++ convert (spelling.write digits ++ after) := by
    rw [List.append_assoc]
    exact convertFrom_append_of_endsNumber plain (fun _ => .inl rfl) separate
  rw [converted]
  refine Expansion.expand_append_of_settled ?_ ?_ (endsName_convert endsName)
  · intro name isOpen
    exact closed ⟨name, isOpen⟩
  · exact Expansion.Mode.after_ne_dollar (isPaired_convertFrom .literal before) (by simp)

end

end Template

/-! ## Rules -/

namespace AliasRule

open Template

variable {pattern : Text} {regex : Regex} {specifier : Specifier} {captures : Captures}

/--
Behind text that leaves no braces open, two spellings of a reference give the same, unless
just one of them is bare and a letter or an underscore follows. Every spelling but that
inserts the text of the group.
-/
theorem apply_respelled_iff (compiled : Regex.compile pattern = .ok regex)
    (matched : regex.captures? specifier = some captures) {before digits after : Text}
    (plain : EndsPlain before) (closed : ¬LeavesOpen before) (number : IsNumber digits)
    (ends : EndsNumber after) (written other : Spelling) :
    ∃ rule respelled,
      ofRegex pattern (before ++ written.write digits ++ after) = .ok rule ∧
      ofRegex pattern (before ++ other.write digits ++ after) = .ok respelled ∧
      (respelled.apply specifier = rule.apply specifier ↔
        (written = .bare ↔ other = .bare) ∨ EndsName after) ∧
      (written ≠ .bare ∨ EndsName after → rule.apply specifier =
        some (Expansion.expand (convert before) captures ++
          (captures.group? (Text.decimalValue digits)).getD [] ++
          Expansion.expand (convert after) captures)) := by
  rcases exists_ofRegex compiled matched (before ++ written.write digits ++ after) with
    ⟨rule, isRule, applied⟩
  rcases exists_ofRegex compiled matched (before ++ other.write digits ++ after) with
    ⟨respelled, isRespelled, reapplied⟩
  rw [expand_append_write plain closed] at applied reapplied
  refine ⟨rule, respelled, isRule, isRespelled, ?_, ?_⟩
  · rw [applied, reapplied, Option.some_inj, List.append_cancel_left_eq,
      expand_write_eq_iff compiled matched number ends]
  · intro separate
    rw [applied, expand_write compiled matched number ends separate, List.append_assoc]

theorem exists_captures_below_x :
    ∃ regex captures, Regex.compile "^x/(.*)$".toList = .ok regex ∧
      regex.captures? "x/a".toList = some captures ∧ captures.group? 1 = some "a".toList := by
  have summary : (Regex.compile "^x/(.*)$".toList).toOption.map (fun regex =>
      (regex.captures? "x/a".toList).map fun captures => captures.group? 1) =
      some (some (some "a".toList)) := by
    decide +kernel
  rcases exists_of_map_toOption summary with ⟨regex, compiled, match_eq⟩
  rcases Option.map_eq_some_iff.mp match_eq with ⟨captures, matched, first⟩
  exact ⟨regex, captures, compiled, matched, first⟩

theorem isNumber_one : IsNumber "1".toList :=
  ⟨by decide, (List.all_eq_true (p := Char.isDigit)).mp (by decide)⟩

theorem endsNumber_old : EndsNumber "_old".toList := by
  rintro char ⟨⟩
  rfl

theorem endsPlain_dotSlash : EndsPlain "./".toList := by
  rintro char ⟨⟩
  decide

theorem not_leavesOpen_dotSlash : ¬LeavesOpen "./".toList := by
  rintro ⟨name, isOpen⟩
  have settled : Expansion.Mode.after (convert "./".toList) .literal = .literal := by decide
  rw [settled] at isOpen
  contradiction

/-- Before an underscore only the spelling with a backslash, or with braces, inserts the group. -/
theorem apply_respelled_before_underscore :
    ∃ regex captures, Regex.compile "^x/(.*)$".toList = .ok regex ∧
      regex.captures? "x/a".toList = some captures ∧
      EndsPlain "./".toList ∧ ¬LeavesOpen "./".toList ∧ IsNumber "1".toList ∧
      EndsNumber "_old".toList ∧
      ∃ rule respelled, ofRegex "^x/(.*)$".toList "./\\1_old".toList = .ok rule ∧
        ofRegex "^x/(.*)$".toList "./$1_old".toList = .ok respelled ∧
        respelled.apply "x/a".toList ≠ rule.apply "x/a".toList ∧
        rule.apply "x/a".toList = some "./a_old".toList := by
  rcases exists_captures_below_x with ⟨regex, captures, compiled, matched, first⟩
  rcases apply_respelled_iff compiled matched endsPlain_dotSlash not_leavesOpen_dotSlash
    isNumber_one endsNumber_old .backslash .bare with
    ⟨rule, respelled, isRule, isRespelled, same_iff, inserts⟩
  refine ⟨regex, captures, compiled, matched, endsPlain_dotSlash, not_leavesOpen_dotSlash,
    isNumber_one, endsNumber_old, rule, respelled, isRule, isRespelled, ?_, ?_⟩
  · intro same
    rcases same_iff.mp same with agree | endsName
    · exact absurd (agree.mpr rfl) (by decide)
    · exact absurd (endsName '_' rfl) (by decide)
  · have number : Text.decimalValue "1".toList = 1 := by decide
    rw [inserts (.inl (by decide)), number, first]
    rfl

/-- The spellings of a reference are not interchangeable. -/
theorem not_forall_apply_respelled :
    ¬∀ (pattern before digits after : Text) (written other : Spelling) (rule respelled : AliasRule)
      (specifier result : Text), IsNumber digits → EndsPlain before → EndsNumber after →
      ofRegex pattern (before ++ written.write digits ++ after) = .ok rule →
      ofRegex pattern (before ++ other.write digits ++ after) = .ok respelled →
      rule.apply specifier = some result → respelled.apply specifier = some result := by
  intro interchangeable
  have summary : (ofRegex "^x/(.*)$".toList "./\\1_old".toList).toOption.map
      (fun rule => rule.apply "x/a".toList) = some (some "./a_old".toList) := by
    decide +kernel
  have resummary : (ofRegex "^x/(.*)$".toList "./$1_old".toList).toOption.map
      (fun rule => rule.apply "x/a".toList) = some (some "./".toList) := by
    decide +kernel
  rcases exists_of_map_toOption summary with ⟨rule, isRule, applied⟩
  rcases exists_of_map_toOption resummary with ⟨respelled, isRespelled, reapplied⟩
  have same := interchangeable _ "./".toList "1".toList "_old".toList .backslash .bare rule
    respelled _ _ isNumber_one endsPlain_dotSlash endsNumber_old isRule isRespelled applied
  rw [reapplied] at same
  revert same
  decide

end AliasRule

end ImportResolution
