import ImportResolution.Json.Strings

/-!
# Strings as they are written

A text has many spellings between quotes: characters may stand for themselves or be escaped
by a letter, by four hexadecimal digits or, outside the basic plane, by two times four.
Whichever spelling is chosen, reading it gives back the text and stops behind the closing
quote (`Json.readString_of_spells`).
-/

namespace ImportResolution

namespace Json

/-! ## Hexadecimal digits -/

/-- The number that hexadecimal digits denote behind those that made up a value. -/
def hexValue? (value : Nat) : Text → Option Nat
  | [] => some value
  | digit :: digits => (Text.hexDigit? digit).bind fun next => hexValue? (value * 16 + next) digits

/-- Four digits denote a code. -/
def IsCode (digits : Text) (code : Nat) : Prop :=
  digits.length = 4 ∧ hexValue? 0 digits = some code

/-- Digits are read as one unit of a string, whatever follows them. -/
theorem readString_hex {high : Option Nat} {unit : Option Char} {mode : StringMode}
    {digits rest : Text} {value code : Nat} (nonempty : digits ≠ [])
    (isCode : hexValue? value digits = some code)
    (isUnit : ∀ position, unitOf position code high = .ok (unit, mode)) (position : Position) :
    ∃ last, readString (.hex digits.length value high) position (digits ++ rest) =
      (readString mode last rest).map fun read => (unit.toList ++ read.1, read.2) := by
  induction digits generalizing value position with
  | nil => contradiction
  | cons digit digits ih =>
      rcases Option.bind_eq_some_iff.mp isCode with ⟨next, isDigit, isCode⟩
      cases digits with
      | nil =>
          -- The last digit makes up the code; up to it the reading stays among digits.
          rcases isCode with ⟨rfl⟩
          refine ⟨position.after digit, ?_⟩
          cases unit with
          | none => cases read : readString mode (position.after digit) rest <;>
              simp [readString, isDigit, isUnit, read, Except.map]
          | some char => simp [readString, isDigit, isUnit]
      | cons second others =>
          rcases ih (by simp) isCode (position.after digit) with ⟨last, reads⟩
          refine ⟨last, ?_⟩
          simpa [readString, isDigit] using reads

/-! ## Spellings -/

/-- What stands between the quotes of a string is a spelling of a text. -/
inductive Spells : Text → Text → Prop
  | nil : Spells [] []
  | plain {char : Char} {written text : Text} (noQuote : char ≠ '"') (noBackslash : char ≠ '\\')
      (noControl : ¬char < ' ') (rest : Spells written text) :
      Spells (char :: written) (char :: text)
  | escape {letter char : Char} {written text : Text} (isEscape : simpleEscape? letter = some char)
      (rest : Spells written text) : Spells ('\\' :: letter :: written) (char :: text)
  | code {digits written text : Text} {code : Nat} (isCode : IsCode digits code)
      (notHigh : isHighSurrogate code = false) (notLow : isLowSurrogate code = false)
      (rest : Spells written text) :
      Spells ('\\' :: 'u' :: (digits ++ written)) (Char.ofNat code :: text)
  | pair {digits others written text : Text} {high low : Nat} (isCode : IsCode digits high)
      (isHigh : isHighSurrogate high = true) (isOther : IsCode others low)
      (isLow : isLowSurrogate low = true) (rest : Spells written text) :
      Spells ('\\' :: 'u' :: (digits ++ '\\' :: 'u' :: (others ++ written)))
        (Char.ofNat (0x10000 + (high - 0xD800) * 0x400 + (low - 0xDC00)) :: text)

/-- A code is read as one unit of a string, with the letter that announces it. -/
theorem readString_code {high : Option Nat} {unit : Option Char} {mode : StringMode}
    {digits : Text} {code : Nat} (isCode : IsCode digits code)
    (isUnit : ∀ position, unitOf position code high = .ok (unit, mode)) (rest : Text)
    (position : Position) :
    ∃ last, readString (.hex 4 0 high) position (digits ++ rest) =
      (readString mode last rest).map fun read => (unit.toList ++ read.1, read.2) := by
  have nonempty : digits ≠ [] := List.ne_nil_of_length_pos (by simp [isCode.1])
  rw [← isCode.1]
  exact readString_hex nonempty isCode.2 isUnit position

theorem not_isLowSurrogate_of_isHighSurrogate {code : Nat} (isHigh : isHighSurrogate code = true) :
    isLowSurrogate code = false := by
  simp only [isHighSurrogate, Bool.and_eq_true, decide_eq_true_eq] at isHigh
  simp only [isLowSurrogate, Bool.and_eq_false_iff, decide_eq_false_iff_not]
  omega

/-- A text is read from each of its spellings, wherever that stands and whatever follows. -/
theorem readString_of_spells {written text : Text} (spells : Spells written text) (rest : Text)
    (position : Position) :
    ∃ after, readString .plain position (written ++ '"' :: rest) = .ok (text, ⟨after, rest⟩) := by
  induction spells generalizing position with
  | nil => exact ⟨position.after '"', by simp [readString]⟩
  | @plain char written text noQuote noBackslash noControl _ ih =>
      rcases ih (position.after char) with ⟨after, reads⟩
      exact ⟨after, by simp [readString, noQuote, noBackslash, noControl, reads, Except.map]⟩
  | @escape letter char written text isEscape _ ih =>
      have notCode : letter ≠ 'u' := by
        rintro rfl
        contradiction
      rcases ih ((position.after '\\').after letter) with ⟨after, reads⟩
      exact ⟨after, by simp [readString, notCode, isEscape, reads, Except.map]⟩
  | @code digits written text code isCode notHigh notLow _ ih =>
      have isUnit (position : Position) :
          unitOf position code none = .ok (some (Char.ofNat code), .plain) := by
        simp [unitOf, notHigh, notLow]
      rcases readString_code isCode isUnit (written ++ '"' :: rest)
        ((position.after '\\').after 'u') with ⟨last, readsCode⟩
      rcases ih last with ⟨after, reads⟩
      exact ⟨after, by simp [readString, readsCode, reads, Except.map]⟩
  | @pair digits others written text high low isCode isHigh isOther isLow _ ih =>
      have isHalf (position : Position) :
          unitOf position high none = .ok (none, .pairBackslash high) := by
        simp [unitOf, not_isLowSurrogate_of_isHighSurrogate isHigh, isHigh]
      have isUnit (position : Position) : unitOf position low (some high) =
          .ok (some (Char.ofNat (0x10000 + (high - 0xD800) * 0x400 + (low - 0xDC00))), .plain) := by
        simp [unitOf, isLow]
      rcases readString_code isCode isHalf
        ('\\' :: 'u' :: (others ++ (written ++ '"' :: rest)))
        ((position.after '\\').after 'u') with ⟨middle, readsHalf⟩
      rcases readString_code isOther isUnit (written ++ '"' :: rest)
        ((middle.after '\\').after 'u') with ⟨last, readsUnit⟩
      rcases ih last with ⟨after, reads⟩
      exact ⟨after, by simp [readString, readsHalf, readsUnit, reads, Except.map]⟩

/-! ## The spelling in which texts are printed -/

/-- Below a blank, what is printed after the letter of an escape is the code of a character. -/
theorem isCode_fourHex_of_control : ∀ code : Fin 32, IsCode (fourHex code) code := by
  unfold IsCode
  decide

theorem spells_escapedChar {written text : Text} (char : Char) (rest : Spells written text) :
    Spells (escapedChar char ++ written) (char :: text) := by
  unfold escapedChar
  split
  case h_8 noQuote noBackslash _ _ _ _ _ =>
    split
    · rename_i control
      have below : char.toNat < 32 := control
      have isCode := isCode_fourHex_of_control ⟨char.toNat, below⟩
      have notHigh : isHighSurrogate char.toNat = false := by simp [isHighSurrogate]; omega
      have notLow : isLowSurrogate char.toNat = false := by simp [isLowSurrogate]; omega
      simpa using Spells.code isCode notHigh notLow rest
    · exact .plain (noQuote ·) (noBackslash ·) ‹_› rest
  all_goals exact .escape rfl rest

/-- What is printed between the quotes of a text is one of its spellings. -/
theorem spells_printed (text : Text) : Spells (text.flatMap escapedChar) text := by
  induction text with
  | nil => exact .nil
  | cons char text ih => exact spells_escapedChar char ih

end Json

end ImportResolution
