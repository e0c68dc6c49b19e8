/-!
# Text

Specifiers, paths, patterns and file contents are all text, kept as a list of
characters so that every rule about them is a recursion on that list. This file
holds the operations that the rest of the library shares: splitting at a
separator, replacing a character, measuring the encoded length, and reading and
writing digits.

`Text.joinWith_split` states that splitting at a separator loses nothing.
-/

namespace ImportResolution

/-- A sequence of Unicode scalar values. -/
abbrev Text := List Char

namespace Text

/-- The pieces of `text` between occurrences of `separator`; there is always at least one. -/
def split (separator : Char) : Text → List Text
  | [] => [[]]
  | char :: rest =>
      if char = separator then
        [] :: split separator rest
      else
        match split separator rest with
        | [] => [[char]]
        | piece :: pieces => (char :: piece) :: pieces

/-- The pieces in order with one `separator` between neighbours. -/
def joinWith (separator : Char) : List Text → Text
  | [] => []
  | [piece] => piece
  | piece :: next :: pieces => piece ++ separator :: joinWith separator (next :: pieces)

/-- Splitting never leaves nothing. -/
theorem split_ne_nil (separator : Char) (text : Text) : split separator text ≠ [] := by
  cases text with
  | nil => simp [split]
  | cons char rest =>
      by_cases isSeparator : char = separator
      · simp [split, isSeparator]
      · simp only [split, isSeparator, if_false]
        split <;> simp

/-- Splitting at a separator and joining with it again gives back the text. -/
theorem joinWith_split (separator : Char) (text : Text) :
    joinWith separator (split separator text) = text := by
  induction text with
  | nil => rfl
  | cons char rest ih =>
      have nonempty := split_ne_nil separator rest
      by_cases isSeparator : char = separator
      · subst isSeparator
        simp only [split, if_true]
        cases pieces : split char rest with
        | nil => exact absurd pieces nonempty
        | cons piece others =>
            rw [pieces] at ih
            simp [joinWith, ih]
      · simp only [split, isSeparator, if_false]
        cases pieces : split separator rest with
        | nil => exact absurd pieces nonempty
        | cons piece others =>
            rw [pieces] at ih
            cases others <;> simp_all [joinWith]

/-- Every occurrence of `old` replaced by `new`. -/
def replaceChar (old new : Char) (text : Text) : Text :=
  text.map fun char => if char = old then new else char

/-- The number of bytes of the UTF-8 encoding. -/
def byteLength : Text → Nat
  | [] => 0
  | char :: rest => char.utf8Size + byteLength rest

/-- Whether the first text is not behind the second in the order of their characters. -/
def notAfter : Text → Text → Bool
  | [], _ => true
  | _ :: _, [] => false
  | left :: lefts, right :: rights => left < right || (left == right && notAfter lefts rights)

/-- What stands before and after the last character that satisfies `test`. -/
def splitAtLast? (test : Char → Bool) : Text → Option (Text × Text)
  | [] => none
  | char :: rest =>
      match splitAtLast? test rest with
      | some (before, after) => some (char :: before, after)
      | none => if test char then some ([], rest) else none

/-- The value of a hexadecimal digit. -/
def hexDigit? (char : Char) : Option Nat :=
  if '0' ≤ char && char ≤ '9' then some (char.toNat - 48)
  else if 'a' ≤ char && char ≤ 'f' then some (char.toNat - 87)
  else if 'A' ≤ char && char ≤ 'F' then some (char.toNat - 55)
  else none

/-- The number that decimal digits denote. -/
def decimalValue (digits : Text) : Nat :=
  digits.foldl (fun value digit => value * 10 + (digit.toNat - 48)) 0

/-- A natural number in decimal. -/
def ofNat (number : Nat) : Text :=
  Nat.toDigits 10 number

end Text

end ImportResolution
