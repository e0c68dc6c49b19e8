import ImportResolution.Regex.Error
import ImportResolution.Text.Category

/-!
# Flags and numbers in a pattern

The flags that are in force at a place of a pattern, what they let a reader skip, and
the decimal and hexadecimal numbers of a pattern.
-/

namespace ImportResolution

namespace Regex

namespace Parser

/-- The inline flags. -/
structure Flags where
  ignoreCase : Bool := false
  multiLine : Bool := false
  dotMatchesNewline : Bool := false
  swapGreed : Bool := false
  crlf : Bool := false
  ignoreSpace : Bool := false
  deriving DecidableEq, Repr

/-! ### Blanks -/

/-- The text after blanks and comments; a comment lasts to the end of its line. -/
def skipBlanks : (inComment : Bool) → Text → Text
  | _, [] => []
  | true, char :: rest => skipBlanks (char != '\n') rest
  | false, char :: rest =>
      if Text.isWhiteSpace char then skipBlanks false rest
      else if char = '#' then skipBlanks true rest
      else char :: rest

/-- The text after what the flags allow to be ignored. -/
def skipSpace (flags : Flags) (text : Text) : Text :=
  if flags.ignoreSpace then skipBlanks false text else text

/-- The first character after blanks and the mark of a comment. -/
def peekPastBlanks : (inComment : Bool) → Text → Option Char
  | _, [] => none
  | inComment, char :: rest =>
      if Text.isWhiteSpace char then peekPastBlanks inComment rest
      else if !inComment && char == '#' then peekPastBlanks true rest
      else some char

/-- The character that comes next once ignored blanks are passed over. -/
def peekSpace (flags : Flags) (text : Text) : Option Char :=
  if flags.ignoreSpace then (peekPastBlanks false text).or text.head? else text.head?

/-! ### Numbers -/

/-- The characters that pass a test, ignored blanks between them left out, and the rest. -/
def takeSpaced (flags : Flags) (test : Char → Bool) : (fuel : Nat) → Text → Text × Text
  | fuel + 1, char :: rest =>
      if test char then
        let (taken, left) := takeSpaced flags test fuel (skipSpace flags rest)
        (char :: taken, left)
      else ([], char :: rest)
  | _, text => ([], text)

/-- A decimal number below 2^32, blanks allowed on both sides. -/
def decimal (flags : Flags) (text : Text) : Except Error (Nat × Text) :=
  let text := text.dropWhile Text.isWhiteSpace
  let (digits, rest) := takeSpaced flags Char.isDigit text.length text
  if digits.isEmpty then .error .decimalWithoutDigits
  else
    let value := Text.decimalValue digits
    if value < 0x100000000 then .ok (value, rest.dropWhile Text.isWhiteSpace)
    else .error .decimalTooLarge

/-- As many hexadecimal digits as are asked for, after the value read so far. -/
def fixedHex (flags : Flags) : (count : Nat) → (value : Nat) → Text → Except Error (Nat × Text)
  | 0, value, text => .ok (value, text)
  | _ + 1, _, [] => .error .fixedHexTooShort
  | count + 1, value, char :: rest =>
      match Text.hexDigit? char with
      | some digit => fixedHex flags count (value * 16 + digit) (skipSpace flags rest)
      | none => .error .fixedHexWithOtherDigit

/-- Hexadecimal digits up to the closing brace, after the value read so far. -/
def bracedHex (flags : Flags) :
    (fuel : Nat) → (value : Option Nat) → Text → Except Error (Option Nat × Text)
  | fuel + 1, value, char :: rest =>
      if char = '\x7d' then .ok (value, skipSpace flags rest)
      else
        match Text.hexDigit? char with
        | some digit =>
            bracedHex flags fuel (some (value.getD 0 * 16 + digit)) (skipSpace flags rest)
        | none => .error .bracedHexWithOtherDigit
  | _, _, _ => .error .bracedHexUnclosed

/-- The character with a code point, if there is one. -/
def charOf? (code : Nat) : Option Char :=
  if code.isValidChar then some (Char.ofNat code) else none

end Parser

end Regex

end ImportResolution
