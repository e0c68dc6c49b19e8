import ImportResolution.Text.Category

/-!
# Quoted text

The form in which text is shown in messages: between double quotes, with escapes
for quotes, backslashes, controls and everything else that has no form of its own.
A character that combines with the one before it is escaped as well.
-/

namespace ImportResolution

namespace Text

/-- A natural number in lower-case hexadecimal. -/
def hexOfNat (number : Nat) : Text :=
  Nat.toDigits 16 number

/-- The escape by the code point of a character. -/
def codeEscape (char : Char) : Text :=
  "\\u\x7b".toList ++ hexOfNat char.toNat ++ ['\x7d']

/-- A character as it stands between quotes. -/
def quotedChar (char : Char) : Text :=
  match char with
  | '\x00' => ['\\', '0']
  | '\t' => ['\\', 't']
  | '\n' => ['\\', 'n']
  | '\r' => ['\\', 'r']
  | '"' => ['\\', '"']
  | '\\' => ['\\', '\\']
  | char => if isExtending char || !isPrintable char then codeEscape char else [char]

/-- A text between quotes. -/
def quoted (text : Text) : Text :=
  '"' :: text.flatMap quotedChar ++ ['"']

end Text

end ImportResolution
