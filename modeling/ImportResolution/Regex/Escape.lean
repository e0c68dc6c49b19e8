import ImportResolution.Regex.Flags
import ImportResolution.Regex.Syntax

/-!
# Characters and escape sequences of a pattern

What a single character of a pattern stands for, and what a backslash makes of the
characters after it.
-/

namespace ImportResolution

namespace Regex

namespace Parser

/-- A literal character; one with two cases stands for both when case is ignored. -/
def literal (flags : Flags) (char : Char) : Expr :=
  if flags.ignoreCase && char.isAlpha then
    .oneOf (CharClass.foldCase [(char.toNat, char.toNat)])
  else .char char

/-- A character written as a hexadecimal number of fixed length or in braces. -/
def hexEscape (flags : Flags) (count : Nat) (text : Text) : Except Error (Expr × Text) :=
  match skipSpace flags text with
  | [] => .error .hexMissing
  | '\x7b' :: rest => do
      let (value, rest) ← bracedHex flags rest.length none (skipSpace flags rest)
      match value with
      | none => throw .bracedHexEmpty
      | some value =>
          match charOf? value with
          | some char => pure (literal flags char, rest)
          | none => throw .bracedHexInvalid
  | text => do
      let (value, rest) ← fixedHex flags count 0 text
      match charOf? value with
      | some char => pure (literal flags char, rest)
      | none => throw .fixedHexInvalid

/-- The characters in the name of a boundary. -/
def isBoundaryChar (char : Char) : Bool :=
  char.isAlpha || char == '-'

/--
The boundary named in braces after `\b`. Braces that do not start with a name are
left for the repetition operator.
-/
def namedBoundary (flags : Flags) : Text → Except Error (Expr × Text)
  | '\x7b' :: rest =>
      match skipSpace flags rest with
      | [] => .error .boundaryOrCountUnclosed
      | char :: more =>
          if isBoundaryChar char then
            let (name, left) := takeSpaced flags isBoundaryChar rest.length (char :: more)
            match left with
            | '\x7d' :: left =>
                match String.ofList name with
                | "start" => .ok (.look .wordStart, left)
                | "end" => .ok (.look .wordEnd, left)
                | "start-half" => .ok (.look .wordStartHalf, left)
                | "end-half" => .ok (.look .wordEndHalf, left)
                | _ => .error .unknownBoundary
            | _ => .error .boundaryUnclosed
          else .ok (.look .wordBoundary, '\x7b' :: rest)
  | text => .ok (.look .wordBoundary, text)

/-- Characters that a backslash turns into themselves. -/
def isEscapable (char : Char) : Bool :=
  isMeta char ||
    (char.toNat < 128 && !char.isAlphanum && char != '<' && char != '>')

/-- What a backslash and the text after it stand for. -/
def escapeSequence (flags : Flags) : Text → Except Error (Expr × Text)
  | [] => .error .escapeMissing
  | char :: rest =>
      if char.isDigit then .error .backreference
      else if isEscapable char then .ok (literal flags char, rest)
      else
        match char with
        | 'x' => hexEscape flags 2 rest
        | 'u' => hexEscape flags 4 rest
        | 'U' => hexEscape flags 8 rest
        | 'd' => .ok (.oneOf CharClass.digits, rest)
        | 's' => .ok (.oneOf CharClass.spaces, rest)
        | 'w' => .ok (.oneOf CharClass.wordChars, rest)
        | 'D' => .ok (.oneOf CharClass.digits.negate, rest)
        | 'S' => .ok (.oneOf CharClass.spaces.negate, rest)
        | 'W' => .ok (.oneOf CharClass.wordChars.negate, rest)
        | 'p' | 'P' => .error .unicodeClass
        | 'a' => .ok (literal flags '\x07', rest)
        | 'f' => .ok (literal flags '\x0c', rest)
        | 't' => .ok (literal flags '\t', rest)
        | 'n' => .ok (literal flags '\n', rest)
        | 'r' => .ok (literal flags '\r', rest)
        | 'v' => .ok (literal flags '\x0b', rest)
        | 'A' => .ok (.look .textStart, rest)
        | 'z' => .ok (.look .textEnd, rest)
        | 'b' => namedBoundary flags rest
        | 'B' => .ok (.look .notWordBoundary, rest)
        | '<' => .ok (.look .wordStart, rest)
        | '>' => .ok (.look .wordEnd, rest)
        | _ => .error .unknownEscape

/-- The class of the dot. -/
def dot (flags : Flags) : CharClass :=
  if flags.dotMatchesNewline then [(0, CharClass.maxCode)]
  else if flags.crlf then CharClass.negate [(10, 10), (13, 13)]
  else CharClass.negate [(10, 10)]

/-- The assertion of `^`. -/
def caret (flags : Flags) : Look :=
  if flags.multiLine then (if flags.crlf then .crlfLineStart else .lineStart) else .textStart

/-- The assertion of `$`. -/
def dollar (flags : Flags) : Look :=
  if flags.multiLine then (if flags.crlf then .crlfLineEnd else .lineEnd) else .textEnd

/-- A single character, the dot, an anchor or an escape sequence. -/
def primitive (flags : Flags) : Text → Except Error (Expr × Text)
  | [] => .error .escapeMissing
  | '\\' :: rest => escapeSequence flags rest
  | '.' :: rest => .ok (.oneOf (dot flags), rest)
  | '^' :: rest => .ok (.look (caret flags), rest)
  | '$' :: rest => .ok (.look (dollar flags), rest)
  | char :: rest => .ok (literal flags char, rest)

end Parser

end Regex

end ImportResolution
