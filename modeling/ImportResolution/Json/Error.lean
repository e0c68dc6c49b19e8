import ImportResolution.Json.Basic
import ImportResolution.Text.Quoted

/-!
# Errors of JSON texts

Why a text is no JSON value, or not a value of the shape that was asked for, with
the line and the column where the fault was seen. Columns count the bytes of a
line up to and including the byte at fault.
-/

namespace ImportResolution

namespace Json

/-- A value that was found where another shape was asked for. -/
inductive Found
  | null
  | bool (value : Bool)
  | number (value : Number)
  | string (text : Text)
  | sequence
  | map
  deriving DecidableEq, Repr

/-- The text that describes what was found. -/
def Found.text : Found → Text
  | .null => "null".toList
  | .bool true => "boolean `true`".toList
  | .bool false => "boolean `false`".toList
  | .number (.real isNegative magnitude) =>
      "floating point `".toList ++ (Number.real isNegative magnitude).text ++ "`".toList
  | .number value => "integer `".toList ++ value.text ++ "`".toList
  | .string text => "string ".toList ++ text.quoted
  | .sequence => "sequence".toList
  | .map => "map".toList

/-- A shape that a value is asked to have. -/
inductive Shape
  | string
  | sequence
  | map
  /-- The settings document itself. -/
  | settings
  deriving DecidableEq, Repr

/-- The text that describes a shape. -/
def Shape.text : Shape → Text
  | .string => "a string".toList
  | .sequence => "a sequence".toList
  | .map => "a map".toList
  | .settings => "struct ResolverSettings".toList

/-- Why a text is refused. -/
inductive Cause
  | endInValue
  | endInString
  | endInList
  | endInObject
  | expectedValue
  | expectedIdent
  | expectedColon
  | expectedListEnd
  | expectedObjectEnd
  | keyMustBeString
  | invalidNumber
  | numberOutOfRange
  | invalidEscape
  | unexpectedEndOfHexEscape
  | loneSurrogate
  | controlCharacter
  | recursionLimit
  | trailingComma
  | trailingCharacters
  | invalidType (found : Found) (expected : Shape)
  | duplicateField (name : Text)
  deriving DecidableEq, Repr

/-- The text that describes a cause. -/
def Cause.text : Cause → Text
  | .endInValue => "EOF while parsing a value".toList
  | .endInString => "EOF while parsing a string".toList
  | .endInList => "EOF while parsing a list".toList
  | .endInObject => "EOF while parsing an object".toList
  | .expectedValue => "expected value".toList
  | .expectedIdent => "expected ident".toList
  | .expectedColon => "expected `:`".toList
  | .expectedListEnd => "expected `,` or `]`".toList
  | .expectedObjectEnd => "expected `,` or `\x7d`".toList
  | .keyMustBeString => "key must be a string".toList
  | .invalidNumber => "invalid number".toList
  | .numberOutOfRange => "number out of range".toList
  | .invalidEscape => "invalid escape".toList
  | .unexpectedEndOfHexEscape => "unexpected end of hex escape".toList
  | .loneSurrogate => "lone leading surrogate in hex escape".toList
  | .controlCharacter =>
      "control character (\\u0000-\\u001F) found while parsing a string".toList
  | .recursionLimit => "recursion limit exceeded".toList
  | .trailingComma => "trailing comma".toList
  | .trailingCharacters => "trailing characters".toList
  | .invalidType found expected =>
      "invalid type: ".toList ++ found.text ++ ", expected ".toList ++ expected.text
  | .duplicateField name => "duplicate field `".toList ++ name ++ "`".toList

/-- A place in a text: the line, from one, and the bytes before it on that line. -/
structure Position where
  line : Nat := 1
  column : Nat := 0
  deriving DecidableEq, Repr

/-- A fault with the place where it was seen. -/
structure Error where
  cause : Cause
  position : Position
  deriving DecidableEq, Repr

/-- The text that describes an error. -/
def Error.text (error : Error) : Text :=
  error.cause.text ++ " at line ".toList ++ Text.ofNat error.position.line ++
    " column ".toList ++ Text.ofNat error.position.column

namespace Position

/-- The position after a character. -/
def after (position : Position) (char : Char) : Position :=
  if char = '\n' then ⟨position.line + 1, 0⟩
  else ⟨position.line, position.column + char.utf8Size⟩

/-- The position after a whole text. -/
def afterText (position : Position) (text : Text) : Position :=
  text.foldl after position

/-- The position after so many bytes, which may end inside a character. -/
def afterBytes (position : Position) : (bytes : Nat) → Text → Position
  | _, [] => position
  | bytes, char :: rest =>
      if bytes = 0 then position
      else if bytes < char.utf8Size then ⟨position.line, position.column + bytes⟩
      else afterBytes (position.after char) (bytes - char.utf8Size) rest

end Position

/-- What is left of a text, with the position of its first character. -/
structure Cursor where
  position : Position
  rest : Text
  deriving DecidableEq, Repr

namespace Cursor

/-- The start of a text. -/
def start (text : Text) : Cursor := ⟨{}, text⟩

/-- The cursor after the first character. -/
def next (cursor : Cursor) : Cursor :=
  match cursor.rest with
  | [] => cursor
  | char :: rest => ⟨cursor.position.after char, rest⟩

/-- A fault in what has been read. -/
def fault (cursor : Cursor) (cause : Cause) : Error :=
  ⟨cause, cursor.position⟩

/-- A fault in the byte that comes next. -/
def faultAhead (cursor : Cursor) (cause : Cause) : Error :=
  ⟨cause, cursor.position.afterBytes 1 cursor.rest⟩

/-- The cursor after a run of characters that pass a test. -/
def skipWhile (test : Char → Bool) (position : Position) : Text → Cursor
  | [] => ⟨position, []⟩
  | char :: rest =>
      if test char then skipWhile test (position.after char) rest else ⟨position, char :: rest⟩

/-- The blanks that may stand between the parts of a value. -/
def isBlank (char : Char) : Bool :=
  char == ' ' || char == '\n' || char == '\t' || char == '\r'

/-- The cursor after blanks. -/
def skipBlanks (cursor : Cursor) : Cursor :=
  skipWhile isBlank cursor.position cursor.rest

/-- The cursor after digits. -/
def skipDigits (cursor : Cursor) : Cursor :=
  skipWhile Char.isDigit cursor.position cursor.rest

end Cursor

end Json

end ImportResolution
