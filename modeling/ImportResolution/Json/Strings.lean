import ImportResolution.Json.Error

/-!
# Reading JSON strings

A string is read character by character; `StringMode` says where in an escape the
reading stands, so that every fault is reported at its byte.
-/

namespace ImportResolution

namespace Json

/-- What a character after a backslash stands for. -/
def simpleEscape? : Char → Option Char
  | '"' => some '"'
  | '\\' => some '\\'
  | '/' => some '/'
  | 'b' => some '\x08'
  | 'f' => some '\x0c'
  | 'n' => some '\n'
  | 'r' => some '\r'
  | 't' => some '\t'
  | _ => none

/-- The first half of a surrogate pair. -/
def isHighSurrogate (code : Nat) : Bool :=
  0xD800 ≤ code && code ≤ 0xDBFF

/-- The second half of a surrogate pair. -/
def isLowSurrogate (code : Nat) : Bool :=
  0xDC00 ≤ code && code ≤ 0xDFFF

/-- Where inside a string the reading stands. -/
inductive StringMode
  | plain
  | escape
  /-- So many hexadecimal digits are missing; `high` is the first half of a surrogate pair. -/
  | hex (missing : Nat) (value : Nat) (high : Option Nat)
  /-- A backslash must follow for the second half of a pair. -/
  | pairBackslash (high : Nat)
  /-- The letter of the escape must follow for the second half of a pair. -/
  | pairLetter (high : Nat)
  deriving DecidableEq, Repr

/-- The fault of a hexadecimal escape that lacks digits. -/
def hexFault (position : Position) (missing : Nat) (text : Text) : Error :=
  if text.byteLength < missing then ⟨.endInString, position.afterText text⟩
  else ⟨.invalidEscape, position.afterBytes missing text⟩

/-- What an escape with all its digits is: a character, or the first half of a pair. -/
def unitOf (position : Position) (value : Nat) :
    (high : Option Nat) → Except Error (Option Char × StringMode)
  | none =>
      if isLowSurrogate value then .error ⟨.loneSurrogate, position⟩
      else if isHighSurrogate value then .ok (none, .pairBackslash value)
      else .ok (some (Char.ofNat value), .plain)
  | some high =>
      if isLowSurrogate value then
        .ok (some (Char.ofNat (0x10000 + (high - 0xD800) * 0x400 + (value - 0xDC00))), .plain)
      else .error ⟨.loneSurrogate, position⟩

/-- The rest of a string whose opening quote has been read. -/
def readString : StringMode → Position → Text → Except Error (Text × Cursor)
  | _, position, [] => .error ⟨.endInString, position⟩
  | .plain, position, char :: rest =>
      if char = '"' then .ok ([], ⟨position.after char, rest⟩)
      else if char = '\\' then readString .escape (position.after char) rest
      else if char < ' ' then .error ⟨.controlCharacter, position.after char⟩
      else (readString .plain (position.after char) rest).map fun read =>
        (char :: read.1, read.2)
  | .escape, position, char :: rest =>
      if char = 'u' then readString (.hex 4 0 none) (position.after char) rest
      else
        match simpleEscape? char with
        | some escaped =>
            (readString .plain (position.after char) rest).map fun read =>
              (escaped :: read.1, read.2)
        | none => .error ⟨.invalidEscape, position.afterBytes 1 (char :: rest)⟩
  | .hex missing value high, position, char :: rest =>
      match Text.hexDigit? char with
      | none => .error (hexFault position missing (char :: rest))
      | some digit =>
          if missing ≤ 1 then
            match unitOf (position.after char) (value * 16 + digit) high with
            | .error error => .error error
            | .ok (none, mode) => readString mode (position.after char) rest
            | .ok (some unit, mode) =>
                (readString mode (position.after char) rest).map fun read =>
                  (unit :: read.1, read.2)
          else readString (.hex (missing - 1) (value * 16 + digit) high) (position.after char) rest
  | .pairBackslash high, position, char :: rest =>
      if char = '\\' then readString (.pairLetter high) (position.after char) rest
      else .error ⟨.unexpectedEndOfHexEscape, position.afterBytes 1 (char :: rest)⟩
  | .pairLetter high, position, char :: rest =>
      if char = 'u' then readString (.hex 4 0 (some high)) (position.after char) rest
      else .error ⟨.unexpectedEndOfHexEscape, position.afterBytes 1 (char :: rest)⟩

/-- The cursor after a string whose opening quote has been read; surrogates need not be paired. -/
def skipString : StringMode → Position → Text → Except Error Cursor
  | _, position, [] => .error ⟨.endInString, position⟩
  | .escape, position, char :: rest =>
      if char = 'u' then skipString (.hex 4 0 none) (position.after char) rest
      else if (simpleEscape? char).isSome then skipString .plain (position.after char) rest
      else .error ⟨.invalidEscape, position.afterBytes 1 (char :: rest)⟩
  | .hex missing value high, position, char :: rest =>
      if (Text.hexDigit? char).isNone then .error (hexFault position missing (char :: rest))
      else if missing ≤ 1 then skipString .plain (position.after char) rest
      else skipString (.hex (missing - 1) value high) (position.after char) rest
  | _, position, char :: rest =>
      if char = '"' then .ok ⟨position.after char, rest⟩
      else if char = '\\' then skipString .escape (position.after char) rest
      else if char < ' ' then .error ⟨.controlCharacter, position⟩
      else skipString .plain (position.after char) rest

end Json

end ImportResolution
