import ImportResolution.Number.Shortest

/-!
# JSON values

The values of the JSON format. Members of an object keep the order in which their
keys first appeared; a key that appears again takes its last value.

Integers that fit 64 bits are kept exactly; every other number is kept in double
precision.
-/

namespace ImportResolution

namespace Json

/-- A number as it is kept. -/
inductive Number
  /-- An integer that is not negative, below 2^64. -/
  | natural (value : Nat)
  /-- A negative integer, not below -2^63, by its absolute value. -/
  | negative (value : Nat)
  | real (isNegative : Bool) (magnitude : Binary64)
  deriving DecidableEq, Repr

/-- The number as it is written. -/
def Number.text : Number → Text
  | .natural value => Text.ofNat value
  | .negative value => '-' :: Text.ofNat value
  | .real true magnitude => '-' :: magnitude.text
  | .real false magnitude => magnitude.text

/-- Pairs of keys and values in order. -/
abbrev Members (Value : Type) := List (Text × Value)

/-- The members with a value under a key: in place of an earlier one, or at the end. -/
def Members.insert {Value : Type} (members : Members Value) (key : Text) (value : Value) :
    Members Value :=
  match members with
  | [] => [(key, value)]
  | (present, old) :: rest =>
      if present = key then (key, value) :: rest
      else (present, old) :: Members.insert rest key value

end Json

/-- A JSON value. -/
inductive Json
  | null
  | bool (value : Bool)
  | number (value : Json.Number)
  | string (text : Text)
  | array (elements : List Json)
  | object (members : List (Text × Json))
  deriving Repr

namespace Json

/-- The text of a string value. -/
def asString? : Json → Option Text
  | .string text => some text
  | _ => none

/-- The member of an object under a key. -/
def member? (key : Text) : Json → Option Json
  | .object members => members.lookup key
  | _ => none

/-- A code unit as four hexadecimal digits. -/
def fourHex (code : Nat) : Text :=
  let digits := Nat.toDigits 16 code
  List.replicate (4 - digits.length) '0' ++ digits

/-- A character inside a string; only quotes, backslashes and controls are escaped. -/
def escapedChar (char : Char) : Text :=
  match char with
  | '"' => ['\\', '"']
  | '\\' => ['\\', '\\']
  | '\n' => ['\\', 'n']
  | '\r' => ['\\', 'r']
  | '\t' => ['\\', 't']
  | '\x08' => ['\\', 'b']
  | '\x0c' => ['\\', 'f']
  | char => if char < ' ' then '\\' :: 'u' :: fourHex char.toNat else [char]

/-- A text as a JSON string. -/
def stringText (text : Text) : Text :=
  '"' :: text.flatMap escapedChar ++ ['"']

mutual

/-- The value as compact JSON text. -/
def text : Json → Text
  | .null => "null".toList
  | .bool true => "true".toList
  | .bool false => "false".toList
  | .number value => value.text
  | .string text => stringText text
  | .array elements => '[' :: elementsText elements ++ [']']
  | .object members => '\x7b' :: membersText members ++ ['\x7d']

/-- The elements of an array with commas between them. -/
def elementsText : List Json → Text
  | [] => []
  | [element] => element.text
  | element :: next :: elements => element.text ++ ',' :: elementsText (next :: elements)

/-- The members of an object with commas between them. -/
def membersText : List (Text × Json) → Text
  | [] => []
  | [(key, value)] => stringText key ++ ':' :: value.text
  | (key, value) :: next :: members =>
      stringText key ++ ':' :: value.text ++ ',' :: membersText (next :: members)

end

mutual

/-- The value over several lines, each level indented by two blanks below `indent`. -/
def prettyText (indent : Nat) : Json → Text
  | .array [] => "[]".toList
  | .array (element :: elements) =>
      "[\n".toList ++ prettyElements (indent + 2) (element :: elements) ++
        '\n' :: List.replicate indent ' ' ++ [']']
  | .object [] => "\x7b\x7d".toList
  | .object (member :: members) =>
      "\x7b\n".toList ++ prettyMembers (indent + 2) (member :: members) ++
        '\n' :: List.replicate indent ' ' ++ ['\x7d']
  | value => value.text

/-- The elements of an array, each on lines of its own. -/
def prettyElements (indent : Nat) : List Json → Text
  | [] => []
  | [element] => List.replicate indent ' ' ++ element.prettyText indent
  | element :: next :: elements =>
      List.replicate indent ' ' ++ element.prettyText indent ++
        ",\n".toList ++ prettyElements indent (next :: elements)

/-- The members of an object, each on lines of its own. -/
def prettyMembers (indent : Nat) : List (Text × Json) → Text
  | [] => []
  | [(key, value)] =>
      List.replicate indent ' ' ++ stringText key ++ ": ".toList ++ value.prettyText indent
  | (key, value) :: next :: members =>
      List.replicate indent ' ' ++ stringText key ++ ": ".toList ++ value.prettyText indent ++
        ",\n".toList ++ prettyMembers indent (next :: members)

end

end Json

end ImportResolution
