import ImportResolution.Regex.Escape

/-!
# Bracketed classes of a pattern

A class lists characters, ranges and named classes between brackets. Classes do not
nest, and the operators on classes are refused.
-/

namespace ImportResolution

namespace Regex

namespace Parser

/-- A class such as `[:alpha:]`, after its opening bracket. -/
def posixClass? (text : Text) : Option (CharClass × Text) :=
  match text with
  | ':' :: rest =>
      let (negated, rest) :=
        match rest with
        | '^' :: rest => (true, rest)
        | rest => (false, rest)
      let (name, left) := rest.span (· != ':')
      match left, CharClass.named? name with
      | ':' :: ']' :: left, some charClass =>
          some (if negated then charClass.negate else charClass, left)
      | _, _ => none
  | _ => none

/-- One member of a class: a character or an escape sequence. -/
def classItem (flags : Flags) : Text → Except Error (Expr × Text)
  | [] => .error .classUnclosed
  | '\\' :: rest => escapeSequence flags rest
  | char :: rest => .ok (.char char, rest)

/-- The ranges that a member adds to its class. -/
def itemRanges : Expr → Except Error CharClass
  | .char char => .ok [(char.toNat, char.toNat)]
  | .oneOf charClass => .ok charClass
  | _ => .error .classInvalidItem

/-- The character that begins or ends a range. -/
def rangeEnd : Expr → Except Error Char
  | .char char => .ok char
  | _ => .error .classRangeOfClasses

/-- A member of a class, or a range between two of them. -/
def classRange (flags : Flags) (text : Text) : Except Error (CharClass × Text) := do
  let (first, rest) ← classItem flags text
  match skipSpace flags rest with
  | [] => throw .classUnclosedAfterItem
  | '-' :: rest =>
      if peekSpace flags rest = some ']' || peekSpace flags rest = some '-' then
        pure (← itemRanges first, '-' :: rest)
      else
        match skipSpace flags rest with
        | [] => throw .classUnclosedAfterDash
        | rest =>
            let (last, rest) ← classItem flags rest
            let low ← rangeEnd first
            let high ← rangeEnd last
            if high < low then throw .classReversedRange
            pure ([(low.toNat, high.toNat)], rest)
  | rest => pure (← itemRanges first, rest)

/-- The members up to the closing bracket with those read so far, the last first. -/
def classMembers (flags : Flags) :
    (fuel : Nat) → CharClass → Text → Except Error (CharClass × Text)
  | 0, _, _ => .error .classUnclosed
  | fuel + 1, members, text =>
      match skipSpace flags text with
      | [] => .error .classUnclosed
      | ']' :: rest => .ok (members, rest)
      | '[' :: rest =>
          match posixClass? rest with
          | some (charClass, rest) => classMembers flags fuel (charClass ++ members) rest
          | none => .error .nestedClass
      | '&' :: '&' :: _ => .error .classIntersection
      | '-' :: '-' :: _ => .error .classDifference
      | '~' :: '~' :: _ => .error .classSymmetricDifference
      | text => do
          let (ranges, rest) ← classRange flags text
          classMembers flags fuel (ranges ++ members) rest

/-- The dashes at the start of a class, which stand for themselves. -/
def leadingDashes (flags : Flags) :
    (fuel : Nat) → CharClass → Text → Except Error (CharClass × Text)
  | fuel + 1, members, '-' :: rest =>
      match skipSpace flags rest with
      | [] => .error .classUnclosedAfterDash
      | rest => leadingDashes flags fuel ((45, 45) :: members) rest
  | _, members, text => .ok (members, text)

/-- A class after its opening bracket; case is folded before the class is negated. -/
def bracketClass (flags : Flags) (text : Text) : Except Error (Expr × Text) := do
  let (negated, text) ←
    match skipSpace flags text with
    | [] => throw .classUnclosed
    | '^' :: rest =>
        match skipSpace flags rest with
        | [] => throw .classUnclosedAfterNegation
        | rest => pure (true, rest)
    | rest => pure (false, rest)
  let (dashes, text) ← leadingDashes flags text.length [] text
  let (members, text) ←
    match dashes, text with
    | [], ']' :: rest =>
        match skipSpace flags rest with
        | [] => throw .classUnclosedAfterBracket
        | rest => pure ([(93, 93)], rest)
    | dashes, text => pure (dashes, text)
  let (members, rest) ← classMembers flags (text.length + 1) members text
  let charClass := CharClass.ofRanges members
  let charClass := if flags.ignoreCase then charClass.foldCase else charClass
  pure (.oneOf (if negated then charClass.negate else charClass), rest)

end Parser

end Regex

end ImportResolution
