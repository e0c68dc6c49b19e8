import ImportResolution.Text

/-!
# Glob patterns

In a glob pattern `?` stands for any character, `*` for any run of characters,
brackets for one character of a set, and `**` as a whole segment for any number of
directories. A pattern is read as a whole first and then segment by segment, so a
bracket that spans a slash is found only in the second reading.
-/

namespace ImportResolution

namespace Glob

/-- Why a pattern is refused. -/
inductive Cause
  | invalidRange
  | wildcards
  | recursiveWildcards
  deriving DecidableEq, Repr

/-- The first fault of a pattern, with the number of characters before it. -/
structure Error where
  position : Nat
  cause : Cause
  deriving DecidableEq, Repr

/-- The text that describes a cause. -/
def Cause.message : Cause → String
  | .invalidRange => "invalid range pattern"
  | .wildcards => "wildcards are either regular `*` or recursive `**`"
  | .recursiveWildcards => "recursive wildcards must form a single path component"

/-- The text that describes an error. -/
def Error.message (error : Error) : String :=
  "Pattern syntax error near position " ++ toString error.position ++ ": " ++
    error.cause.message

/-- A part of a pattern. -/
inductive Token
  | char (char : Char)
  | anyChar
  | anyRun
  /-- One character inside the ranges, or outside all of them. -/
  | oneOf (negated : Bool) (ranges : List (Char × Char))
  /-- Any number of directories. -/
  | recursive
  deriving DecidableEq, Repr

/-- The ranges that stand between brackets. -/
def ranges : Text → List (Char × Char)
  | low :: '-' :: high :: rest => (low, high) :: ranges rest
  | char :: rest => (char, char) :: ranges rest
  | [] => []

/-- The set after an opening bracket; its first character may be a closing one. -/
def bracket? (text : Text) : Option (Token × Text) :=
  let (negated, body) :=
    match text with
    | '!' :: body => (true, body)
    | body => (false, body)
  match body with
  | [] => none
  | first :: rest =>
      match rest.span (· != ']') with
      | (members, ']' :: left) => some (.oneOf negated (ranges (first :: members)), left)
      | _ => none

/-- The tokens of a pattern from a position on, with the character before it. -/
def tokensFrom : (fuel : Nat) → (position : Nat) → (previous : Option Char) → Text →
    Except Error (List Token)
  | 0, _, _, _ => .ok []
  | fuel + 1, position, previous, text =>
      match text with
      | [] => .ok []
      | '?' :: rest => do
          pure (.anyChar :: (← tokensFrom fuel (position + 1) (some '?') rest))
      | '*' :: '*' :: '*' :: _ => .error ⟨position + 2, .wildcards⟩
      | '*' :: '*' :: rest =>
          if previous.isNone || previous == some '/' then
            match rest with
            | [] => .ok [.recursive]
            | '/' :: rest => do
                pure (.recursive :: (← tokensFrom fuel (position + 3) (some '/') rest))
            | _ => .error ⟨position + 2, .recursiveWildcards⟩
          else .error ⟨position - 1, .recursiveWildcards⟩
      | '*' :: rest => do
          pure (.anyRun :: (← tokensFrom fuel (position + 1) (some '*') rest))
      | '[' :: rest =>
          match bracket? rest with
          | some (token, left) => do
              pure (token :: (← tokensFrom fuel (position + 1 + (rest.length - left.length))
                (some ']') left))
          | none => .error ⟨position, .invalidRange⟩
      | char :: rest => do
          pure (.char char :: (← tokensFrom fuel (position + 1) (some char) rest))

/-- The tokens of a pattern. -/
def tokens (pattern : Text) : Except Error (List Token) :=
  tokensFrom (pattern.length + 1) 0 none pattern

/-- One segment of a pattern. -/
inductive Segment
  /-- A name without wildcards. -/
  | literal (text : Text)
  | wildcard (tokens : List Token)
  | recursive
  deriving DecidableEq, Repr

/-- The name that tokens spell, if none of them is a wildcard. -/
def spelledName? : List Token → Option Text
  | [] => some []
  | .char char :: rest => (spelledName? rest).map (char :: ·)
  | _ => none

/-- The segment with these tokens. -/
def Segment.ofTokens (tokens : List Token) : Segment :=
  if .recursive ∈ tokens then .recursive
  else
    match spelledName? tokens with
    | some name => .literal name
    | none => .wildcard tokens

/-- The segments of an absolute pattern; the root itself has one without a name. -/
def segments (pattern : Text) : Except Error (List Segment) := do
  let _ ← tokens pattern
  (Text.split '/' (pattern.drop 1)).mapM fun segment => do
    pure (Segment.ofTokens (← tokens segment))

/-- Whether a character is in one of the ranges. -/
def inRanges (ranges : List (Char × Char)) (char : Char) : Bool :=
  ranges.any fun range => range.1 ≤ char && char ≤ range.2

/-- Whether a token that stands for one character stands for this one. -/
def Token.admits (token : Token) (char : Char) : Bool :=
  match token with
  | .char expected => char == expected
  | .anyChar => true
  | .oneOf negated ranges => inRanges ranges char != negated
  | .anyRun | .recursive => false

/-- Each flag with whether it or one before it is set. -/
def spread (live : Bool) : List Bool → List Bool
  | [] => []
  | cut :: cuts => (live || cut) :: spread (live || cut) cuts

/--
The places where a name can be cut so that what stands before is matched, after one
more token: a flag for each place from the start of the name to its end.
-/
def advanceCuts (name : Text) (cuts : List Bool) (token : Token) : List Bool :=
  match token with
  | .anyRun => spread false cuts
  | token => false :: List.zipWith (fun cut char => cut && token.admits char) cuts name

/-- Whether tokens match a whole name. -/
def matchesName (tokens : List Token) (name : Text) : Bool :=
  (tokens.foldl (advanceCuts name) (true :: name.map fun _ => false)).getLast? == some true

/-- Whether a segment other than a recursive one matches a name. -/
def Segment.matchesName (segment : Segment) (name : Text) : Bool :=
  match segment with
  | .literal text => name == text
  | .wildcard tokens => Glob.matchesName tokens name
  | .recursive => false

/-- Whether an entry of the settings is a pattern. -/
def hasWildcard (text : Text) : Bool :=
  text.any fun char => char == '*' || char == '?' || char == '['

end Glob

end ImportResolution
