import ImportResolution.Regex.Captures

/-!
# Expansion of captures

A template is literal text with references to capture groups. A reference is a
dollar sign before a name in braces or before a run of letters, digits and
underscores, as long as possible; two dollar signs stand for one. A name that is a
number refers to the group with that index, and any other to the group of that
name. What refers to no group that took part in the match expands to nothing.
-/

namespace ImportResolution

namespace Expansion

/-- What a reference refers to. -/
inductive Reference
  | numbered (index : Nat)
  | named (name : Text)
  deriving DecidableEq, Repr

/-- A part of a template. -/
inductive Piece
  | literal (char : Char)
  | reference (target : Reference)
  deriving DecidableEq, Repr

/-- The characters of a reference without braces. -/
def isReferenceChar (char : Char) : Bool :=
  char.isAlphanum || char == '_'

/-- An index in decimal, a plus sign allowed; it must be below 2^64. -/
def index? (text : Text) : Option Nat :=
  let digits :=
    match text with
    | '+' :: digits => digits
    | digits => digits
  if digits.isEmpty || !digits.all Char.isDigit then none
  else
    let value := Text.decimalValue digits
    if value < 0x10000000000000000 then some value else none

/-- What the text of a reference refers to. -/
def Reference.ofText (text : Text) : Reference :=
  match index? text with
  | some index => .numbered index
  | none => .named text

/-- How reading a template goes on: in literal text, or inside a reference. -/
inductive Mode
  | literal
  /-- After a dollar sign. -/
  | dollar
  /-- Inside braces, with the characters so far, last first. -/
  | braced (taken : Text)
  /-- Inside a reference without braces. -/
  | bare (taken : Text)
  deriving DecidableEq, Repr

/-- The pieces of a template; braces that are never closed begin no reference. -/
def pieces : Mode → Text → List Piece
  | .literal, [] => []
  | .literal, char :: rest =>
      if char = '$' then pieces .dollar rest else .literal char :: pieces .literal rest
  | .dollar, [] => [.literal '$']
  | .dollar, char :: rest =>
      if char = '$' then .literal '$' :: pieces .literal rest
      else if char = '\x7b' && '\x7d' ∈ rest then pieces (.braced []) rest
      else if isReferenceChar char then pieces (.bare [char]) rest
      else .literal '$' :: .literal char :: pieces .literal rest
  | .braced _, [] => []
  | .braced taken, char :: rest =>
      if char = '\x7d' then .reference (.ofText taken.reverse) :: pieces .literal rest
      else pieces (.braced (char :: taken)) rest
  | .bare taken, [] => [.reference (.ofText taken.reverse)]
  | .bare taken, char :: rest =>
      if isReferenceChar char then pieces (.bare (char :: taken)) rest
      else
        .reference (.ofText taken.reverse) ::
          if char = '$' then pieces .dollar rest
          else .literal char :: pieces .literal rest

/-- What a reference stands for in a match. -/
def Reference.text (captures : Captures) : Reference → Text
  | .numbered index => (captures.group? index).getD []
  | .named name => (captures.named? name).getD []

/-- What a piece stands for in a match. -/
def Piece.text (captures : Captures) : Piece → Text
  | .literal char => [char]
  | .reference target => target.text captures

/-- A template with its references replaced by what the groups have captured. -/
def expand (template : Text) (captures : Captures) : Text :=
  (pieces .literal template).flatMap (Piece.text captures)

end Expansion

end ImportResolution
