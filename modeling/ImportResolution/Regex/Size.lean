import ImportResolution.Regex.Syntax

/-!
# Size of regular expressions

A pattern is refused when its compiled form would take more than ten mebibytes.
The compiled form has one state for each character, class and assertion, two for
each group and for each choice between branches, and copies the body of a counted
repetition once for each time it may match, so its size follows from the tree
without building it.
-/

namespace ImportResolution

namespace Regex

/-- The bytes of one state. -/
def stateSize : Nat := 32

/-- The bytes of one way out of a state that has several. -/
def branchSize : Nat := 4

/-- The bytes of one range of a class. -/
def rangeSize : Nat := 8

/-- The bytes that are set aside for the name of a group, the characters of the name apart. -/
def groupSize : Nat := 16

/-- The most bytes that a compiled pattern may take. -/
def sizeLimit : Nat := 10 * 1024 * 1024

/-- The bytes of `count` copies in a row; none at all is one empty state. -/
def copiesSize (count size : Nat) : Nat :=
  if count = 0 then stateSize else count * size

/-- The bytes of a repetition whose body takes `size` bytes. -/
def repetitionSize (least : Nat) (most : Option Nat) (matchesEmpty : Bool) (size : Nat) : Nat :=
  match least, most with
  | 0, some 1 => size + 2 * stateSize + 2 * branchSize
  | 0, none =>
      if matchesEmpty then size + 3 * stateSize + 4 * branchSize
      else size + stateSize + 2 * branchSize
  | least, none => copiesSize least size + stateSize + 2 * branchSize
  | least, some most =>
      if least = most then copiesSize least size
      else
        copiesSize least size + stateSize +
          (most - least) * (size + stateSize + 2 * branchSize)

mutual

/-- The bytes that an expression takes when it is compiled. -/
def Expr.size : Expr → Nat
  | .empty => stateSize
  | .char _ => stateSize
  | .oneOf charClass => stateSize + rangeSize * charClass.length
  | .look _ => stateSize
  | .repetition least most _ body => repetitionSize least most body.matchesEmpty body.size
  | .group _ body => body.size + 2 * stateSize
  | .seq parts => totalSize 0 parts
  | .alt branches =>
      totalSize 0 branches + 2 * stateSize + branches.length * branchSize

/-- The bytes that all of the expressions take, added to a total. -/
def totalSize (total : Nat) : List Expr → Nat
  | [] => total
  | expr :: exprs => totalSize (total + expr.size) exprs

end

/-- The bytes of a whole pattern, with its last state, group zero and the table of groups. -/
def programSize (expr : Expr) (groups : Nat) (names : List (Text × Nat)) : Nat :=
  expr.size + 3 * stateSize + groupSize * (groups + 1) +
    names.foldl (fun size name => size + name.1.byteLength + branchSize) 0

end Regex

end ImportResolution
