import ImportResolution.Text

/-!
# Syntax of regular expressions

The tree of a pattern once it has been read. Classes are lists of ranges of code
points; letter case and the other flags have been worked into the tree, so that
matching knows nothing of them.
-/

namespace ImportResolution

namespace Regex

/-- A set of characters as ranges of code points, ascending and apart from each other. -/
abbrev CharClass := List (Nat × Nat)

namespace CharClass

/-- A range put into an ascending list; ranges that touch become one. -/
def insert (range : Nat × Nat) : CharClass → CharClass
  | [] => [range]
  | next :: ranges =>
      if range.2 + 1 < next.1 then range :: next :: ranges
      else if next.2 + 1 < range.1 then next :: insert range ranges
      else insert (min range.1 next.1, max range.2 next.2) ranges

/-- The class of all characters in any of the ranges. -/
def ofRanges (ranges : List (Nat × Nat)) : CharClass :=
  ranges.foldl (fun charClass range => insert range charClass) []

/-- The largest code point. -/
def maxCode : Nat := 0x10FFFF

/-- What lies between the ranges, from `start` to the largest code point. -/
def gaps (start : Nat) : CharClass → CharClass
  | [] => if start ≤ maxCode then [(start, maxCode)] else []
  | range :: ranges =>
      if start < range.1 then (start, range.1 - 1) :: gaps (range.2 + 1) ranges
      else gaps (range.2 + 1) ranges

/-- All characters outside a class. -/
def negate (charClass : CharClass) : CharClass :=
  gaps 0 charClass

/-- The part of a range that lies between two code points, moved by `shift`. -/
def shifted (low high : Nat) (shift : Nat → Nat) (range : Nat × Nat) : List (Nat × Nat) :=
  if max low range.1 ≤ min high range.2 then
    [(shift (max low range.1), shift (min high range.2))]
  else []

/--
The other case of the ASCII letters in a range. Upper-case letters count only in a range
without lower-case ones.
-/
def otherCase (range : Nat × Nat) : List (Nat × Nat) :=
  match shifted 97 122 (· - 32) range with
  | [] => shifted 65 90 (· + 32) range
  | upper => upper

/-- The class with the other case of the letters in its ranges. -/
def foldCase (charClass : CharClass) : CharClass :=
  ofRanges (charClass ++ charClass.flatMap otherCase)

/-- Whether a character belongs to a class. -/
def contains (charClass : CharClass) (char : Char) : Bool :=
  charClass.any fun range => range.1 ≤ char.toNat && char.toNat ≤ range.2

/-- The ASCII digits. -/
def digits : CharClass := [(48, 57)]

/-- The ASCII blanks. -/
def spaces : CharClass := [(9, 13), (32, 32)]

/-- The characters of words: ASCII letters, digits and the underscore. -/
def wordChars : CharClass := [(48, 57), (65, 90), (95, 95), (97, 122)]

/-- The class that a POSIX name stands for. -/
def named? (name : Text) : Option CharClass :=
  match String.ofList name with
  | "alnum" => some [(48, 57), (65, 90), (97, 122)]
  | "alpha" => some [(65, 90), (97, 122)]
  | "ascii" => some [(0, 127)]
  | "blank" => some [(9, 9), (32, 32)]
  | "cntrl" => some [(0, 31), (127, 127)]
  | "digit" => some digits
  | "graph" => some [(33, 126)]
  | "lower" => some [(97, 122)]
  | "print" => some [(32, 126)]
  | "punct" => some [(33, 47), (58, 64), (91, 96), (123, 126)]
  | "space" => some spaces
  | "upper" => some [(65, 90)]
  | "word" => some wordChars
  | "xdigit" => some [(48, 57), (65, 70), (97, 102)]
  | _ => none

end CharClass

/-- An assertion about the place between two characters. -/
inductive Look
  | textStart
  | textEnd
  | lineStart
  | lineEnd
  /-- A line may also end in a carriage return, alone or before a line feed. -/
  | crlfLineStart
  | crlfLineEnd
  | wordBoundary
  | notWordBoundary
  | wordStart
  | wordEnd
  | wordStartHalf
  | wordEndHalf
  deriving DecidableEq, Repr

/-- A regular expression. -/
inductive Expr
  | empty
  | char (char : Char)
  | oneOf (charClass : CharClass)
  | look (look : Look)
  /-- The body at least `least` times, and at most `most` times where there is a limit. -/
  | repetition (least : Nat) (most : Option Nat) (greedy : Bool) (body : Expr)
  | group (index : Nat) (body : Expr)
  /-- The parts one after the other. -/
  | seq (parts : List Expr)
  /-- Any of the branches, the first preferred. -/
  | alt (branches : List Expr)

namespace Expr

mutual

/-- Whether an expression can match without taking a character. -/
def matchesEmpty : Expr → Bool
  | .empty => true
  | .char _ => false
  | .oneOf _ => false
  | .look _ => true
  | .repetition least _ _ body => least == 0 || body.matchesEmpty
  | .group _ body => body.matchesEmpty
  | .seq parts => allMatchEmpty parts
  | .alt branches => someMatchesEmpty branches

/-- Whether all of the expressions can match without taking a character. -/
def allMatchEmpty : List Expr → Bool
  | [] => true
  | expr :: exprs => expr.matchesEmpty && allMatchEmpty exprs

/-- Whether one of the expressions can match without taking a character. -/
def someMatchesEmpty : List Expr → Bool
  | [] => false
  | expr :: exprs => expr.matchesEmpty || someMatchesEmpty exprs

end

end Expr

/-- The characters that have a meaning of their own in a pattern. -/
def isMeta (char : Char) : Bool :=
  char ∈ ['\\', '.', '+', '*', '?', '(', ')', '|', '[', ']', '\x7b', '\x7d', '^', '$', '#', '&',
    '-', '~']

/-- A pattern that matches `text` and nothing else. -/
def escape (text : Text) : Text :=
  text.flatMap fun char => if isMeta char then ['\\', char] else [char]

end Regex

end ImportResolution
