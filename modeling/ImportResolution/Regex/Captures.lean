import ImportResolution.Regex.Match
import ImportResolution.Regex.Parser

/-!
# Captures

A pattern is compiled once and then matched against texts. A match gives the places
that its groups have captured; a group that took no part in it has none.
-/

namespace ImportResolution

/-- A pattern that has been read and found small enough. -/
structure Regex where
  /-- The pattern as written. -/
  source : Text
  program : Regex.Program
  /-- The groups that have names. -/
  names : List (Text × Nat)
  deriving DecidableEq, Repr

/-- What the groups of a match have captured from `text`. -/
structure Captures where
  text : Text
  places : List (Nat × Nat)
  names : List (Text × Nat)
  deriving DecidableEq, Repr

namespace Regex

/-- The regular expression that a pattern denotes. -/
def compile (pattern : Text) : Except Error Regex := do
  let (expr, scanner) ← Parser.parse pattern
  if programSize expr scanner.groups scanner.names > sizeLimit then throw .tooLarge
  pure ⟨pattern, expr.program, scanner.names⟩

/-- The captures of the leftmost match in a text; group zero is the match itself. -/
def captures? (regex : Regex) (text : Text) : Option Captures :=
  (regex.program.search text).map fun places => ⟨text, places, regex.names⟩

end Regex

namespace Captures

/-- The text of a group that took part in the match. -/
def group? (captures : Captures) (index : Nat) : Option Text :=
  match captures.places.lookup (2 * index), captures.places.lookup (2 * index + 1) with
  | some start, some stop => some ((captures.text.drop start).take (stop - start))
  | _, _ => none

/-- The text of a group by its name. -/
def named? (captures : Captures) (name : Text) : Option Text :=
  (captures.names.lookup name).bind captures.group?

end Captures

end ImportResolution
