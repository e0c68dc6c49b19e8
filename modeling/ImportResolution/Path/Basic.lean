import ImportResolution.Text

/-!
# Paths

A path is text with `/` between its segments. Nothing here looks at a file
system: these are the rules by which paths are joined, taken apart and climbed.

Empty segments and `.` segments carry no meaning, except for a `.` that begins a
relative path. The rest of the text is kept as written, so that climbing from
`a//b/c` gives `a//b`.
-/

namespace ImportResolution

/-- Text that names a place in a file tree. -/
abbrev Path := Text

namespace Path

/-- A path that starts at the root of the tree. -/
def isAbsolute : Path → Bool
  | '/' :: _ => true
  | _ => false

/-- `path` taken from the directory `base`; an absolute `path` stands for itself. -/
def join (base path : Path) : Path :=
  if path.isAbsolute then path
  else if base.isEmpty || base.getLast? == some '/' then base ++ path
  else base ++ '/' :: path

/-- The text between slashes, blanks included. -/
def pieces (path : Path) : List Text :=
  Text.split '/' path

/-- Pieces that name no step: nothing at all, or the directory itself. -/
def isBlank (piece : Text) : Bool :=
  piece.isEmpty || piece == ['.']

/-- The pieces of a list up to the last one that names a step. -/
def trimBlanks (pieces : List Text) : List Text :=
  (pieces.reverse.dropWhile isBlank).reverse

/--
The start of a path that no trimming removes, with the pieces that follow it: the
root, or a leading `.` of a relative path, or nothing.
-/
def headAndBody : Path → Path × List Text
  | '/' :: body => (['/'], pieces body)
  | ['.'] => (['.'], [])
  | '.' :: '/' :: body => (['.'], [] :: pieces body)
  | path => ([], pieces path)

/-- The directory above what `path` names, as written; the root and the empty path have none. -/
def parent? (path : Path) : Option Path :=
  let (head, body) := headAndBody path
  match trimBlanks body with
  | [] => if head = ['.'] then some [] else none
  | piece :: others =>
      some (head ++ Text.joinWith '/' (trimBlanks ((piece :: others).dropLast)))

/-- The directory of the file at `path`, or the path itself where it has none. -/
def parentOrSelf (path : Path) : Path :=
  path.parent?.getD path

/-- The path and what `parent?` makes of it again and again, for at most `fuel` steps. -/
def ancestorsFrom : (fuel : Nat) → Path → List Path
  | 0, path => [path]
  | fuel + 1, path =>
      match path.parent? with
      | some parent => path :: ancestorsFrom fuel parent
      | none => [path]

/-- The path and the directories above it, nearest first. -/
def ancestors (path : Path) : List Path :=
  ancestorsFrom path.length path

/-- The last segment, unless the path ends in `..` or names no file. -/
def fileName? (path : Path) : Option Text :=
  match (trimBlanks (headAndBody path).2).getLast? with
  | none => none
  | some name => if name = ['.', '.'] then none else some name

end Path

end ImportResolution
