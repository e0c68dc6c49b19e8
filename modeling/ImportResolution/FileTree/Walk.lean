import ImportResolution.FileTree.Basic

/-!
# Walking a path

A path is walked from the root or from a working directory, one piece at a time:
empty pieces and `.` stay, `..` climbs, a name descends, and a symbolic link is
replaced by the pieces of its target. What is left to walk must start in a
directory, so a file with a slash after it is refused. At most forty links are
followed.

A working directory may have been removed while in use. Its names lead nowhere,
but `..` still climbs out of it.
-/

namespace ImportResolution

/-- A directory from which relative paths start. -/
structure WorkingDirectory where
  location : Location
  /-- How many directories at the end of `location` have been removed since. -/
  removed : Nat := 0
  deriving DecidableEq, Repr

namespace WorkingDirectory

/--
The directory that pieces reach as long as it is one that has been removed, and the
pieces that are left. Nothing but `..` leads out of such a directory.
-/
def climb (location : Location) : (removed : Nat) → List Text → WorkingDirectory × List Text
  | 0, pieces => (⟨location, 0⟩, pieces)
  | removed + 1, [] => (⟨location, removed + 1⟩, [])
  | removed + 1, piece :: rest =>
      if Path.isBlank piece then climb location (removed + 1) rest
      else if piece = ['.', '.'] then climb location.dropLast removed rest
      else (⟨location, removed + 1⟩, piece :: rest)

/-- The working directory after the directory at `gone` has been removed. -/
def without (directory : WorkingDirectory) (gone : Location) : WorkingDirectory :=
  let alive := directory.location.take (directory.location.length - directory.removed)
  if gone.isPrefixOf alive then
    { directory with removed := directory.location.length + 1 - gone.length }
  else directory

end WorkingDirectory

namespace FileTree

/-- The longest name, in bytes. -/
def maxNameLength : Nat := 255

/-- The length, in bytes, from which a path is refused. -/
def maxPathLength : Nat := 4096

/-- The number of links that are followed in one walk. -/
def maxLinks : Nat := 40

/-- A place that a walk has reached. -/
structure Place where
  location : Location
  node : Node
  deriving DecidableEq, Repr

/-- Whether a walk looks behind a link at the very end of the path. -/
inductive LastLink
  | followed
  | kept
  deriving DecidableEq, Repr

/--
The place that `pieces` lead to from the directory `location`. A link is handed to
`follow` with the directory from which its target starts and all that is left to walk.
-/
def walkPieces (tree : FileTree) (lastLink : LastLink)
    (follow : Location → List Text → Except FileError Place) :
    Location → List Text → Except FileError Place
  | location, [] => .ok ⟨location, .directory⟩
  | location, piece :: rest =>
      if Path.isBlank piece then walkPieces tree lastLink follow location rest
      else if piece = ['.', '.'] then walkPieces tree lastLink follow location.dropLast rest
      else if piece.byteLength > maxNameLength then .error .nameTooLong
      else
        match tree.node? (location ++ [piece]) with
        | none => .error .notFound
        | some .directory => walkPieces tree lastLink follow (location ++ [piece]) rest
        | some (.file content) =>
            if rest.isEmpty then .ok ⟨location ++ [piece], .file content⟩
            else .error .notDirectory
        | some (.link target) =>
            if rest.isEmpty && lastLink = .kept then .ok ⟨location ++ [piece], .link target⟩
            else if target.isAbsolute then follow [] (target.pieces ++ rest)
            else follow location (target.pieces ++ rest)

/-- A walk that follows at most `links` links. -/
def walk (tree : FileTree) (lastLink : LastLink) :
    (links : Nat) → Location → List Text → Except FileError Place
  | 0 => walkPieces tree lastLink fun _ _ => .error .tooManyLinks
  | links + 1 => walkPieces tree lastLink (walk tree lastLink links)

/-- The place that a path names, seen from a working directory. -/
def find (tree : FileTree) (directory : WorkingDirectory) (lastLink : LastLink) (path : Path) :
    Except FileError Place :=
  if path.contains '\x00' then .error .nulInPath
  else if path.isEmpty then .error .notFound
  else if path.byteLength ≥ maxPathLength then .error .nameTooLong
  else if path.isAbsolute then walk tree lastLink maxLinks [] path.pieces
  else
    match WorkingDirectory.climb directory.location directory.removed path.pieces with
    | (⟨location, 0⟩, pieces) => walk tree lastLink maxLinks location pieces
    | (directory, []) => .ok ⟨directory.location, .directory⟩
    | _ => .error .notFound

/-- The working directory that a path leads to from another one, links followed. -/
def enter (tree : FileTree) (directory : WorkingDirectory) (path : Path) :
    Except FileError WorkingDirectory := do
  let place ← tree.find directory .followed path
  match place.node with
  | .directory =>
      if path.isAbsolute then pure ⟨place.location, 0⟩
      else
        let (reached, _) :=
          WorkingDirectory.climb directory.location directory.removed path.pieces
        pure ⟨place.location, reached.removed⟩
  | _ => throw .notDirectory

end FileTree

end ImportResolution
