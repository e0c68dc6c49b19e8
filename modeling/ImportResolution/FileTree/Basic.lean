import ImportResolution.Path.Basic

/-!
# File trees

A file tree holds files, directories and symbolic links. A location is the list of
names that lead down from the root, so it never holds a link, `.` or `..`;
`FileTree.Walk` finds the location that a path names.

`FileTree.node?` says what stands at a location. Everything else about a tree is
read through it, and through the names that a directory holds.
-/

namespace ImportResolution

/-- The names that lead from the root to a place in the tree. -/
abbrev Location := List Text

/-- What can stand at a location. -/
inductive Node
  /-- A regular file; the content is absent when the bytes are not valid UTF-8. -/
  | file (content : Option Text)
  | directory
  /-- A symbolic link with the path that it holds. -/
  | link (target : Path)
  deriving DecidableEq, Repr

/-- Why the system refuses an operation on a path. -/
inductive FileError
  | notFound
  | notDirectory
  | isDirectory
  | exists
  | tooManyLinks
  | nameTooLong
  | nulInPath
  | notUtf8
  deriving DecidableEq, Repr

/-- The text by which the system reports the error. -/
def FileError.message : FileError → String
  | .notFound => "No such file or directory (os error 2)"
  | .notDirectory => "Not a directory (os error 20)"
  | .isDirectory => "Is a directory (os error 21)"
  | .exists => "File exists (os error 17)"
  | .tooManyLinks => "Too many levels of symbolic links (os error 40)"
  | .nameTooLong => "File name too long (os error 36)"
  | .nulInPath => "file name contained an unexpected NUL byte"
  | .notUtf8 => "stream did not contain valid UTF-8"

/-- What stands at a location, with all that is below it. -/
inductive Branch
  | file (content : Option Text)
  | link (target : Path)
  | directory (entries : List (Text × Branch))

namespace Branch

/-- What stands there, without what is below. -/
def node : Branch → Node
  | .file content => .file content
  | .link target => .link target
  | .directory _ => .directory

/-- The branch with nothing below what stands there. -/
def ofNode : Node → Branch
  | .file content => .file content
  | .link target => .link target
  | .directory => .directory []

/-- The names in a directory with what is there; nothing else holds any. -/
def entries : Branch → List (Text × Branch)
  | .directory entries => entries
  | _ => []

/-- The branch at a location below this one. -/
def below? (branch : Branch) : Location → Option Branch
  | [] => some branch
  | name :: location => (branch.entries.lookup name).bind fun inner => inner.below? location

/-- The entries with a branch under a name, or with none. -/
def assign (entries : List (Text × Branch)) (name : Text) (branch : Option Branch) :
    List (Text × Branch) :=
  (branch.map fun branch => (name, branch)).toList ++ entries.filter fun entry => entry.1 != name

/--
What a branch becomes when `value` stands at a location below it. Nothing changes
unless directories lead to that location.
-/
def replace (value : Option Branch) : Location → Option Branch → Option Branch
  | [], _ => value
  | name :: location, some (.directory entries) =>
      some (.directory
        (assign entries name (replace value location (entries.lookup name))))
  | _ :: _, branch => branch

end Branch

/-- A tree as the entries of its root. -/
structure FileTree where
  entries : List (Text × Branch)

namespace FileTree

/-- The tree that holds the root alone. -/
def empty : FileTree := ⟨[]⟩

/-- The root with the whole tree below it. -/
def root (tree : FileTree) : Branch := .directory tree.entries

/-- What stands at a location. -/
def node? (tree : FileTree) (location : Location) : Option Node :=
  (tree.root.below? location).map Branch.node

/-- The names in a directory with what stands there, in order of their characters. -/
def children (tree : FileTree) (location : Location) : List (Text × Node) :=
  match tree.root.below? location with
  | some branch =>
      (branch.entries.map fun entry => (entry.1, entry.2.node)).mergeSort fun left right =>
        Text.notAfter left.1 right.1
  | none => []

/-- The tree with another branch at a location, or with none. -/
def replace (tree : FileTree) (location : Location) (value : Option Branch) : FileTree :=
  ⟨((Branch.replace value location (some tree.root)).map Branch.entries).getD []⟩

/-- The tree with `node` at `location`, in place of what stood there. -/
def put (tree : FileTree) (location : Location) (node : Node) : FileTree :=
  tree.replace location (some (.ofNode node))

/-- The tree without `location` and everything below it. -/
def remove (tree : FileTree) (location : Location) : FileTree :=
  tree.replace location none

end FileTree

end ImportResolution
