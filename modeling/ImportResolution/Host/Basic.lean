import ImportResolution.FileTree.Walk

/-!
# Hosts

A host is all that resolution may consult: a file tree, a working directory and one
environment variable. The questions asked of the tree are gathered here, so the
rest of the library speaks of paths and never of locations.
-/

namespace ImportResolution

/-- The name of the file that describes a package. -/
def packageFile : Text := "package.json".toList

/-- The surroundings of a resolution. -/
structure Host where
  tree : FileTree
  directory : WorkingDirectory
  /-- The value of `NODE_ENV`, if it is set. -/
  nodeEnv : Option Text

namespace Host

/-- The place that a path names, links followed. -/
def find (host : Host) (path : Path) : Except FileError FileTree.Place :=
  host.tree.find host.directory .followed path

/-- Whether a path names a regular file. -/
def isFile (host : Host) (path : Path) : Bool :=
  match host.find path with
  | .ok ⟨_, .file _⟩ => true
  | _ => false

/-- Whether a path names a directory. -/
def isDirectory (host : Host) (path : Path) : Bool :=
  match host.find path with
  | .ok ⟨_, .directory⟩ => true
  | _ => false

/-- Whether a path names anything, a link that leads nowhere included. -/
def hasEntry (host : Host) (path : Path) : Bool :=
  match host.tree.find host.directory .kept path with
  | .ok _ => true
  | .error _ => false

/-- The content of the file at a path. -/
def readText (host : Host) (path : Path) : Except FileError Text :=
  match host.find path with
  | .ok ⟨_, .file (some content)⟩ => .ok content
  | .ok ⟨_, .file none⟩ => .error .notUtf8
  | .ok _ => .error .isDirectory
  | .error error => .error error

/-- The entries of the directory at a path in order of their names; none when it cannot be read. -/
def entries (host : Host) (path : Path) : List (Text × Node) :=
  match host.find path with
  | .ok ⟨location, .directory⟩ => host.tree.children location
  | _ => []

/-- The absolute path of the working directory, unless it has been removed. -/
def currentDirectory (host : Host) : Except FileError Path :=
  if host.directory.removed = 0 then
    .ok ('/' :: Text.joinWith '/' host.directory.location)
  else .error .notFound

end Host

end ImportResolution
