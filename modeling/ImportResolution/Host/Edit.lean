import ImportResolution.Host.Basic

/-!
# Changing a host

Writing a file, making directories and links, removing, and moving to another
working directory. A single step returns the host after it, or the reason why
nothing was changed; a change of several steps may end early and then leaves behind
what it has done.

A new node goes to the slot that the last name of its path denotes. The slot is in a
directory that must be there, and `.` or `..` never denote a slot.
-/

namespace ImportResolution

namespace Path

/-- The path without the slashes at its end. -/
def trimSlashes (path : Path) : Path :=
  (path.reverse.dropWhile (· == '/')).reverse

/-- Whether something below the path is meant. -/
def endsInSlash (path : Path) : Bool :=
  path.getLast? == some '/'

/-- The last piece of a path, slashes at the end ignored, with the directory it stands in. -/
def lastPiece? (path : Path) : Option (Path × Text) :=
  match path.trimSlashes with
  | [] => none
  | trimmed =>
      match Text.splitAtLast? (· == '/') trimmed with
      | some ([], name) => some (['/'], name)
      | some (directory, name) => some (directory, name)
      | none => some (['.'], trimmed)

end Path

namespace Host

/-- The location of the directory in which the last name of a path stands, and that name. -/
def slot (host : Host) (path : Path) : Except FileError (Location × Text) :=
  match path.lastPiece? with
  | none => .error (if path.isEmpty then .notFound else .exists)
  | some (directory, name) => do
      if path.contains '\x00' then throw .nulInPath
      if path.byteLength ≥ FileTree.maxPathLength then throw .nameTooLong
      let place ← host.find directory
      match place.node with
      | .directory =>
          if name = ['.'] || name = ['.', '.'] then throw .exists
          if name.byteLength > FileTree.maxNameLength then throw .nameTooLong
          if host.tree.node? place.location != some .directory then throw .notFound
          pure (place.location, name)
      | _ => throw .notDirectory

/-- The host with a node in a slot that was free. -/
def place (host : Host) (path : Path) (node : Node) : Except FileError Host := do
  let (location, name) ← host.slot path
  match host.tree.node? (location ++ [name]) with
  | some _ => throw .exists
  | none =>
      if path.endsInSlash && node != .directory then throw .notFound
      pure { host with tree := host.tree.put (location ++ [name]) node }

/-- What a change of several steps leaves behind, and why it ended early if it did. -/
structure Changed where
  host : Host
  error : Option FileError

namespace Changed

/-- The outcome of one step, which changes nothing when it fails. -/
def ofStep (host : Host) (step : Host → Except FileError Host) : Changed :=
  match step host with
  | .ok host => ⟨host, none⟩
  | .error error => ⟨host, some error⟩

/-- One more step, unless the change has ended. -/
def andThen (changed : Changed) (step : Host → Changed) : Changed :=
  match changed.error with
  | some _ => changed
  | none => step changed.host

/-- The host after a change that has not ended early. -/
def toExcept (changed : Changed) : Except FileError Host :=
  match changed.error with
  | some error => .error error
  | none => .ok changed.host

end Changed

/-- A new directory at the path, or the one that is there. -/
def ensureDirectory (path : Path) (host : Host) : Changed :=
  let changed := Changed.ofStep host (·.place path .directory)
  if changed.error.isSome && host.isDirectory path then ⟨host, none⟩ else changed

/-- A directory at the first of the paths, each made inside the one after it. -/
def makeAlong (host : Host) : List Path → Changed
  | [] => ⟨host, none⟩
  | path :: above =>
      if path.isEmpty then ⟨host, none⟩
      else
        let changed := host.ensureDirectory path
        if changed.error = some .notFound then (host.makeAlong above).andThen (ensureDirectory path)
        else changed

/-- A directory at the path, those above it made as well. -/
def makeDirectories (host : Host) (path : Path) : Changed :=
  host.makeAlong path.ancestors

/-- The directory above the path, if there is one above. -/
def makeParents (host : Host) (path : Path) : Changed :=
  match path.parent? with
  | some parent => host.makeDirectories parent
  | none => ⟨host, none⟩

/-- The host with the content in the file at the path; a link to a missing file makes that file. -/
def overwrite (content : Option Text) : (links : Nat) → Host → Path → Except FileError Host
  | links, host, path =>
      match host.find path with
      | .ok ⟨location, .file _⟩ =>
          .ok { host with tree := host.tree.put location (.file content) }
      | .ok _ => .error .isDirectory
      | .error .notFound =>
          match links, host.slot path with
          | _, .error error => .error error
          | 0, .ok _ => .error .tooManyLinks
          | links + 1, .ok (location, name) =>
              if path.endsInSlash then .error .isDirectory
              else
                match host.tree.node? (location ++ [name]) with
                | some (.link target) =>
                    (overwrite content links { host with directory := ⟨location, 0⟩ } target).map
                      fun changed => { changed with directory := host.directory }
                | some _ => .error .notFound
                | none =>
                    .ok { host with
                      tree := host.tree.put (location ++ [name]) (.file content) }
      | .error error => .error error

/-- A file written at the path, the directories above it made first. -/
def writeFile (host : Host) (path : Path) (content : Option Text) : Changed :=
  (host.makeParents path).andThen fun host =>
    .ofStep host (overwrite content FileTree.maxLinks · path)

/-- The host with a symbolic link at the path. -/
def placeLink (host : Host) (path target : Path) : Except FileError Host :=
  if target.isEmpty then .error .notFound
  else if target.contains '\x00' then .error .nulInPath
  else if target.byteLength ≥ FileTree.maxPathLength then .error .nameTooLong
  else host.place path (.link target)

/-- A symbolic link at the path, the directories above it made first. -/
def makeLink (host : Host) (path target : Path) : Changed :=
  (host.makeParents path).andThen fun host => .ofStep host (·.placeLink path target)

/-- The host without the file or the link at the path. -/
def removeFile (host : Host) (path : Path) : Except FileError Host := do
  let place ← host.tree.find host.directory .kept path
  match place.node with
  | .directory => throw .isDirectory
  | _ => pure { host with tree := host.tree.remove place.location }

/-- The host without the directory at a location and all that is below it. -/
def discard (host : Host) (location : Location) : Host :=
  { host with
    tree := host.tree.remove location
    directory := host.directory.without location }

/-- The host with nothing left in the directory at a location. -/
def clear (host : Host) (location : Location) : Host :=
  (host.tree.children location).foldl
    (fun host child => host.discard (location ++ [child.1])) host

/--
The host without the directory in the slot of a path. It may have gone already, but a
link cannot be removed as a directory.
-/
def removeSlot (host : Host) (path : Path) : Except FileError Host :=
  match host.slot path with
  | .error .notFound => .ok host
  | .error error => .error error
  | .ok (location, name) =>
      match host.tree.node? (location ++ [name]) with
      | none => .ok host
      | some .directory => .ok (host.discard (location ++ [name]))
      | some _ => .error .notDirectory

/--
The host without the directory at the path and all it holds; of a link, the link goes.
The directory is emptied first, so it stays behind without its content when its path
ends in `.` or in a link with a slash after it.
-/
def removeDirectory (host : Host) (path : Path) : Changed :=
  match host.tree.find host.directory .kept path with
  | .error error => ⟨host, some error⟩
  | .ok ⟨_, .file _⟩ => ⟨host, some .notDirectory⟩
  | .ok ⟨location, .link _⟩ => ⟨{ host with tree := host.tree.remove location }, none⟩
  | .ok ⟨location, .directory⟩ => .ofStep (host.clear location) (·.removeSlot path)

/-- The host in another working directory. -/
def changeDirectory (host : Host) (path : Path) : Except FileError Host := do
  pure { host with directory := (← host.tree.enter host.directory path) }

end Host

end ImportResolution
