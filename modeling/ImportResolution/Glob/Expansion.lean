import ImportResolution.Glob.Pattern
import ImportResolution.Host.Basic

/-!
# Expanding a glob pattern

A pattern is expanded by descending from the root one segment at a time. A segment
without wildcards is looked up; any other is compared with the names in the
directory, in their order. Below `**` a directory is compared with what follows
before its own entries are visited. `.` and `..` match only a wildcard that starts
with a dot.
-/

namespace ImportResolution

namespace Glob

/-- A path that the expansion has reached. -/
structure Reached where
  path : Path
  isDirectory : Bool
  deriving DecidableEq, Repr

/-- A path as it is found in the tree. -/
def reachedAt (host : Host) (path : Path) : Reached :=
  ⟨path, host.isDirectory path⟩

/-- An entry of a directory; a link counts as what it leads to. -/
def reachedEntry (host : Host) (directory : Path) (entry : Text × Node) : Reached :=
  let path := directory.join entry.1
  match entry.2 with
  | .directory => ⟨path, true⟩
  | .file _ => ⟨path, false⟩
  | .link _ => reachedAt host path

/-- The special entries that a segment matches, the parent first. -/
def specialEntries (segment : Segment) : List Text :=
  match segment with
  | .wildcard (.char '.' :: tokens) =>
      [['.', '.'], ['.']].filter (matchesName (.char '.' :: tokens))
  | _ => []

/-- The segments after a run of recursive ones. -/
def dropRecursive (segments : List Segment) : List Segment :=
  segments.dropWhile (· == .recursive)

/-- The paths below a directory that the segments match, for at most `fuel` levels. -/
def expandFrom (host : Host) : (fuel : Nat) → List Segment → Reached → List Path
  | 0, _, _ => []
  | _ + 1, [], _ => []
  | fuel + 1, .literal name :: rest, directory =>
      let path := directory.path.join name
      if host.hasEntry path then
        if rest.isEmpty then [path] else expandFrom host fuel rest (reachedAt host path)
      else []
  | fuel + 1, segment :: rest, directory =>
      if directory.isDirectory then
        let onward := fun (segments : List Segment) (reached : Reached) =>
          if segments.isEmpty then [reached.path] else expandFrom host fuel segments reached
        let special := (specialEntries segment).flatMap fun name =>
          onward rest (reachedAt host (directory.path.join name))
        special ++ (host.entries directory.path).flatMap fun entry =>
          let reached := reachedEntry host directory.path entry
          let next := if segment = .recursive then dropRecursive rest else segment :: rest
          let deeper :=
            if segment = .recursive && reached.isDirectory then
              expandFrom host fuel (.recursive :: next) reached
            else []
          match next with
          | [] => if reached.isDirectory then reached.path :: deeper else []
          | segment :: rest =>
              (if segment.matchesName entry.1 then onward rest reached else []) ++ deeper
      else []

/-- The directories that an absolute clean pattern matches, in order. -/
def directories (host : Host) (pattern : Path) : Except Error (List Path) := do
  let segments ← segments pattern
  pure ((expandFrom host FileTree.maxPathLength segments ⟨['/'], true⟩).filter
    host.isDirectory)

end Glob

end ImportResolution
