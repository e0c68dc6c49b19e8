import ImportResolution.Path.Basic

/-!
# Clean paths

A path is cleaned by reading its components from left to right: `.` is dropped,
`..` takes back the step before it, and nothing lies above the root. Cleaning is
lexical, so a `..` after a symbolic link is taken back like any other.

`Path.absoluteFrom` is how every path of a configuration or a command line becomes
an absolute one.
-/

namespace ImportResolution

namespace Path

/-- The root `/`, a leading `.`, and the segments of a path, in order. -/
def components (path : Path) : List Text :=
  let (head, body) := headAndBody path
  (if head.isEmpty then [] else [head]) ++ body.filter fun piece => !isBlank piece

/-- The path that descends through the components one after the other. -/
def ofComponents (components : List Text) : Path :=
  components.foldl join []

/-- One component read, with the components kept so far last first. -/
def cleanStep (kept : List Text) (component : Text) : List Text :=
  if component = ['.'] then kept
  else if component = ['.', '.'] then
    match kept with
    | [] => [component]
    | last :: earlier =>
        if last = ['/'] then kept
        else if last = ['.', '.'] then component :: kept
        else earlier
  else component :: kept

/-- The components that remain after `.` and `..` have been carried out. -/
def cleanComponents (components : List Text) : List Text :=
  (components.foldl cleanStep []).reverse

/-- The shortest path that names the same place lexically; `.` when nothing remains. -/
def clean (path : Path) : Path :=
  match cleanComponents path.components with
  | [] => ['.']
  | kept => ofComponents kept

/-- `path` made absolute against `base` and cleaned. -/
def absoluteFrom (base path : Path) : Path :=
  (base.join path).clean

end Path

end ImportResolution
