import ImportResolution.Path.Clean

/-!
# Relative paths

The way from one directory to a place in the tree: up to the deepest common
ancestor, then down. Both ends are cleaned first and no file system is consulted.
-/

namespace ImportResolution

namespace Path

/-- What is left of both lists after their longest common beginning. -/
def dropCommon : List Text → List Text → List Text × List Text
  | start :: starts, target :: targets =>
      if start = target then dropCommon starts targets
      else (start :: starts, target :: targets)
  | starts, targets => (starts, targets)

/-- The path that leads from the directory `start` to `target`; empty when they are the same. -/
def relativeTo (start target : Path) : Path :=
  let (up, down) := dropCommon start.clean.components target.clean.components
  ofComponents (up.map (fun _ => ['.', '.']) ++ down)

end Path

end ImportResolution
