import ImportResolution.Locator.Files
import ImportResolution.Options.OfSettings
import ImportResolution.Resolution.Strategy

/-!
# Resolution

A specifier is resolved by the first strategy that finds something: a relative one
stays as it is, and for any other the aliases, the roots and the scaled images are
tried in this order. A specifier that none of them resolves is no error.

`Options.resolve` resolves with options and any locator; `Host.resolve` starts
from settings and asks the file tree.
-/

namespace ImportResolution

/-- The answer for a specifier. -/
inductive Resolution
  | resolved (specifier : Specifier) (strategy : Strategy)
  | unresolved
  deriving DecidableEq, Repr

namespace Resolution

/-- Whether a strategy has found something. -/
def isResolved : Resolution → Bool
  | .resolved _ _ => true
  | .unresolved => false

/-- The specifier that was found. -/
def specifier? : Resolution → Option Specifier
  | .resolved specifier _ => some specifier
  | .unresolved => none

/-- The strategy that has found it. -/
def strategy? : Resolution → Option Strategy
  | .resolved _ strategy => some strategy
  | .unresolved => none

/-- The answer that an attempt amounts to. -/
def ofFound : Option (Specifier × Strategy) → Resolution
  | some (specifier, strategy) => .resolved specifier strategy
  | none => .unresolved

end Resolution

/-- An answer with the warnings given and the questions asked on the way to it. -/
structure Outcome where
  resolution : Resolution
  warnings : List Warning
  queries : List Query
  deriving DecidableEq, Repr

/-- The answer to a specifier that is relative already. -/
def Outcome.unchanged (specifier : Specifier) : Outcome :=
  ⟨.resolved specifier .relative, [], []⟩

namespace Options

/-- The strategies for a specifier that is not relative, in order. -/
def strategies : List Strategy := [.aliased, .root, .rootImageScale]

/-- The answer for a specifier imported by `file`, which is taken from the directory `current`. -/
def resolve (options : Options) (locator : Locator) (current : Path) (specifier : Specifier)
    (file : Path) : Outcome :=
  if specifier.isRelative then .unchanged specifier
  else
    let file := Path.absoluteFrom current file
    let attempt := Attempt.firstOf
      (fun strategy =>
        (options.attempt locator file specifier strategy).map fun found => (found, strategy))
      strategies
    ⟨.ofFound attempt.found, attempt.warnings, attempt.queries⟩

end Options

namespace Host

/-- The directory from which importing files are taken: the working directory, if it is there. -/
def importBase (host : Host) : Path :=
  match host.currentDirectory with
  | .ok current => current
  | .error _ => []

/-- The answer with options that have been normalized, asking the file tree. -/
def resolveWith (host : Host) (options : Options) (specifier : Specifier) (file : Path) :
    Outcome :=
  options.resolve host.locate host.importBase specifier file

/-- The answer with settings; a relative specifier is answered before they are looked at. -/
def resolve (host : Host) (settings : Settings) (specifier : Specifier) (file : Path) :
    Except ConfigError Outcome :=
  if specifier.isRelative then .ok (.unchanged specifier)
  else do
    let options ← Options.ofSettings host settings file
    pure (host.resolveWith options specifier file)

end Host

end ImportResolution
