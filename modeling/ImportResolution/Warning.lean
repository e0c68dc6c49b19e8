import ImportResolution.Specifier

/-!
# Warnings

Advice that a resolution gives beside its answer. Warnings never change the
answer; a collector keeps them in the order in which they were given.
-/

namespace ImportResolution

/-- What a warning is about. -/
inductive WarningCode
  /-- An alias led to a module that was not found. -/
  | unresolvedAliasTarget
  deriving DecidableEq, Repr

/-- The word for a warning code. -/
def WarningCode.text : WarningCode → Text
  | .unresolvedAliasTarget => "unresolved_alias_target".toList

/-- A warning. -/
structure Warning where
  code : WarningCode
  /-- The specifier that was not found. -/
  specifier : Specifier
  /-- The importing file. -/
  importer : Path
  deriving DecidableEq, Repr

/-- The text of a warning. -/
def Warning.text (warning : Warning) : Text :=
  "could not resolve module `".toList ++ warning.specifier ++ "` imported from `".toList ++
    warning.importer ++ "`".toList

/-- The warnings kept so far. -/
structure Collector where
  held : List Warning := []
  deriving DecidableEq, Repr

namespace Collector

/-- The collector with one more warning. -/
def add (collector : Collector) (warning : Warning) : Collector :=
  ⟨collector.held ++ [warning]⟩

/-- The collector with more warnings, in order. -/
def addAll (collector : Collector) (warnings : List Warning) : Collector :=
  warnings.foldl add collector

/-- The warnings held, with the collector that has given them away. -/
def drain (collector : Collector) : List Warning × Collector :=
  (collector.held, {})

end Collector

end ImportResolution
