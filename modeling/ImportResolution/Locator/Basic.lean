import ImportResolution.Specifier

/-!
# Locators

A locator says which file a specifier names when it is taken from a directory, with
extensions that may be missing from it. Resolution asks a locator and nothing else
about existence, and each question is kept as a value.
-/

namespace ImportResolution

/-- The file that a specifier names from a directory, with extensions to be tried, if any. -/
abbrev Locator :=
  (specifier : Specifier) → (directory : Path) → (extensions : List Text) → Option Path

/-- A question to a locator. -/
structure Query where
  specifier : Specifier
  directory : Path
  extensions : List Text
  deriving DecidableEq, Repr

/-- The answer to a question. -/
def Locator.answer (locator : Locator) (query : Query) : Option Path :=
  locator query.specifier query.directory query.extensions

end ImportResolution
