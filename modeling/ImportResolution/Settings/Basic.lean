import ImportResolution.Json.Basic
import ImportResolution.Path.Clean

/-!
# Settings

What a user writes: where relative paths start, which directories are searched,
which aliases apply, and which extensions and image scales are tried. An absent
list stands for its default.
-/

namespace ImportResolution

/-- How the directory is chosen from which relative paths of the settings are taken. -/
inductive BaseDirectory
  /-- This directory, itself taken from the working directory of the host. -/
  | directory (path : Path)
  /-- The nearest directory above the importing file that holds a `package.json`. -/
  | packageJson
  deriving DecidableEq, Repr

/-- The base directory that a text of the settings stands for. -/
def BaseDirectory.ofText (text : Text) : BaseDirectory :=
  if text = "packagejson".toList then .packageJson else .directory text

/-- Settings as they are written. -/
structure Settings where
  cwd : Option BaseDirectory := none
  /-- Directories, or glob patterns for directories, in order. -/
  root : List Text := []
  /-- Patterns with what replaces them, in order. -/
  aliases : Json.Members Json := []
  extensions : Option (List Text) := none
  stripExtensions : Option (List Text) := none
  imageTypes : Option (List Text) := none
  imageScale : Option (List Text) := none
  deriving Repr

namespace Settings

/-- The settings with a root after those they have. -/
def addRoot (settings : Settings) (root : Text) : Settings :=
  { settings with root := settings.root ++ [root] }

/-- The settings with an alias; a pattern that they have keeps its place. -/
def setAlias (settings : Settings) (pattern replacement : Text) : Settings :=
  { settings with aliases := settings.aliases.insert pattern (.string replacement) }

/-- The settings with a base directory. -/
def setCwd (settings : Settings) (cwd : BaseDirectory) : Settings :=
  { settings with cwd := some cwd }

/-- The settings with a list of extensions. -/
def setExtensions (settings : Settings) (extensions : List Text) : Settings :=
  { settings with extensions := some extensions }

end Settings

end ImportResolution
