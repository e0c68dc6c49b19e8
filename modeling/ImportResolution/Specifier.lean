import ImportResolution.Path.Relative

/-!
# Specifiers

A specifier is the text inside an import. It is classified by its first
characters alone, and its final segment is split into a stem and an extension.
Both `/` and `\` separate segments here, since specifiers are written by hand on
every system.
-/

namespace ImportResolution

/-- The text by which a module is imported. -/
abbrev Specifier := Text

namespace Specifier

/-- The shape of a specifier. -/
inductive Kind
  /-- Starts with `./` or `../`. -/
  | relative
  /-- Starts at a file-system root: `/x`, `C:\x` or `\\server\share`. -/
  | absolute
  /-- Anything else: a package or an alias. -/
  | bare
  deriving DecidableEq, Repr

/-- Starts with `./` or `../`. -/
def isRelative : Specifier → Bool
  | '.' :: '/' :: _ => true
  | '.' :: '.' :: '/' :: _ => true
  | _ => false

/-- Starts with `/`, with a drive letter, a colon and a separator, or with two backslashes. -/
def isAbsolute : Specifier → Bool
  | '/' :: _ => true
  | '\\' :: '\\' :: _ => true
  | letter :: ':' :: separator :: _ => letter.isAlpha && (separator == '\\' || separator == '/')
  | _ => false

/-- The shape of a specifier, read off its first characters. -/
def kind (specifier : Specifier) : Kind :=
  if specifier.isRelative then .relative
  else if specifier.isAbsolute then .absolute
  else .bare

/-- Can only name a directory: `.`, `..`, and what ends in `/`, `/.` or `/..`. -/
def isDirectoryOnly (specifier : Specifier) : Bool :=
  specifier == ['.'] || specifier == ['.', '.'] ||
    ['/'].isSuffixOf specifier || ['/', '.'].isSuffixOf specifier ||
    ['/', '.', '.'].isSuffixOf specifier

/-- Every backslash turned into a slash. -/
def withSlashes (specifier : Specifier) : Specifier :=
  Text.replaceChar '\\' '/' specifier

/--
The specifier with `./` in front unless it is relative already; the importing
directory itself becomes `./` and its parent `../`.
-/
def asRelative (specifier : Specifier) : Specifier :=
  if specifier.isRelative then specifier
  else if specifier = ['.'] || specifier = [] then ['.', '/']
  else if specifier = ['.', '.'] then ['.', '.', '/']
  else '.' :: '/' :: specifier

/-- Both separators count, whatever the system. -/
def isSeparator (char : Char) : Bool :=
  char == '/' || char == '\\'

/-- The text before the last separator, if there is one, and the final segment. -/
def splitName (specifier : Specifier) : Option Text × Text :=
  match Text.splitAtLast? isSeparator specifier with
  | some (directory, name) => (some directory, name)
  | none => (none, specifier)

/--
The stem and the extension of one segment. The extension starts at the last dot;
dots at the start of the segment never start one.
-/
def splitExtension (name : Text) : Text × Text :=
  match Text.splitAtLast? (· == '.') name with
  | some (stem, ending) => if stem.all (· == '.') then (name, []) else (stem, '.' :: ending)
  | none => (name, [])

/-- The extension of the final segment with its dot, or nothing. -/
def extension (specifier : Specifier) : Text :=
  (splitExtension specifier.splitName.2).2

/-- The final segment without its extension. -/
def stem (specifier : Specifier) : Text :=
  (splitExtension specifier.splitName.2).1

/-- A final segment put below a directory part, where there is one. -/
def withDirectory (directory : Option Text) (name : Text) : Specifier :=
  match directory with
  | some directory => directory ++ '/' :: name
  | none => name

/-- The final segment loses the first of `extensions` that it ends with. -/
def withoutExtension (specifier : Specifier) (extensions : List Text) : Specifier :=
  let (directory, name) := specifier.splitName
  withDirectory directory ((extensions.findSome? fun ending => ending.isSuffixOf? name).getD name)

end Specifier

/-- The extension of the file that a path names, in the form of `Specifier.extension`. -/
def Path.extension (path : Path) : Text :=
  match path.fileName? with
  | some name => Specifier.extension name
  | none => []

end ImportResolution
