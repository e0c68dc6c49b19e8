import ImportResolution.Host.Basic
import ImportResolution.Json.Reader
import ImportResolution.Locator.Basic

/-!
# The locator of the file tree

A path is tried as a file, as it is and with each extension, and then as a
directory: by the `main` entry of its `package.json`, and by a file named `index`.
A specifier that can only name a directory skips the first part. A bare specifier
is looked up in the `node_modules` directories from the given directory upwards.
Links stay in the answer: paths are cleaned lexically, if at all.
-/

namespace ImportResolution

namespace Host

/-- The path itself or with the first extension that makes it a file. -/
def fileAt? (host : Host) (path : Path) (extensions : List Text) : Option Path :=
  (path :: extensions.map (path ++ ·)).find? host.isFile

/-- The index file of a directory. -/
def indexOf? (host : Host) (directory : Path) (extensions : List Text) : Option Path :=
  (extensions.map fun ending => directory.join ("index".toList ++ ending)).find? host.isFile

/-- The main entry in the package file of a directory. -/
def packageMain? (host : Host) (directory : Path) : Option Text := do
  let content ← (host.readText (directory.join packageFile)).toOption
  let value ← (Json.parse content).toOption
  (← value.member? "main".toList).asString?

/-- The file that the main entry of a directory leads to. -/
def mainOf? (host : Host) (directory : Path) (extensions : List Text) : Option Path := do
  let target := directory.absoluteFrom (← host.packageMain? directory)
  (host.fileAt? target extensions).or
    (if host.isDirectory target then host.indexOf? target extensions else none)

/-- The file that stands for a directory. -/
def directoryAt? (host : Host) (directory : Path) (extensions : List Text) : Option Path :=
  if host.isDirectory directory then
    (host.mainOf? directory extensions).or (host.indexOf? directory extensions)
  else none

/-- The file that a path leads to, as a file unless it can only be a directory. -/
def moduleAt? (host : Host) (path : Path) (extensions : List Text) (directoryOnly : Bool) :
    Option Path :=
  (if directoryOnly then none else host.fileAt? path extensions).or
    (host.directoryAt? path extensions)

/-- The file that a bare specifier leads to in the packages of a directory. -/
def packageAt? (host : Host) (specifier : Specifier) (directory : Path)
    (extensions : List Text) : Option Path :=
  let packages := directory.join "node_modules".toList
  if host.isDirectory packages then
    host.moduleAt? (packages.join specifier) extensions specifier.isDirectoryOnly
  else none

/-- The locator that looks into the file tree. -/
def locate (host : Host) : Locator := fun specifier directory extensions =>
  if specifier.isEmpty then none
  else if specifier.kind = .bare && specifier != ['.'] && specifier != ['.', '.'] then
    directory.ancestors.findSome? fun ancestor => host.packageAt? specifier ancestor extensions
  else
    host.moduleAt? (directory.absoluteFrom specifier) extensions specifier.isDirectoryOnly

end Host

end ImportResolution
