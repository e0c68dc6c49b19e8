import ImportResolution.Host.Edit
import ImportResolution.Json.Reader

/-!
# Manifests

A host can be described by a JSON object. Its members list the directories, the
files with their contents and the links with their targets, all by their paths, and
give the working directory and the environment. Every member may be left out.

`Manifest.host` makes the directories first, then the files, then the links, so a
later entry may rely on an earlier one.
-/

namespace ImportResolution

/-- A description of a host. -/
structure Manifest where
  directories : List Path := []
  files : List (Path × Text) := []
  links : List (Path × Path) := []
  workingDirectory : Path := ['/']
  environment : Json.Members Text := []
  deriving DecidableEq, Repr

namespace Manifest

/-- Why a text describes no host. -/
inductive Error
  | malformed (error : Json.Error)
  /-- The document or one of its members does not have the shape it should. -/
  | wrongShape
  /-- An entry cannot be made. -/
  | refused (error : FileError)
  deriving DecidableEq, Repr

/-- The text that describes an error. -/
def Error.text : Error → Text
  | .malformed error => error.text
  | .wrongShape => "not the description of a host".toList
  | .refused error => error.message.toList

/-- The strings of a list. -/
def texts? : Json → Option (List Text)
  | .array elements => elements.mapM Json.asString?
  | _ => none

/-- Two strings in a list. -/
def pair? : Json → Option (Text × Text)
  | .array [.string first, .string second] => some (first, second)
  | _ => none

/-- The pairs of strings of a list. -/
def pairs? : Json → Option (List (Text × Text))
  | .array elements => elements.mapM pair?
  | _ => none

/-- The members of an object whose values are strings. -/
def textMembers? : Json → Option (Json.Members Text)
  | .object members => members.mapM fun (key, value) => value.asString?.map fun text => (key, text)
  | _ => none

/-- The member under a key in another form, or a default where there is none. -/
def memberOr {α : Type} (document : Json) (key : String) (form : Json → Option α) (default : α) :
    Option α :=
  match document.member? key.toList with
  | some value => form value
  | none => some default

/-- The manifest that a JSON value denotes. -/
def ofJson? (document : Json) : Option Manifest :=
  match document with
  | .object _ => do
      pure {
        directories := ← memberOr document "directories" texts? []
        files := ← memberOr document "files" pairs? []
        links := ← memberOr document "links" pairs? []
        workingDirectory := ← memberOr document "workingDirectory" Json.asString? ['/']
        environment := ← memberOr document "environment" textMembers? [] }
  | _ => none

/-- The value of a variable of the environment. -/
def valueOf? (manifest : Manifest) (name : String) : Option Text :=
  manifest.environment.lookup name.toList

/-- The host that a manifest describes. -/
def host (manifest : Manifest) : Except FileError Host := do
  let start : Host := ⟨.empty, ⟨[], 0⟩, manifest.valueOf? "NODE_ENV"⟩
  let host ← manifest.directories.foldlM
    (fun host path => (host.makeDirectories path).toExcept) start
  let host ← manifest.files.foldlM
    (fun host file => (host.writeFile file.1 (some file.2)).toExcept) host
  let host ← manifest.links.foldlM
    (fun host link => (host.makeLink link.1 link.2).toExcept) host
  let host ← (host.makeDirectories manifest.workingDirectory).toExcept
  host.changeDirectory manifest.workingDirectory

/-- The manifest that a text denotes, with the host that it describes. -/
def read (text : Text) : Except Error (Manifest × Host) :=
  match Json.parse text with
  | .error error => .error (.malformed error)
  | .ok document =>
      match ofJson? document with
      | none => .error .wrongShape
      | some manifest =>
          match manifest.host with
          | .error error => .error (.refused error)
          | .ok host => .ok (manifest, host)

end Manifest

end ImportResolution
