import ImportResolution.ConfigError
import ImportResolution.Host.Basic
import ImportResolution.Json.Skipped
import ImportResolution.Json.Typed
import ImportResolution.Settings.Basic

/-!
# Reading settings

Settings are written as a JSON object, or as a JSON array with the fields in their
order. They are read straight from the text, so the first fault in the text is
reported, be it a fault of the format or a value of the wrong shape. Keys that are
no fields are skipped, and a field may appear only once.
-/

namespace ImportResolution

namespace Settings

/-- The fields of a settings document. -/
inductive Field
  | cwd
  | root
  | aliases
  | extensions
  | stripExtensions
  | imageTypes
  | imageScale
  deriving DecidableEq, Repr

namespace Field

/-- The fields in the order of the array form. -/
def all : List Field :=
  [.cwd, .root, .aliases, .extensions, .stripExtensions, .imageTypes, .imageScale]

/-- The key of a field. -/
def key : Field → Text
  | .cwd => "cwd".toList
  | .root => "root".toList
  | .aliases => "alias".toList
  | .extensions => "extensions".toList
  | .stripExtensions => "stripExtensions".toList
  | .imageTypes => "imageTypes".toList
  | .imageScale => "imageScale".toList

/-- The field with a key. -/
def ofKey? (key : Text) : Option Field :=
  all.find? fun field => field.key == key

/-- The settings with the value of a field, which stands one level below the document. -/
def read (field : Field) (settings : Settings) (cursor : Json.Cursor) :
    Except Json.Error (Settings × Json.Cursor) := do
  match field with
  | .cwd =>
      let (value, cursor) ← Json.readOptional Json.readText cursor
      pure ({ settings with cwd := value.map BaseDirectory.ofText }, cursor)
  | .root =>
      let (value, cursor) ← Json.readTexts 1 cursor
      pure ({ settings with root := value }, cursor)
  | .aliases =>
      let (value, cursor) ← Json.readObject 1 cursor
      pure ({ settings with aliases := value }, cursor)
  | .extensions =>
      let (value, cursor) ← Json.readOptional (Json.readTexts 1) cursor
      pure ({ settings with extensions := value }, cursor)
  | .stripExtensions =>
      let (value, cursor) ← Json.readOptional (Json.readTexts 1) cursor
      pure ({ settings with stripExtensions := value }, cursor)
  | .imageTypes =>
      let (value, cursor) ← Json.readOptional (Json.readTexts 1) cursor
      pure ({ settings with imageTypes := value }, cursor)
  | .imageScale =>
      let (value, cursor) ← Json.readOptional (Json.readTexts 1) cursor
      pure ({ settings with imageScale := value }, cursor)

end Field

/-- The fault of a field that appears again, seen at the end of the object if that follows. -/
def duplicateFault (field : Field) (cursor : Json.Cursor) : Json.Error :=
  let cursor := cursor.skipBlanks
  let cursor := if cursor.rest.head? = some '\x7d' then cursor.next else cursor
  cursor.fault (.duplicateField field.key)

/-- The settings with the members of an object up to its end, which is left to be read. -/
def readFields : (fuel : Nat) → (isFirst : Bool) → (seen : List Field) → Settings →
    Json.Cursor → Except Json.Error (Settings × Json.Cursor)
  | 0, _, _, _, cursor => .error (cursor.fault .recursionLimit)
  | fuel + 1, isFirst, seen, settings, cursor => do
      match ← Json.nextKey isFirst cursor with
      | none => pure (settings, cursor)
      | some (key, cursor) =>
          match Field.ofKey? key with
          | none =>
              readFields fuel false seen settings (← Json.skipValue (← Json.colon cursor))
          | some field =>
              if field ∈ seen then throw (duplicateFault field cursor)
              let (settings, cursor) ← field.read settings (← Json.colon cursor)
              readFields fuel false (field :: seen) settings cursor

/-- The settings with the elements of an array for the fields in turn. -/
def readElements : (isFirst : Bool) → List Field → Settings → Json.Cursor →
    Except Json.Error (Settings × Json.Cursor)
  | _, [], settings, cursor => .ok (settings, cursor)
  | isFirst, field :: fields, settings, cursor => do
      match ← Json.nextElement isFirst cursor with
      | none => pure (settings, cursor)
      | some cursor =>
          let (settings, cursor) ← field.read settings cursor
          readElements false fields settings cursor

/-- A settings document. -/
def readDocument (cursor : Json.Cursor) : Except Json.Error (Settings × Json.Cursor) := do
  let cursor := cursor.skipBlanks
  match cursor.rest with
  | '\x7b' :: rest =>
      let (settings, cursor) ←
        readFields (rest.length + 1) true [] {} (← Json.enter 0 cursor)
      pure (settings, ← Json.endOfObject cursor)
  | '[' :: _ =>
      let (settings, cursor) ← readElements true Field.all {} (← Json.enter 0 cursor)
      pure (settings, ← Json.endOfList cursor)
  | _ => throw (Json.invalidType .settings cursor)

/-- The settings that a JSON text denotes. -/
def parse (text : Text) : Except Json.Error Settings := do
  let (settings, cursor) ← readDocument (.start text)
  Json.endOfText cursor
  pure settings

/-- The settings in a file. -/
def load (host : Host) (path : Path) : Except ConfigError Settings :=
  match host.readText path with
  | .error error => .error (.unreadable path error)
  | .ok text =>
      match parse text with
      | .error error => .error (.malformed path error)
      | .ok settings => .ok settings

end Settings

end ImportResolution
