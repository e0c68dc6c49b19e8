import ImportResolution.Json.Reader

/-!
# Reading JSON values of a given shape

A value that is asked to have a shape is read straight from the text. A value of
another shape is a fault, which is seen where that value ends.
-/

namespace ImportResolution

namespace Json

/-- The error of a value that does not have the shape it should; the value is read to its end. -/
def invalidType (expected : Shape) (cursor : Cursor) : Error :=
  let report := fun (found : Found) (cursor : Cursor) =>
    cursor.fault (.invalidType found expected)
  let cursor := cursor.skipBlanks
  let word := fun (letters : String) (found : Found) =>
    match readWord cursor.next letters.toList with
    | .ok cursor => report found cursor
    | .error error => error
  let number := fun (result : Except Error (Number × Cursor)) =>
    match result with
    | .ok (value, cursor) => report (.number value) cursor
    | .error error => error
  match cursor.rest with
  | 'n' :: _ => word "ull" .null
  | 't' :: _ => word "rue" (.bool true)
  | 'f' :: _ => word "alse" (.bool false)
  | '-' :: _ => number (readNumber cursor.next true)
  | '"' :: _ =>
      match readString .plain cursor.next.position cursor.next.rest with
      | .ok (text, cursor) => report (.string text) cursor
      | .error error => error
  | '[' :: _ => report .sequence cursor
  | '\x7b' :: _ => report .map cursor
  | char :: _ =>
      if char.isDigit then number (readNumber cursor false)
      else cursor.faultAhead .expectedValue
  | [] => cursor.faultAhead .endInValue

/-- A string. -/
def readText (cursor : Cursor) : Except Error (Text × Cursor) :=
  let cursor := cursor.skipBlanks
  match cursor.rest with
  | '"' :: _ => readString .plain cursor.next.position cursor.next.rest
  | _ => .error (invalidType .string cursor)

/-- The strings of a list up to its end, which is left to be read. -/
def readTextElements : (fuel : Nat) → (isFirst : Bool) → Cursor → Except Error (List Text × Cursor)
  | 0, _, cursor => .error (cursor.fault .recursionLimit)
  | fuel + 1, isFirst, cursor => do
      match ← nextElement isFirst cursor with
      | none => pure ([], cursor)
      | some cursor =>
          let (element, cursor) ← readText cursor
          let (elements, cursor) ← readTextElements fuel false cursor
          pure (element :: elements, cursor)

/-- A list of strings. -/
def readTexts (depth : Nat) (cursor : Cursor) : Except Error (List Text × Cursor) := do
  let cursor := cursor.skipBlanks
  match cursor.rest with
  | '[' :: rest =>
      let (elements, cursor) ← readTextElements (rest.length + 1) true (← enter depth cursor)
      pure (elements, ← endOfList cursor)
  | _ => throw (invalidType .sequence cursor)

/-- An object with values of any shape. -/
def readObject (depth : Nat) (cursor : Cursor) : Except Error (Members Json × Cursor) := do
  let cursor := cursor.skipBlanks
  match cursor.rest with
  | '\x7b' :: rest =>
      let (members, cursor) ←
        readMembers (2 * rest.length + 2) (depth + 1) true [] (← enter depth cursor)
      pure (members, ← endOfObject cursor)
  | _ => throw (invalidType .map cursor)

/-- `null`, or a value of another shape. -/
def readOptional {α : Type} (read : Cursor → Except Error (α × Cursor)) (cursor : Cursor) :
    Except Error (Option α × Cursor) := do
  let cursor := cursor.skipBlanks
  match cursor.rest with
  | 'n' :: _ => pure (none, ← readWord cursor.next "ull".toList)
  | _ =>
      let (value, cursor) ← read cursor
      pure (some value, cursor)

end Json

end ImportResolution
