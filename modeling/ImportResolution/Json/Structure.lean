import ImportResolution.Json.Numbers
import ImportResolution.Json.Strings

/-!
# Words, lists and objects of a JSON text

Lists and objects are entered in the same way whatever their elements are read as,
so the readers of arrays, of objects and of typed documents share `endOfList`,
`endOfObject`, `nextElement` and `nextKey`.
-/

namespace ImportResolution

namespace Json

/-- The nesting at which values are refused. -/
def maxDepth : Nat := 128

/-- The rest of a word such as `true`, whose first letter has been read. -/
def readWord (cursor : Cursor) : (word : Text) → Except Error Cursor
  | [] => .ok cursor
  | expected :: word =>
      match cursor.rest with
      | [] => .error (cursor.fault .endInValue)
      | char :: _ =>
          if char = expected then readWord cursor.next word
          else .error (cursor.faultAhead .expectedIdent)

/-- After the elements that were asked for, the list must end. -/
def endOfList (cursor : Cursor) : Except Error Cursor :=
  let cursor := cursor.skipBlanks
  match cursor.rest with
  | [] => .error (cursor.faultAhead .endInList)
  | ']' :: _ => .ok cursor.next
  | ',' :: _ =>
      let cursor := cursor.next.skipBlanks
      .error (cursor.faultAhead
        (if cursor.rest.head? = some ']' then .trailingComma else .trailingCharacters))
  | _ => .error (cursor.faultAhead .trailingCharacters)

/-- After the members that were asked for, the object must end. -/
def endOfObject (cursor : Cursor) : Except Error Cursor :=
  let cursor := cursor.skipBlanks
  match cursor.rest with
  | [] => .error (cursor.faultAhead .endInObject)
  | '\x7d' :: _ => .ok cursor.next
  | ',' :: _ => .error (cursor.faultAhead .trailingComma)
  | _ => .error (cursor.faultAhead .trailingCharacters)

/-- The place of the next element of a list, if there is one. -/
def nextElement (isFirst : Bool) (cursor : Cursor) : Except Error (Option Cursor) :=
  let cursor := cursor.skipBlanks
  match cursor.rest with
  | [] => .error (cursor.faultAhead .endInList)
  | ']' :: _ => .ok none
  | char :: _ =>
      if isFirst then .ok (some cursor)
      else if char = ',' then
        let cursor := cursor.next.skipBlanks
        match cursor.rest with
        | [] => .error (cursor.faultAhead .endInValue)
        | ']' :: _ => .error (cursor.faultAhead .trailingComma)
        | _ => .ok (some cursor)
      else .error (cursor.faultAhead .expectedListEnd)

/-- The next key of an object, if there is one. -/
def nextKey (isFirst : Bool) (cursor : Cursor) : Except Error (Option (Text × Cursor)) :=
  let cursor := cursor.skipBlanks
  let key := fun (cursor : Cursor) =>
    (readString .plain cursor.next.position cursor.next.rest).map some
  match cursor.rest with
  | [] => .error (cursor.faultAhead .endInObject)
  | '\x7d' :: _ => .ok none
  | char :: _ =>
      if isFirst then
        if char = '"' then key cursor else .error (cursor.faultAhead .keyMustBeString)
      else if char = ',' then
        let cursor := cursor.next.skipBlanks
        match cursor.rest with
        | [] => .error (cursor.faultAhead .endInValue)
        | '"' :: _ => key cursor
        | '\x7d' :: _ => .error (cursor.faultAhead .trailingComma)
        | _ => .error (cursor.faultAhead .keyMustBeString)
      else .error (cursor.faultAhead .expectedObjectEnd)

/-- The cursor after the colon between a key and its value. -/
def colon (cursor : Cursor) : Except Error Cursor :=
  let cursor := cursor.skipBlanks
  match cursor.rest with
  | [] => .error (cursor.faultAhead .endInObject)
  | ':' :: _ => .ok cursor.next
  | _ => .error (cursor.faultAhead .expectedColon)

/-- A list or an object may be entered at this depth. -/
def enter (depth : Nat) (cursor : Cursor) : Except Error Cursor :=
  if depth + 1 ≥ maxDepth then .error (cursor.faultAhead .recursionLimit) else .ok cursor.next

end Json

end ImportResolution
