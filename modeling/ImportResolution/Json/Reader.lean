import ImportResolution.Json.Structure

/-!
# Reading JSON values

Values are read from left to right and the first fault ends the reading.
-/

namespace ImportResolution

namespace Json

mutual

/-- The value at a cursor, `depth` lists and objects below the top. -/
def readValue : (fuel : Nat) → (depth : Nat) → Cursor → Except Error (Json × Cursor)
  | 0, _, cursor => .error (cursor.fault .recursionLimit)
  | fuel + 1, depth, cursor => do
      let cursor := cursor.skipBlanks
      match cursor.rest with
      | [] => throw (cursor.faultAhead .endInValue)
      | 'n' :: _ => pure (.null, ← readWord cursor.next "ull".toList)
      | 't' :: _ => pure (.bool true, ← readWord cursor.next "rue".toList)
      | 'f' :: _ => pure (.bool false, ← readWord cursor.next "alse".toList)
      | '"' :: _ =>
          let (text, cursor) ← readString .plain cursor.next.position cursor.next.rest
          pure (.string text, cursor)
      | '[' :: _ =>
          let (elements, cursor) ← readElements fuel (depth + 1) true (← enter depth cursor)
          pure (.array elements, ← endOfList cursor)
      | '\x7b' :: _ =>
          let (members, cursor) ← readMembers fuel (depth + 1) true [] (← enter depth cursor)
          pure (.object members, ← endOfObject cursor)
      | '-' :: _ =>
          let (value, cursor) ← readNumber cursor.next true
          pure (.number value, cursor)
      | char :: _ =>
          if char.isDigit then
            let (value, cursor) ← readNumber cursor false
            pure (.number value, cursor)
          else throw (cursor.faultAhead .expectedValue)

/-- The elements of a list up to its end, which is left to be read. -/
def readElements : (fuel : Nat) → (depth : Nat) → (isFirst : Bool) → Cursor →
    Except Error (List Json × Cursor)
  | 0, _, _, cursor => .error (cursor.fault .recursionLimit)
  | fuel + 1, depth, isFirst, cursor => do
      match ← nextElement isFirst cursor with
      | none => pure ([], cursor)
      | some cursor =>
          let (element, cursor) ← readValue fuel depth cursor
          let (elements, cursor) ← readElements fuel depth false cursor
          pure (element :: elements, cursor)

/-- The members of an object up to its end, put to those read so far. -/
def readMembers : (fuel : Nat) → (depth : Nat) → (isFirst : Bool) → Members Json → Cursor →
    Except Error (Members Json × Cursor)
  | 0, _, _, _, cursor => .error (cursor.fault .recursionLimit)
  | fuel + 1, depth, isFirst, members, cursor => do
      match ← nextKey isFirst cursor with
      | none => pure (members, cursor)
      | some (key, cursor) =>
          let (value, cursor) ← readValue fuel depth (← colon cursor)
          readMembers fuel depth false (members.insert key value) cursor

end

/-- Nothing but blanks may follow a whole value. -/
def endOfText (cursor : Cursor) : Except Error Unit :=
  let cursor := cursor.skipBlanks
  if cursor.rest.isEmpty then .ok () else .error (cursor.faultAhead .trailingCharacters)

/-- The value that a text denotes. -/
def parse (text : Text) : Except Error Json := do
  let (value, cursor) ← readValue (2 * text.length + 2) 0 (.start text)
  endOfText cursor
  pure value

end Json

end ImportResolution
