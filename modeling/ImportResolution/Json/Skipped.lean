import ImportResolution.Json.Structure

/-!
# Skipping JSON values

Values that nobody asks for are skipped: their nesting is not limited, their
numbers may have any size and their surrogates need not be paired.
-/

namespace ImportResolution

namespace Json

/-- A list or an object that is being skipped. -/
inductive Enclosing
  | list
  | object
  deriving DecidableEq, Repr

/-- The key of a skipped member, with its colon. -/
def skipKey (cursor : Cursor) : Except Error Cursor := do
  let cursor := cursor.skipBlanks
  match cursor.rest with
  | [] => throw (cursor.faultAhead .endInObject)
  | '"' :: _ => colon (← skipString .plain cursor.next.position cursor.next.rest)
  | _ => throw (cursor.faultAhead .keyMustBeString)

/-- A value without parts, or the list or object that begins. -/
def skipHead (cursor : Cursor) : Except Error (Option Enclosing × Cursor) := do
  let cursor := cursor.skipBlanks
  match cursor.rest with
  | [] => throw (cursor.faultAhead .endInValue)
  | 'n' :: _ => pure (none, ← readWord cursor.next "ull".toList)
  | 't' :: _ => pure (none, ← readWord cursor.next "rue".toList)
  | 'f' :: _ => pure (none, ← readWord cursor.next "alse".toList)
  | '"' :: _ => pure (none, ← skipString .plain cursor.next.position cursor.next.rest)
  | '-' :: _ => pure (none, ← skipNumber cursor.next)
  | '[' :: _ => pure (some .list, cursor.next)
  | '\x7b' :: _ => pure (some .object, cursor.next)
  | char :: _ =>
      if char.isDigit then pure (none, ← skipNumber cursor)
      else throw (cursor.faultAhead .expectedValue)

/--
The place of the next value inside the lists and objects that are open, the
innermost first, or the end of them all. `isFirst` says that the innermost has just
been opened.
-/
def skipEnds : (fuel : Nat) → (isFirst : Bool) → List Enclosing → Cursor →
    Except Error (List Enclosing × Cursor)
  | 0, _, _, cursor => .error (cursor.fault .recursionLimit)
  | _ + 1, _, [], cursor => .ok ([], cursor)
  | fuel + 1, isFirst, innermost :: outer, cursor =>
      let cursor := cursor.skipBlanks
      match innermost, cursor.rest with
      | .list, [] => .error (cursor.faultAhead .endInList)
      | .object, [] => .error (cursor.faultAhead .endInObject)
      | .list, ']' :: _ => skipEnds fuel false outer cursor.next
      | .object, '\x7d' :: _ => skipEnds fuel false outer cursor.next
      | innermost, char :: _ =>
          if isFirst then .ok (innermost :: outer, cursor)
          else if char = ',' then .ok (innermost :: outer, cursor.next)
          else
            match innermost with
            | .list => .error (cursor.faultAhead .expectedListEnd)
            | .object => .error (cursor.faultAhead .expectedObjectEnd)

/-- The cursor after a value, inside the lists and objects that are open. -/
def skipValues : (fuel : Nat) → List Enclosing → Cursor → Except Error Cursor
  | 0, _, cursor => .error (cursor.fault .recursionLimit)
  | fuel + 1, enclosing, cursor => do
      let (begun, cursor) ← skipHead cursor
      let (enclosing, cursor) ←
        skipEnds (fuel + 1) begun.isSome (begun.toList ++ enclosing) cursor
      match enclosing with
      | [] => pure cursor
      | .list :: _ => skipValues fuel enclosing cursor
      | .object :: _ => skipValues fuel enclosing (← skipKey cursor)

/-- The cursor after a value of any shape. -/
def skipValue (cursor : Cursor) : Except Error Cursor :=
  skipValues (cursor.rest.length + 2) [] cursor

end Json

end ImportResolution
