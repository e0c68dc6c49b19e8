import ImportResolution.Json.Error

/-!
# Reading JSON numbers

An integer is kept exactly while it fits 64 bits. Any other number is read as a
significand of at most 64 bits, later digits ignored, times a power of ten.
-/

namespace ImportResolution

namespace Json

/-- The largest integer that is kept exactly. -/
def maxNatural : Nat := 0xFFFFFFFFFFFFFFFF

/-- The largest exponent that is read. -/
def maxExponent : Nat := 0x7FFFFFFF

/-- Digits appended to a significand as long as it fits 64 bits, with the digits that do not. -/
def appendDigits : (significand : Nat) → Text → Nat × Text
  | significand, [] => (significand, [])
  | significand, digit :: digits =>
      if significand * 10 + (digit.toNat - 48) > maxNatural then (significand, digit :: digits)
      else appendDigits (significand * 10 + (digit.toNat - 48)) digits

/-- The number with a significand and a power of ten. -/
def realNumber (cursor : Cursor) (isNegative : Bool) (significand : Nat) (power : Int) :
    Except Error (Number × Cursor) :=
  match Binary64.ofDecimal? significand power with
  | some magnitude => .ok (.real isNegative magnitude, cursor)
  | none => .error (cursor.fault .numberOutOfRange)

/-- How many of the digits can be read before the exponent gets too large. -/
def exponentPrefix : (value : Nat) → Text → Nat × Text × Text
  | value, [] => (value, [], [])
  | value, digit :: digits =>
      if value * 10 + (digit.toNat - 48) > maxExponent then (value, [digit], digits)
      else exponentPrefix (value * 10 + (digit.toNat - 48)) digits

/-- The exponent of a number, after its letter. -/
def readExponent (cursor : Cursor) (isNegative : Bool) (significand : Nat) (power : Int) :
    Except Error (Number × Cursor) :=
  let (downwards, cursor) :=
    match cursor.rest with
    | '+' :: _ => (false, cursor.next)
    | '-' :: _ => (true, cursor.next)
    | _ => (false, cursor)
  match cursor.rest with
  | [] => .error (cursor.fault .endInValue)
  | char :: _ =>
      if char.isDigit then
        let digits := cursor.rest.takeWhile Char.isDigit
        let (value, overflow, later) := exponentPrefix 0 digits
        if overflow.isEmpty then
          realNumber cursor.skipDigits isNegative significand
            (if downwards then power - value else power + value)
        else if significand ≠ 0 && !downwards then
          .error ⟨.numberOutOfRange,
            cursor.position.afterBytes (digits.length - later.length) digits⟩
        else .ok (.real isNegative .zero, cursor.skipDigits)
      else .error (cursor.faultAhead .invalidNumber)

/-- The digits after a point, and the exponent. -/
def readFraction (cursor : Cursor) (isNegative : Bool) (significand : Nat) (power : Int) :
    Except Error (Number × Cursor) :=
  let digits := cursor.rest.takeWhile Char.isDigit
  let (significand, dropped) := appendDigits significand digits
  let power := power - (digits.length - dropped.length : Nat)
  let after := cursor.skipDigits
  if digits.isEmpty then
    .error (if cursor.rest.isEmpty then cursor.fault .endInValue
      else cursor.faultAhead .invalidNumber)
  else
    match after.rest with
    | 'e' :: _ | 'E' :: _ => readExponent after.next isNegative significand power
    | _ => realNumber after isNegative significand power

/-- A number whose sign has been read. -/
def readNumber (cursor : Cursor) (isNegative : Bool) : Except Error (Number × Cursor) :=
  match cursor.rest with
  | [] => .error (cursor.fault .endInValue)
  | char :: rest =>
      if !char.isDigit then .error (cursor.faultAhead .invalidNumber)
      else if char = '0' && (rest.head?.any Char.isDigit) then
        .error (cursor.next.faultAhead .invalidNumber)
      else
        let (significand, dropped) := appendDigits 0 (cursor.rest.takeWhile Char.isDigit)
        let after := cursor.skipDigits
        match after.rest with
        | '.' :: _ => readFraction after.next isNegative significand dropped.length
        | 'e' :: _ | 'E' :: _ => readExponent after.next isNegative significand dropped.length
        | _ =>
            if !dropped.isEmpty then realNumber after isNegative significand dropped.length
            else if !isNegative then .ok (.natural significand, after)
            else if significand = 0 || significand > 0x8000000000000000 then
              realNumber after true significand 0
            else .ok (.negative significand, after)

/-- The cursor after the exponent of a number, after its letter. -/
def skipExponent (cursor : Cursor) : Except Error Cursor :=
  let cursor :=
    match cursor.rest with
    | '+' :: _ | '-' :: _ => cursor.next
    | _ => cursor
  if cursor.rest.head?.any Char.isDigit then .ok cursor.skipDigits
  else .error (cursor.faultAhead .invalidNumber)

/-- The cursor after a number whose sign has been read, whatever its size. -/
def skipNumber (cursor : Cursor) : Except Error Cursor :=
  match cursor.rest with
  | [] => .error (cursor.fault .invalidNumber)
  | char :: rest =>
      if !char.isDigit then .error (cursor.faultAhead .invalidNumber)
      else if char = '0' && (rest.head?.any Char.isDigit) then
        .error (cursor.next.faultAhead .invalidNumber)
      else
        let after := cursor.skipDigits
        match after.rest with
        | '.' :: _ =>
            let fraction := after.next
            if fraction.rest.head?.any Char.isDigit then
              let after := fraction.skipDigits
              match after.rest with
              | 'e' :: _ | 'E' :: _ => skipExponent after.next
              | _ => .ok after
            else .error (fraction.faultAhead .invalidNumber)
        | 'e' :: _ | 'E' :: _ => skipExponent after.next
        | _ => .ok after

end Json

end ImportResolution
