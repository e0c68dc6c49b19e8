/-!
# Double precision numbers

A number that is not negative in the binary format of 64 bits: a significand below
2^53 times a power of two. Arithmetic is exact on fractions and rounds once, to the
nearest such number, a tie to the one with an even significand.
-/

namespace ImportResolution

/-- The number `significand * 2 ^ exponent`. -/
structure Binary64 where
  significand : Nat
  exponent : Int
  deriving DecidableEq, Repr

namespace Binary64

/-- The exponent of the smallest numbers. -/
def minExponent : Int := -1074

/-- The exponent of the largest numbers. -/
def maxExponent : Int := 971

/-- The least significand of full length. -/
def fullSignificand : Nat := 0x10000000000000

/-- A power of two. -/
def powerOfTwo (power : Nat) : Nat := Nat.pow 2 power

/-- A power of ten, exactly. -/
def tenTo (power : Nat) : Nat := Nat.pow 10 power

/-- The number zero. -/
def zero : Binary64 := ⟨0, minExponent⟩

/-- A fraction times `2 ^ (-exponent)`, as a fraction. -/
def scale (numerator denominator : Nat) (exponent : Int) : Nat × Nat :=
  if exponent < 0 then (numerator * powerOfTwo (-exponent).toNat, denominator)
  else (numerator, denominator * powerOfTwo exponent.toNat)

/-- The integer nearest to a fraction, a tie going to the even one. -/
def roundHalfEven (numerator denominator : Nat) : Nat :=
  let quotient := numerator / denominator
  let twice := 2 * (numerator % denominator)
  if twice > denominator || (twice == denominator && quotient % 2 == 1) then quotient + 1
  else quotient

/-- The exponent at which a fraction has a significand of full length, or the least one. -/
def exponentOf (numerator denominator : Nat) : Int :=
  let estimate : Int := (numerator.log2 : Int) - denominator.log2 - 52
  let (top, bottom) := scale numerator denominator estimate
  let exponent := if top < bottom * fullSignificand then estimate - 1 else estimate
  if exponent < minExponent then minExponent else exponent

/-- The number nearest to a fraction; none when it would be too large. -/
def ofFraction? (numerator denominator : Nat) : Option Binary64 :=
  if numerator = 0 then some zero
  else
    let exponent := exponentOf numerator denominator
    let (top, bottom) := scale numerator denominator exponent
    let significand := roundHalfEven top bottom
    let rounded : Binary64 :=
      if significand = 2 * fullSignificand then ⟨fullSignificand, exponent + 1⟩
      else ⟨significand, exponent⟩
    if rounded.exponent > maxExponent then none else some rounded

/-- The number as a fraction. -/
def fraction (number : Binary64) : Nat × Nat :=
  scale number.significand 1 (-number.exponent)

/-- The product of two numbers, rounded. -/
def mul? (left right : Binary64) : Option Binary64 :=
  ofFraction? (left.fraction.1 * right.fraction.1) (left.fraction.2 * right.fraction.2)

/-- The quotient of two numbers, rounded. -/
def div? (left right : Binary64) : Option Binary64 :=
  ofFraction? (left.fraction.1 * right.fraction.2) (left.fraction.2 * right.fraction.1)

/-- A power of ten, rounded. -/
def powerOfTen? (power : Nat) : Option Binary64 :=
  ofFraction? (tenTo power) 1

/-- The largest power of ten that is in range. -/
def maxPowerOfTen : Nat := 308

/--
`number` times a power of ten below one, in steps of at most 308 places, each of
which rounds; after `fuel` steps nothing but zero can remain.
-/
def shiftDown : (fuel : Nat) → (places : Nat) → Binary64 → Option Binary64
  | 0, _, _ => some zero
  | fuel + 1, places, number =>
      if places ≤ maxPowerOfTen then do number.div? (← powerOfTen? places)
      else if number.significand = 0 then some number
      else do
        shiftDown fuel (places - maxPowerOfTen) (← number.div? (← powerOfTen? maxPowerOfTen))

/--
A decimal number by one rounding of its digits and then one for its power of ten;
none when it would be too large.
-/
def ofDecimal? (digits : Nat) (power : Int) : Option Binary64 := do
  let number ← ofFraction? digits 1
  if power < 0 then shiftDown 4 (-power).toNat number
  else if power ≤ maxPowerOfTen then number.mul? (← powerOfTen? power.toNat)
  else if number.significand = 0 then pure number
  else none

end Binary64

end ImportResolution
