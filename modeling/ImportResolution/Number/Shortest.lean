import ImportResolution.Number.Binary64
import ImportResolution.Text

/-!
# Shortest decimals

A double precision number is written with the fewest digits that read back as the
same number, and of those with the ones nearest to it. Numbers of moderate size are
written with a point, the others with an exponent that always carries its sign.
-/

namespace ImportResolution

namespace Binary64

/-- A number between the ends of its interval, as numerators over one denominator. -/
structure Interval where
  denominator : Nat
  low : Nat
  value : Nat
  high : Nat
  /-- Whether the ends themselves read back as the number. -/
  closed : Bool
  deriving DecidableEq, Repr

/-- The reals that round to a number. -/
def interval (number : Binary64) : Interval :=
  let (numerator, denominator) := scale 1 4 (-number.exponent)
  let below :=
    if number.significand = fullSignificand && number.exponent > minExponent then 1 else 2
  ⟨denominator,
    (4 * number.significand - below) * numerator,
    4 * number.significand * numerator,
    (4 * number.significand + 2) * numerator,
    number.significand % 2 == 0⟩

/-- Whether `digits * 10 ^ power` lies in an interval. -/
def Interval.contains (interval : Interval) (digits : Nat) (power : Int) : Bool :=
  let point := if power < 0 then digits * interval.denominator
    else digits * tenTo power.toNat * interval.denominator
  let stretch := if power < 0 then tenTo (-power).toNat else 1
  if interval.closed then interval.low * stretch ≤ point && point ≤ interval.high * stretch
  else interval.low * stretch < point && point < interval.high * stretch

/-- The decimal with a digit at `power` nearest to the number that reads back as it, if any does. -/
def decimalAt? (interval : Interval) (power : Int) : Option Nat :=
  let top := if power < 0 then interval.value * tenTo (-power).toNat else interval.value
  let bottom :=
    if power < 0 then interval.denominator else interval.denominator * tenTo power.toNat
  let floor := top / bottom
  let remainder := top % bottom
  let down := interval.contains floor power
  let up := interval.contains (floor + 1) power
  if down && up then some (roundHalfEven top bottom)
  else if down then some floor
  else if up && remainder > 0 then some (floor + 1)
  else none

/-- The first power, from `power` downwards, at which a decimal reads back, with its digits. -/
def searchDecimal (interval : Interval) : (fuel : Nat) → (power : Int) → Nat × Int
  | 0, power => (0, power)
  | fuel + 1, power =>
      match decimalAt? interval power with
      | some digits =>
          if digits = 0 then searchDecimal interval fuel (power - 1) else (digits, power)
      | none => searchDecimal interval fuel (power - 1)

/-- The fewest digits that read back as the number, and the power of ten of the last. -/
def shortest (number : Binary64) : Nat × Int :=
  if number.significand = 0 then (0, 0)
  else
    let start : Int := ((number.significand.log2 : Int) + number.exponent + 1) * 30103 / 100000 + 1
    searchDecimal number.interval 40 start

/-- Where a decimal point may stand without an exponent: up to this many digits before it. -/
def maxWholeDigits : Int := 16

/-- With fewer zeros than this between the point and the first digit no exponent is written. -/
def maxLeadingZeros : Int := 5

/-- An exponent with its sign. -/
def exponentText (exponent : Int) : Text :=
  (if exponent < 0 then '-' else '+') :: Text.ofNat exponent.natAbs

/-- The shortest decimal, with a point or an exponent. -/
def text (number : Binary64) : Text :=
  let (value, power) := number.shortest
  let digits := Text.ofNat value
  let count : Int := digits.length
  let whole := count + power
  if number.significand = 0 then "0.0".toList
  else if 0 ≤ power && whole ≤ maxWholeDigits then
    digits ++ List.replicate power.toNat '0' ++ ['.', '0']
  else if 0 < whole && whole ≤ maxWholeDigits then
    digits.take whole.toNat ++ '.' :: digits.drop whole.toNat
  else if -maxLeadingZeros < whole && whole ≤ 0 then
    '0' :: '.' :: List.replicate (-whole).toNat '0' ++ digits
  else
    digits.take 1 ++ (if digits.length = 1 then [] else '.' :: digits.drop 1) ++
      'e' :: exponentText (whole - 1)

end Binary64

end ImportResolution
