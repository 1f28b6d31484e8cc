/-!
# Decimal numbers

A number written with a point or an exponent is kept as it was written.  Where its value counts, it
is the nearest binary number with 53 significant bits, a tie going to the even one.
-/

namespace DeclOrder

/-- The number `mantissa * 10 ^ exponent`. -/
structure Decimal where
  mantissa : Int
  exponent : Int
  deriving DecidableEq, Repr

namespace Decimal

/-- A quotient rounded to the nearest integer, a tie going to the even one. -/
def roundDiv (numerator denominator : Nat) : Nat :=
  let quotient := numerator / denominator
  let rest := 2 * (numerator % denominator)
  if rest < denominator || (rest = denominator && quotient % 2 = 0) then quotient else quotient + 1

/-- Where the leading bit of a quotient of positive numbers stands, up to one place. -/
def leadingBit (numerator denominator : Nat) : Int :=
  (numerator.log2 : Int) - denominator.log2

/-- The nearest binary number, as an integer times a power of two.  Numbers too large for the
exponent range are not bounded here. -/
def toBinary (numerator denominator : Nat) : Nat × Int :=
  let guess := leadingBit numerator denominator - 53
  let scaled := fun shift : Int =>
    if 0 ≤ shift then roundDiv numerator (denominator * Nat.pow 2 shift.toNat)
    else roundDiv (numerator * Nat.pow 2 (-shift).toNat) denominator
  let fits := fun shift : Int =>
    if 0 ≤ shift then numerator < denominator * Nat.pow 2 shift.toNat * Nat.pow 2 53
    else numerator * Nat.pow 2 (-shift).toNat < denominator * Nat.pow 2 53
  let least := if fits guess then guess else if fits (guess + 1) then guess + 1 else guess + 2
  let shift := if least < -1074 then -1074 else least
  (scaled shift, shift)

inductive Rounded where
  | infinite
  | fractional
  | integer (value : Int)
  deriving DecidableEq, Repr

/-- The value of a decimal as the nearest binary number. -/
def rounded (decimal : Decimal) : Rounded :=
  let digits : Int := (Nat.toDigits 10 decimal.mantissa.natAbs).length
  if decimal.mantissa = 0 ∨ decimal.exponent + digits < -400 then .integer 0
  else if 400 < decimal.exponent + digits then .infinite
  else
    let size := decimal.mantissa.natAbs
    let (significand, shift) :=
      if 0 ≤ decimal.exponent then toBinary (size * Nat.pow 10 decimal.exponent.toNat) 1
      else toBinary size (Nat.pow 10 (-decimal.exponent).toNat)
    if 0 ≤ shift then
      if Nat.pow 2 1024 ≤ significand * Nat.pow 2 shift.toNat then .infinite
      else .integer (decimal.mantissa.sign * (significand * Nat.pow 2 shift.toNat : Nat))
    else if significand % Nat.pow 2 (-shift).toNat = 0 then
      .integer (decimal.mantissa.sign * (significand / Nat.pow 2 (-shift).toNat : Nat))
    else .fractional

end Decimal

end DeclOrder
