set_option autoImplicit false

/-!
Magnitudes of binary floating-point numbers with 53 significant bits, in exact arithmetic.

`nearest` rounds a quotient of whole numbers to the closest such magnitude, a tie to the even
one. Multiplication and division round the exact result, and a result that is too large is `none`.
-/

namespace TigerTree

/-- The number `significand * 2 ^ exponent`. -/
structure Binary64 where
  significand : Nat
  exponent : Int

/-- A quotient rounded to the nearest whole number, a tie to the even one. -/
def roundDiv (numerator denominator : Nat) : Nat :=
  let quotient := numerator / denominator
  let twice := 2 * (numerator % denominator)
  if twice < denominator ∨ (twice = denominator ∧ quotient % 2 = 0) then quotient
  else quotient + 1

namespace Binary64

/-- The exponent of the smallest magnitudes, whose significands may be short. -/
def leastExponent : Int := -1074

/-- The exponent of the largest magnitudes. -/
def greatestExponent : Int := 971

/-- The power of two as a quotient. -/
def powerOfTwo (exponent : Int) : Nat × Nat :=
  (Nat.pow 2 exponent.toNat, Nat.pow 2 (-exponent).toNat)

/-- A quotient in units of a power of two, rounded. -/
def units (numerator denominator : Nat) (exponent : Int) : Nat :=
  let (times, parts) := powerOfTwo exponent
  roundDiv (numerator * parts) (denominator * times)

def limited (significand : Nat) (exponent : Int) : Option Binary64 :=
  if exponent ≤ greatestExponent then some ⟨significand, exponent⟩ else none

/-- The magnitude closest to a quotient. The first place value tried leaves 53 or 54 bits, and
rounding up to a power of two may cost another place. -/
def nearest (numerator denominator : Nat) : Option Binary64 :=
  let exponent := max leastExponent (numerator.log2 - denominator.log2 - 53 : Int)
  let significand := units numerator denominator exponent
  if significand < Nat.pow 2 53 then limited significand exponent
  else
    let significand := units numerator denominator (exponent + 1)
    if significand < Nat.pow 2 53 then limited significand (exponent + 1)
    else limited (Nat.pow 2 52) (exponent + 2)

def mul (left right : Binary64) : Option Binary64 :=
  let (times, parts) := powerOfTwo (left.exponent + right.exponent)
  nearest (left.significand * right.significand * times) parts

def div (left right : Binary64) : Option Binary64 :=
  let (times, parts) := powerOfTwo (left.exponent - right.exponent)
  nearest (left.significand * times) (right.significand * parts)

/-- The greatest exponent for which the magnitude closest to the power of ten exists. -/
def greatestPowerOfTen : Nat := 308

/-- A magnitude times a power of ten, rounded after each power that it is multiplied with or
divided by. A large negative exponent is worked off in steps. -/
def scaled (value : Binary64) (exponent : Int) : Option Binary64 :=
  if exponent.natAbs ≤ greatestPowerOfTen then do
    let power ← nearest (Nat.pow 10 exponent.natAbs) 1
    if 0 ≤ exponent then value.mul power else value.div power
  else if value.significand = 0 then some value
  else if 0 ≤ exponent then none
  else do
    let power ← nearest (Nat.pow 10 greatestPowerOfTen) 1
    let value ← value.div power
    value.scaled (exponent + greatestPowerOfTen)
termination_by exponent.natAbs
decreasing_by simp only [greatestPowerOfTen] at *; omega

end Binary64

end TigerTree
