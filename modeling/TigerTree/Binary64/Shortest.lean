import TigerTree.Binary64

set_option autoImplicit false

/-!
The shortest decimal that reads back as a magnitude, and how it is written.

A decimal reads back if it lies between the midpoints to the neighbouring magnitudes, a midpoint
itself counting when the significand is even. With a given number of digits only the two decimals
around the magnitude need to be tried; the first number of digits that has a hit wins, and of two
hits the nearer.
-/

namespace TigerTree.Binary64

/-- A decimal `digits * 10 ^ exponent`. -/
structure Decimal where
  digits : Nat
  exponent : Int

/-- The exponent of ten of the leading digit of a quotient. -/
def leadingExponent (numerator denominator : Nat) : Int :=
  if denominator ≤ numerator then (Nat.toDigits 10 (numerator / denominator)).length - 1
  else -(Nat.toDigits 10 ((denominator - 1) / numerator)).length

/-- A magnitude and the midpoints to its neighbours over one denominator. -/
structure Interval where
  low : Nat
  value : Nat
  high : Nat
  denominator : Nat
  closed : Bool

def interval (magnitude : Binary64) : Interval :=
  let (times, parts) := powerOfTwo (magnitude.exponent - 2)
  let significand := magnitude.significand
  let gap := if significand = Nat.pow 2 52 ∧ leastExponent < magnitude.exponent then 1 else 2
  { low := (4 * significand - gap) * times
    value := 4 * significand * times
    high := (4 * significand + 2) * times
    denominator := parts
    closed := significand % 2 = 0 }

/-- Whether a decimal, given as a quotient, reads back. -/
def Interval.holds (range : Interval) (numerator denominator : Nat) : Bool :=
  let point := numerator * range.denominator
  let low := range.low * denominator
  let high := range.high * denominator
  if range.closed then low ≤ point && point ≤ high else low < point && point < high

/-- The best decimal in units of a power of ten that reads back, if there is one. -/
def candidate (range : Interval) (exponent : Int) : Option Decimal :=
  let times := Nat.pow 10 exponent.toNat
  let parts := Nat.pow 10 (-exponent).toNat
  let value := range.value * parts
  let unit := range.denominator * times
  let below := value / unit
  let remainder := value % unit
  let holds (digits : Nat) : Bool := range.holds (digits * times) parts
  let belowFirst : Bool :=
    2 * remainder < unit || (2 * remainder == unit && below % 2 == 0)
  if holds below && (belowFirst || !holds (below + 1)) then some ⟨below, exponent⟩
  else if holds (below + 1) then some ⟨below + 1, exponent⟩
  else none

/-- Seventeen digits always read back. -/
def greatestDigits : Nat := 17

def shortest (magnitude : Binary64) : Decimal :=
  let range := magnitude.interval
  let leading := leadingExponent range.value range.denominator
  ((List.range greatestDigits).findSome? fun (place : Nat) =>
    candidate range (leading - place)).getD ⟨0, 0⟩

/-- Which exponents of the leading digit are written without an exponent. -/
def isPositional (leading : Int) : Bool := -5 ≤ leading && leading ≤ 15

/-- Decimal text with at least one digit after the point, or with a signed exponent. -/
def write (magnitude : Binary64) : List Char :=
  if magnitude.significand = 0 then ['0', '.', '0']
  else
    let decimal := magnitude.shortest
    let all := Nat.toDigits 10 decimal.digits
    let leading := decimal.exponent + all.length - 1
    let digits := (all.reverse.dropWhile (· == '0')).reverse
    if !isPositional leading then
      let fraction := digits.drop 1
      digits.take 1 ++ (if fraction.isEmpty then [] else '.' :: fraction) ++
        'e' :: (if leading < 0 then '-' else '+') :: Nat.toDigits 10 leading.natAbs
    else if leading < 0 then
      '0' :: '.' :: (List.replicate (leading.natAbs - 1) '0' ++ digits)
    else
      let whole := leading.toNat + 1
      let fraction := digits.drop whole
      digits.take whole ++ List.replicate (whole - digits.length) '0' ++
        '.' :: (if fraction.isEmpty then ['0'] else fraction)

end TigerTree.Binary64
