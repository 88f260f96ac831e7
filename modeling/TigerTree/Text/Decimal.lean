set_option autoImplicit false

/-!
Whole numbers in base ten.
-/

namespace TigerTree

/-- The digits of a number without leading zeros, after a minus sign if it is negative. -/
def decimal (number : Int) : List Char :=
  if number < 0 then '-' :: Nat.toDigits 10 number.natAbs else Nat.toDigits 10 number.natAbs

def decimalText (number : Int) : String := String.ofList (decimal number)

end TigerTree
