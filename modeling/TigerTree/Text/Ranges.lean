set_option autoImplicit false

/-!
Sets of characters given by ranges of code points.
-/

namespace TigerTree

/-- Whether a code point lies in one of the ranges, each given by its first and last member. -/
def inRanges (ranges : List (Nat × Nat)) (point : Nat) : Bool :=
  ranges.any fun (first, last) => first ≤ point && point ≤ last

end TigerTree
