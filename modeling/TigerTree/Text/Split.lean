set_option autoImplicit false

/-!
Cutting a text at a separator.
-/

namespace TigerTree

/-- The parts of a text between separators. There is always one part more than separators. -/
def splitAtEach (separator : Char) : List Char → List (List Char)
  | [] => [[]]
  | char :: rest =>
      if char = separator then [] :: splitAtEach separator rest
      else
        match splitAtEach separator rest with
        | [] => [[char]]
        | part :: parts => (char :: part) :: parts

end TigerTree
