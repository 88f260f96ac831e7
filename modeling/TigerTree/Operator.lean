set_option autoImplicit false

/-!
Binary operators and the symbols they are written with.

Ten operators have a meaning. Every other symbol is kept word for word as `other`, so a tree
that uses one can still be read, printed and compared. `other` may also hold one of the ten
symbols; such an operator is not in normal form, and `normalized` repairs it.
-/

namespace TigerTree

inductive BinaryOp where
  | add | sub | mul | div
  | eq | ne | lt | le | gt | ge
  | other (symbol : String)
  deriving DecidableEq

namespace BinaryOp

def symbol : BinaryOp → String
  | add => "+"
  | sub => "-"
  | mul => "*"
  | div => "/"
  | eq => "="
  | ne => "<>"
  | lt => "<"
  | le => "<="
  | gt => ">"
  | ge => ">="
  | other symbol => symbol

/-- The operators that have a meaning, arithmetic before comparisons. -/
def known : List BinaryOp := [add, sub, mul, div, eq, ne, lt, le, gt, ge]

/-- The operator that a symbol stands for. The match is exact: blanks are part of the symbol. -/
def ofSymbol (symbol : String) : BinaryOp :=
  (known.find? fun op => op.symbol == symbol).getD (other symbol)

def normalized : BinaryOp → BinaryOp
  | other symbol => ofSymbol symbol
  | op => op

/-- Whether the operator yields a truth value, 1 or 0. -/
def isComparison : BinaryOp → Bool
  | eq | ne | lt | le | gt | ge => true
  | _ => false

/-- The name of an operator's constructor, the symbol of `other` left aside. -/
def word : BinaryOp → String
  | add => "Add"
  | sub => "Sub"
  | mul => "Mul"
  | div => "Div"
  | eq => "Eq"
  | ne => "Ne"
  | lt => "Lt"
  | le => "Le"
  | gt => "Gt"
  | ge => "Ge"
  | other _ => "Other"

end BinaryOp

end TigerTree
