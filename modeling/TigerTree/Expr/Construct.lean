import TigerTree.Expr

set_option autoImplicit false

/-!
Building trees in code. A node built here never hides a known operator in `other`, and a
declaration built here carries no type.
-/

namespace TigerTree.Expr

def binary (op : BinaryOp) (left right : Expr) : Expr :=
  binaryOperator op.normalized left right

def variableDecl (name : String) (init : Expr) : Expr :=
  varDecl ⟨name, none, some init⟩

def functionDecl (name : String) (params : List (VarDecl Expr)) (body : Expr) : Expr :=
  funDecl name params none body

end TigerTree.Expr
