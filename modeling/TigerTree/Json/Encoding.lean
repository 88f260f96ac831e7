import TigerTree.Expr
import TigerTree.Json

set_option autoImplicit false

/-!
Trees as JSON.

A node is an object with one member, named for its kind, that holds the fields of the node.
Declarations among the parameters of a function, the body of a `let` and the target of an
assignment stand there without such a tag. No field is left out, and an operator is its symbol.
-/

namespace TigerTree

namespace Json

def ofOptionalText : Option String → Json
  | none => null
  | some value => text value

/-- A node of a kind with its fields. -/
def node (kind : NodeKind) (fields : List (String × Json)) : Json :=
  object [(kind.name, object fields)]

mutual

def ofExpr : Expr → Json
  | .integerLiteral value => node .integerLiteral [("value", number value.toInt)]
  | .stringLiteral value => node .stringLiteral [("value", text value)]
  | .binaryOperator op left right =>
      node .binaryOperator
        [("op", text op.symbol), ("left", ofExpr left), ("right", ofExpr right)]
  | .sequence exprs => node .sequence [("exprs", array (ofExprs exprs))]
  | .ifThenElse condition thenPart elsePart =>
      node .ifThenElse
        [("condition", ofExpr condition), ("then_part", ofExpr thenPart),
          ("else_part", ofExpr elsePart)]
  | .identifier name => node .identifier [("name", text name)]
  | .letIn decls body =>
      node .letIn
        [("decls", array (ofExprs decls)), ("body", object [("exprs", array (ofExprs body))])]
  | .varDecl decl => object [(NodeKind.varDecl.name, ofDecl decl)]
  | .funDecl name params typeName body =>
      node .funDecl
        [("name", text name), ("params", array (ofDecls params)),
          ("type_name", ofOptionalText typeName), ("body", ofExpr body)]
  | .funCall name args => node .funCall [("name", text name), ("args", array (ofExprs args))]
  | .whileLoop condition body =>
      node .whileLoop [("condition", ofExpr condition), ("body", ofExpr body)]
  | .forLoop counter low high body =>
      node .forLoop
        [("variable", text counter), ("low", ofExpr low), ("high", ofExpr high),
          ("body", ofExpr body)]
  | .breakOut => object [(NodeKind.breakOut.name, null)]
  | .assign target value =>
      node .assign [("lhs", object [("name", text target)]), ("rhs", ofExpr value)]

def ofExprs : List Expr → List Json
  | [] => []
  | expr :: exprs => ofExpr expr :: ofExprs exprs

def ofInit : Option Expr → Json
  | none => null
  | some expr => ofExpr expr

def ofDecl : VarDecl Expr → Json
  | ⟨name, typeName, init⟩ =>
      object [("name", text name), ("type_name", ofOptionalText typeName), ("init", ofInit init)]

def ofDecls : List (VarDecl Expr) → List Json
  | [] => []
  | decl :: decls => ofDecl decl :: ofDecls decls

end

end Json

/-- The compact JSON text of a tree. -/
def Expr.encode (expr : Expr) : String := (Json.ofExpr expr).compact

end TigerTree
