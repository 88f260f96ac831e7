import TigerTree.Evaluation.Error
import TigerTree.Expr
import TigerTree.Outline
import TigerTree.Text.Decimal

set_option autoImplicit false

/-!
The outlines of operators, trees and evaluation errors.

A node is its kind applied to the record of its fields, so a kind is written twice. Where a
record stands without a tag, it is written once.
-/

namespace TigerTree

def BinaryOp.outline : BinaryOp → Outline
  | other symbol => .apply "Other" (.quoted symbol)
  | op => .word op.word

namespace Outline

def optional {α : Type} (outline : α → Outline) : Option α → Outline
  | none => word "None"
  | some value => apply "Some" (outline value)

/-- A node of a kind with its fields. -/
def node (kind : NodeKind) (fields : List (String × Outline)) : Outline :=
  apply kind.name (record kind.name fields)

mutual

def ofExpr : Expr → Outline
  | .integerLiteral value => node .integerLiteral [("value", word (decimalText value.toInt))]
  | .stringLiteral value => node .stringLiteral [("value", quoted value)]
  | .binaryOperator op left right =>
      node .binaryOperator [("op", op.outline), ("left", ofExpr left), ("right", ofExpr right)]
  | .sequence exprs => node .sequence [("exprs", list (ofExprs exprs))]
  | .ifThenElse condition thenPart elsePart =>
      node .ifThenElse
        [("condition", ofExpr condition), ("then_part", ofExpr thenPart),
          ("else_part", ofExpr elsePart)]
  | .identifier name => node .identifier [("name", quoted name)]
  | .letIn decls body =>
      node .letIn
        [("decls", list (ofExprs decls)),
          ("body", record NodeKind.sequence.name [("exprs", list (ofExprs body))])]
  | .varDecl decl => apply NodeKind.varDecl.name (ofDecl decl)
  | .funDecl name params typeName body =>
      node .funDecl
        [("name", quoted name), ("params", list (ofDecls params)),
          ("type_name", optional quoted typeName), ("body", ofExpr body)]
  | .funCall name args => node .funCall [("name", quoted name), ("args", list (ofExprs args))]
  | .whileLoop condition body =>
      node .whileLoop [("condition", ofExpr condition), ("body", ofExpr body)]
  | .forLoop counter low high body =>
      node .forLoop
        [("variable", quoted counter), ("low", ofExpr low), ("high", ofExpr high),
          ("body", ofExpr body)]
  | .breakOut => apply NodeKind.breakOut.name (word NodeKind.breakOut.name)
  | .assign target value =>
      node .assign
        [("lhs", record NodeKind.identifier.name [("name", quoted target)]),
          ("rhs", ofExpr value)]

def ofExprs : List Expr → List Outline
  | [] => []
  | expr :: exprs => ofExpr expr :: ofExprs exprs

def ofInit : Option Expr → Outline
  | none => word "None"
  | some expr => apply "Some" (ofExpr expr)

def ofDecl : VarDecl Expr → Outline
  | ⟨name, typeName, init⟩ =>
      record NodeKind.varDecl.name
        [("name", quoted name), ("type_name", optional quoted typeName), ("init", ofInit init)]

def ofDecls : List (VarDecl Expr) → List Outline
  | [] => []
  | decl :: decls => ofDecl decl :: ofDecls decls

end

end Outline

def Expr.outline (expr : Expr) : Outline := Outline.ofExpr expr

def EvalError.outline : EvalError → Outline
  | divisionByZero => .word "DivisionByZero"
  | unknownOperator op => .record "UnknownOperator" [("op", op.outline)]
  | emptySequence => .word "EmptySequence"
  | unsupported kind => .record "Unsupported" [("kind", .word kind.name)]

end TigerTree
