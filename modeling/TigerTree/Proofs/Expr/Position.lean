import TigerTree.Expr

set_option autoImplicit false

/-!
Positions in trees.

An edge leads from a node to a tree among its parts, also through a declaration, a bare sequence or
a list. A position is a path of edges from the root. What stands at a position can be replaced; a
path that leads nowhere changes nothing.
-/

namespace TigerTree

inductive Edge where
  | left | right
  | element (index : Nat)
  | condition | thenPart | elsePart
  | declaration (index : Nat)
  | bodyElement (index : Nat)
  | init
  | param (index : Nat)
  | body
  | arg (index : Nat)
  | low | high
  | value
  deriving DecidableEq

def VarDecl.mapInit {Tree : Type} (f : Tree → Tree) (decl : VarDecl Tree) : VarDecl Tree :=
  { decl with init := decl.init.map f }

namespace Expr

/-- The tree that an edge leads to. -/
def child? : Edge → Expr → Option Expr
  | .left, binaryOperator _ left _ => some left
  | .right, binaryOperator _ _ right => some right
  | .element index, sequence exprs => exprs[index]?
  | .condition, ifThenElse condition _ _ => some condition
  | .thenPart, ifThenElse _ thenPart _ => some thenPart
  | .elsePart, ifThenElse _ _ elsePart => some elsePart
  | .declaration index, letIn decls _ => decls[index]?
  | .bodyElement index, letIn _ body => body[index]?
  | .init, varDecl decl => decl.init
  | .param index, funDecl _ params _ _ => params[index]?.bind VarDecl.init
  | .body, funDecl _ _ _ body => some body
  | .arg index, funCall _ args => args[index]?
  | .condition, whileLoop condition _ => some condition
  | .body, whileLoop _ body => some body
  | .low, forLoop _ low _ _ => some low
  | .high, forLoop _ _ high _ => some high
  | .body, forLoop _ _ _ body => some body
  | .value, assign _ value => some value
  | _, _ => none

/-- The node with another tree where an edge leads. -/
def modifyChild (f : Expr → Expr) : Edge → Expr → Expr
  | .left, binaryOperator op left right => binaryOperator op (f left) right
  | .right, binaryOperator op left right => binaryOperator op left (f right)
  | .element index, sequence exprs => sequence (exprs.modify index f)
  | .condition, ifThenElse condition thenPart elsePart =>
      ifThenElse (f condition) thenPart elsePart
  | .thenPart, ifThenElse condition thenPart elsePart =>
      ifThenElse condition (f thenPart) elsePart
  | .elsePart, ifThenElse condition thenPart elsePart =>
      ifThenElse condition thenPart (f elsePart)
  | .declaration index, letIn decls body => letIn (decls.modify index f) body
  | .bodyElement index, letIn decls body => letIn decls (body.modify index f)
  | .init, varDecl decl => varDecl (decl.mapInit f)
  | .param index, funDecl name params typeName body =>
      funDecl name (params.modify index (VarDecl.mapInit f)) typeName body
  | .body, funDecl name params typeName body => funDecl name params typeName (f body)
  | .arg index, funCall name args => funCall name (args.modify index f)
  | .condition, whileLoop condition body => whileLoop (f condition) body
  | .body, whileLoop condition body => whileLoop condition (f body)
  | .low, forLoop counter low high body => forLoop counter (f low) high body
  | .high, forLoop counter low high body => forLoop counter low (f high) body
  | .body, forLoop counter low high body => forLoop counter low high (f body)
  | .value, assign target value => assign target (f value)
  | _, expr => expr

/-- The tree at a position. -/
def at? : Expr → List Edge → Option Expr
  | expr, [] => some expr
  | expr, edge :: path => (expr.child? edge).bind fun child => child.at? path

/-- The tree with another one at a position. -/
def replaceAt : Expr → List Edge → Expr → Expr
  | _, [], replacement => replacement
  | expr, edge :: path, replacement =>
      expr.modifyChild (fun child => child.replaceAt path replacement) edge

theorem kind_modifyChild (f : Expr → Expr) (edge : Edge) (expr : Expr) :
    (expr.modifyChild f edge).kind = expr.kind := by
  unfold modifyChild
  split <;> rfl

end Expr

end TigerTree
