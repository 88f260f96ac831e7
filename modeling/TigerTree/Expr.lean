import TigerTree.Kind
import TigerTree.Operator

set_option autoImplicit false

/-!
Expression trees.

A tree has fourteen kinds of nodes. Declarations appear twice: as nodes of their own and, without
a tag, as the parameters of a function, so their three parts form a structure. The body of a `let`
and the left side of an assignment are bare as well, and are kept as their contents.
-/

namespace TigerTree

/-- A variable with an optional type and an optional initial value. -/
structure VarDecl (Tree : Type) where
  name : String
  typeName : Option String
  init : Option Tree

inductive Expr where
  | integerLiteral (value : Int32)
  | stringLiteral (value : String)
  | binaryOperator (op : BinaryOp) (left right : Expr)
  | sequence (exprs : List Expr)
  | ifThenElse (condition thenPart elsePart : Expr)
  | identifier (name : String)
  | letIn (decls body : List Expr)
  | varDecl (decl : VarDecl Expr)
  | funDecl (name : String) (params : List (VarDecl Expr)) (typeName : Option String) (body : Expr)
  | funCall (name : String) (args : List Expr)
  | whileLoop (condition body : Expr)
  | forLoop (counter : String) (low high body : Expr)
  | breakOut
  | assign (target : String) (value : Expr)

namespace Expr

def kind : Expr → NodeKind
  | integerLiteral .. => .integerLiteral
  | stringLiteral .. => .stringLiteral
  | binaryOperator .. => .binaryOperator
  | sequence .. => .sequence
  | ifThenElse .. => .ifThenElse
  | identifier .. => .identifier
  | letIn .. => .letIn
  | varDecl .. => .varDecl
  | funDecl .. => .funDecl
  | funCall .. => .funCall
  | whileLoop .. => .whileLoop
  | forLoop .. => .forLoop
  | breakOut => .breakOut
  | assign .. => .assign

mutual

/-- The number of nodes, an untagged declaration not counted. -/
def size : Expr → Nat
  | binaryOperator _ left right => left.size + right.size + 1
  | sequence exprs => sizeAll exprs + 1
  | ifThenElse condition thenPart elsePart => condition.size + thenPart.size + elsePart.size + 1
  | letIn decls body => sizeAll decls + sizeAll body + 1
  | varDecl decl => sizeDecl decl + 1
  | funDecl _ params _ body => sizeDecls params + body.size + 1
  | funCall _ args => sizeAll args + 1
  | whileLoop condition body => condition.size + body.size + 1
  | forLoop _ low high body => low.size + high.size + body.size + 1
  | assign _ value => value.size + 1
  | integerLiteral _ | stringLiteral _ | identifier _ | breakOut => 1

def sizeAll : List Expr → Nat
  | [] => 0
  | expr :: exprs => expr.size + sizeAll exprs

def sizeInit : Option Expr → Nat
  | none => 0
  | some expr => expr.size

def sizeDecl : VarDecl Expr → Nat
  | ⟨_, _, init⟩ => sizeInit init

def sizeDecls : List (VarDecl Expr) → Nat
  | [] => 0
  | decl :: decls => sizeDecl decl + sizeDecls decls

end

mutual

/-- The tree with every operator in it, also those that evaluation never reaches, in normal form. -/
def normalized : Expr → Expr
  | binaryOperator op left right => binaryOperator op.normalized left.normalized right.normalized
  | sequence exprs => sequence (normalizedAll exprs)
  | ifThenElse condition thenPart elsePart =>
      ifThenElse condition.normalized thenPart.normalized elsePart.normalized
  | letIn decls body => letIn (normalizedAll decls) (normalizedAll body)
  | varDecl decl => varDecl (normalizedDecl decl)
  | funDecl name params typeName body =>
      funDecl name (normalizedDecls params) typeName body.normalized
  | funCall name args => funCall name (normalizedAll args)
  | whileLoop condition body => whileLoop condition.normalized body.normalized
  | forLoop counter low high body =>
      forLoop counter low.normalized high.normalized body.normalized
  | assign target value => assign target value.normalized
  | integerLiteral value => integerLiteral value
  | stringLiteral value => stringLiteral value
  | identifier name => identifier name
  | breakOut => breakOut

def normalizedAll : List Expr → List Expr
  | [] => []
  | expr :: exprs => expr.normalized :: normalizedAll exprs

def normalizedInit : Option Expr → Option Expr
  | none => none
  | some expr => some expr.normalized

def normalizedDecl : VarDecl Expr → VarDecl Expr
  | ⟨name, typeName, init⟩ => ⟨name, typeName, normalizedInit init⟩

def normalizedDecls : List (VarDecl Expr) → List (VarDecl Expr)
  | [] => []
  | decl :: decls => normalizedDecl decl :: normalizedDecls decls

end

mutual

/-- Structural equality. -/
def same : Expr → Expr → Bool
  | integerLiteral a, integerLiteral b => a == b
  | stringLiteral a, stringLiteral b => a == b
  | binaryOperator op left right, binaryOperator op' left' right' =>
      op == op' && (left.same left' && right.same right')
  | sequence exprs, sequence exprs' => sameAll exprs exprs'
  | ifThenElse condition thenPart elsePart, ifThenElse condition' thenPart' elsePart' =>
      condition.same condition' && (thenPart.same thenPart' && elsePart.same elsePart')
  | identifier name, identifier name' => name == name'
  | letIn decls body, letIn decls' body' => sameAll decls decls' && sameAll body body'
  | varDecl decl, varDecl decl' => sameDecl decl decl'
  | funDecl name params typeName body, funDecl name' params' typeName' body' =>
      name == name' && (typeName == typeName' && (sameDecls params params' && body.same body'))
  | funCall name args, funCall name' args' => name == name' && sameAll args args'
  | whileLoop condition body, whileLoop condition' body' =>
      condition.same condition' && body.same body'
  | forLoop counter low high body, forLoop counter' low' high' body' =>
      counter == counter' && (low.same low' && (high.same high' && body.same body'))
  | breakOut, breakOut => true
  | assign target value, assign target' value' => target == target' && value.same value'
  | _, _ => false

def sameAll : List Expr → List Expr → Bool
  | [], [] => true
  | expr :: exprs, expr' :: exprs' => expr.same expr' && sameAll exprs exprs'
  | _, _ => false

def sameInit : Option Expr → Option Expr → Bool
  | none, none => true
  | some expr, some expr' => expr.same expr'
  | _, _ => false

def sameDecl : VarDecl Expr → VarDecl Expr → Bool
  | ⟨name, typeName, init⟩, ⟨name', typeName', init'⟩ =>
      name == name' && (typeName == typeName' && sameInit init init')

def sameDecls : List (VarDecl Expr) → List (VarDecl Expr) → Bool
  | [], [] => true
  | decl :: decls, decl' :: decls' => sameDecl decl decl' && sameDecls decls decls'
  | _, _ => false

end

instance : BEq Expr := ⟨same⟩

end Expr

end TigerTree
