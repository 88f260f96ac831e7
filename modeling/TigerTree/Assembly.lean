import TigerTree.Expr.Construct

set_option autoImplicit false

/-!
Trees built in postfix order.

An instruction takes the parts of a node from a stack of trees and puts the node back. Parts are
pushed in the order in which they are written, so the last part is on top. A program is complete
when it leaves exactly one tree.
-/

namespace TigerTree

inductive Instruction where
  | push (expr : Expr)
  | binary (op : BinaryOp)
  /-- A node that keeps its operator as it is, also one that hides a known symbol. -/
  | rawBinary (op : BinaryOp)
  | sequence (count : Nat)
  | ifThenElse
  | letIn (decls body : Nat)
  | variableDecl (name : String)
  | functionDecl (name : String) (params : Nat)
  | funCall (name : String) (args : Nat)
  | whileLoop
  | forLoop (counter : String)
  | assign (target : String)
  | duplicate
  | swap
  | replicate (count : Nat) (body : List Instruction)

namespace Instruction

/-- The top trees of a stack in the order in which they were pushed, and the rest. -/
def takeTop (count : Nat) (stack : List Expr) : Option (List Expr × List Expr) :=
  if count ≤ stack.length then some ((stack.take count).reverse, stack.drop count) else none

def declaration? : Expr → Option (VarDecl Expr)
  | .varDecl decl => some decl
  | _ => none

/-- Applies a partial function again and again. -/
def iterate {α : Type} (step : α → Option α) : Nat → α → Option α
  | 0, value => some value
  | count + 1, value =>
      match step value with
      | some value => iterate step count value
      | none => none

mutual

def execute : Instruction → List Expr → Option (List Expr)
  | push expr, stack => some (expr :: stack)
  | binary op, right :: left :: stack => some (.binary op left right :: stack)
  | rawBinary op, right :: left :: stack => some (.binaryOperator op left right :: stack)
  | sequence count, stack => do
      let (exprs, stack) ← takeTop count stack
      return .sequence exprs :: stack
  | ifThenElse, elsePart :: thenPart :: condition :: stack =>
      some (.ifThenElse condition thenPart elsePart :: stack)
  | letIn decls body, stack => do
      let (body, stack) ← takeTop body stack
      let (decls, stack) ← takeTop decls stack
      return .letIn decls body :: stack
  | variableDecl name, init :: stack => some (.variableDecl name init :: stack)
  | functionDecl name params, body :: stack => do
      let (params, stack) ← takeTop params stack
      return .functionDecl name (← params.mapM declaration?) body :: stack
  | funCall name args, stack => do
      let (args, stack) ← takeTop args stack
      return .funCall name args :: stack
  | whileLoop, body :: condition :: stack => some (.whileLoop condition body :: stack)
  | forLoop counter, body :: high :: low :: stack => some (.forLoop counter low high body :: stack)
  | assign target, value :: stack => some (.assign target value :: stack)
  | duplicate, expr :: stack => some (expr :: expr :: stack)
  | swap, first :: second :: stack => some (second :: first :: stack)
  | replicate count body, stack => iterate (executeAll body) count stack
  | _, _ => none

def executeAll : List Instruction → List Expr → Option (List Expr)
  | [], stack => some stack
  | instruction :: rest, stack =>
      match execute instruction stack with
      | some stack => executeAll rest stack
      | none => none

end

end Instruction

/-- The tree that a complete program builds. -/
def assemble (program : List Instruction) : Option Expr :=
  match Instruction.executeAll program [] with
  | some [expr] => some expr
  | _ => none

end TigerTree
