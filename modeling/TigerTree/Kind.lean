set_option autoImplicit false

/-!
The kinds of nodes a tree is made of, their names, and which of them have a value.
-/

namespace TigerTree

inductive NodeKind where
  | integerLiteral
  | stringLiteral
  | binaryOperator
  | sequence
  | ifThenElse
  | identifier
  | letIn
  | varDecl
  | funDecl
  | funCall
  | whileLoop
  | forLoop
  | breakOut
  | assign
  deriving DecidableEq

namespace NodeKind

def all : List NodeKind :=
  [integerLiteral, stringLiteral, binaryOperator, sequence, ifThenElse, identifier, letIn,
    varDecl, funDecl, funCall, whileLoop, forLoop, breakOut, assign]

/-- The tag that marks a node of this kind in every written form of a tree. -/
def name : NodeKind → String
  | integerLiteral => "IntegerLiteral"
  | stringLiteral => "StringLiteral"
  | binaryOperator => "BinaryOperator"
  | sequence => "Sequence"
  | ifThenElse => "IfThenElse"
  | identifier => "Identifier"
  | letIn => "Let"
  | varDecl => "VarDecl"
  | funDecl => "FunDecl"
  | funCall => "FunCall"
  | whileLoop => "WhileLoop"
  | forLoop => "ForLoop"
  | breakOut => "Break"
  | assign => "Assign"

def ofName? (name : String) : Option NodeKind :=
  all.find? fun kind => kind.name == name

/-- Whether the evaluator computes a value for nodes of this kind. -/
def isEvaluable : NodeKind → Bool
  | integerLiteral | binaryOperator | sequence | ifThenElse => true
  | _ => false

end NodeKind

end TigerTree
