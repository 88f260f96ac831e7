import Mathlib.Data.List.Forall2
import TigerTree.Expr
import TigerTree.Proofs.Json.Grammar

set_option autoImplicit false

/-!
Which JSON values spell a tree.

A rule says which written values are allowed. The rule of a tree follows its nodes and names the
fields of each: a node is an object with one member, named for its kind, around the record of its
fields. A record is given by an object, with the fields in any order and members of other names
in between, or by an array of the fields in order.
-/

namespace TigerTree

namespace Json

abbrev Rule := Written → Prop

/-- A field of a record: its name, what it has to be, and whether leaving it out says the same. -/
structure Field where
  name : String
  rule : Rule
  implied : Prop

namespace Field

def required (name : String) (rule : Rule) : Field := ⟨name, rule, False⟩

def optional (name : String) (rule : Rule) (implied : Prop) : Field := ⟨name, rule, implied⟩

/-- The field is one of the members of an object, and only once, or it is left out. -/
def Among (field : Field) (members : List (String × Written)) : Prop :=
  (∃ value, members.filter (fun member => member.1 = field.name) = [(field.name, value)] ∧
      field.rule value) ∨
    field.implied ∧ ∀ member ∈ members, member.1 ≠ field.name

/-- Items are the fields in order; fields at the end may be left out. -/
def InOrder : List Field → List Written → Prop
  | fields, [] => ∀ field ∈ fields, field.implied
  | [], _ :: _ => False
  | field :: fields, item :: items => field.rule item ∧ InOrder fields items

theorem inOrder_nil_iff {fields : List Field} :
    InOrder fields [] ↔ ∀ field ∈ fields, field.implied := by
  cases fields <;> rfl

end Field

/-- The keys of members stand for names. -/
def Named (members : List (List Piece × Written)) (named : List (String × Written)) : Prop :=
  List.Forall₂ (fun member named => Denotes member.1 named.1.toList ∧ member.2 = named.2)
    members named

namespace Rule

/-- An integer without fraction or exponent. Zero has no sign. -/
def int32 (value : Int32) : Rule
  | .integer false magnitude => value.toInt = magnitude
  | .integer true magnitude => magnitude ≠ 0 ∧ value.toInt = -magnitude
  | _ => False

def text (value : String) : Rule
  | .text pieces => Denotes pieces value.toList
  | _ => False

/-- The symbol of an operator, known or not. -/
def operator (op : BinaryOp) : Rule
  | .text pieces => ∃ symbol, Denotes pieces symbol.toList ∧ op = .ofSymbol symbol
  | _ => False

def null : Rule
  | .null => True
  | _ => False

def array (rules : List Rule) : Rule
  | .array items => List.Forall₂ (fun rule item => rule item) rules items
  | _ => False

def optional : Option Rule → Rule
  | none, value => value = .null
  | some rule, value => value ≠ .null ∧ rule value

def record (fields : List Field) : Rule
  | .object members => ∃ named, Named members named ∧ ∀ field ∈ fields, field.Among named
  | .array items => Field.InOrder fields items
  | _ => False

def node (kind : NodeKind) (payload : Rule) : Rule
  | .object [(key, value)] => Denotes key kind.name.toList ∧ payload value
  | _ => False

mutual

def ofExpr : Expr → Rule
  | .integerLiteral value => node .integerLiteral (record [.required "value" (int32 value)])
  | .stringLiteral value => node .stringLiteral (record [.required "value" (text value)])
  | .binaryOperator op left right =>
      node .binaryOperator
        (record [.required "op" (operator op), .required "left" (ofExpr left),
          .required "right" (ofExpr right)])
  | .sequence exprs => node .sequence (record [.required "exprs" (array (ofExprs exprs))])
  | .ifThenElse condition thenPart elsePart =>
      node .ifThenElse
        (record [.required "condition" (ofExpr condition),
          .required "then_part" (ofExpr thenPart), .required "else_part" (ofExpr elsePart)])
  | .identifier name => node .identifier (record [.required "name" (text name)])
  | .letIn decls body =>
      node .letIn
        (record [.required "decls" (array (ofExprs decls)),
          .required "body" (record [.required "exprs" (array (ofExprs body))])])
  | .varDecl decl => node .varDecl (ofDecl decl)
  | .funDecl name params typeName body =>
      node .funDecl
        (record [.required "name" (text name),
          .optional "params" (array (ofDecls params)) (params = []),
          .optional "type_name" (optional (typeName.map text)) (typeName = none),
          .required "body" (ofExpr body)])
  | .funCall name args =>
      node .funCall
        (record [.required "name" (text name),
          .optional "args" (array (ofExprs args)) (args = [])])
  | .whileLoop condition body =>
      node .whileLoop
        (record [.required "condition" (ofExpr condition), .required "body" (ofExpr body)])
  | .forLoop counter low high body =>
      node .forLoop
        (record [.required "variable" (text counter), .required "low" (ofExpr low),
          .required "high" (ofExpr high), .required "body" (ofExpr body)])
  | .breakOut => node .breakOut null
  | .assign target value =>
      node .assign
        (record [.required "lhs" (record [.required "name" (text target)]),
          .required "rhs" (ofExpr value)])

def ofExprs : List Expr → List Rule
  | [] => []
  | expr :: exprs => ofExpr expr :: ofExprs exprs

def ofInit : Option Expr → Option Rule
  | none => none
  | some expr => some (ofExpr expr)

/-- A declaration without a tag. -/
def ofDecl : VarDecl Expr → Rule
  | ⟨name, typeName, init⟩ =>
      record [.required "name" (text name),
        .optional "type_name" (optional (typeName.map text)) (typeName = none),
        .optional "init" (optional (ofInit init)) (init = none)]

def ofDecls : List (VarDecl Expr) → List Rule
  | [] => []
  | decl :: decls => ofDecl decl :: ofDecls decls

end

theorem ofExprs_eq_map (exprs : List Expr) : ofExprs exprs = exprs.map ofExpr := by
  induction exprs with
  | nil => rfl
  | cons expr exprs inductionHypothesis =>
      rw [ofExprs, List.map_cons, inductionHypothesis]

theorem ofDecls_eq_map (decls : List (VarDecl Expr)) : ofDecls decls = decls.map ofDecl := by
  induction decls with
  | nil => rfl
  | cons decl decls inductionHypothesis =>
      rw [ofDecls, List.map_cons, inductionHypothesis]

theorem ofInit_eq_map (init : Option Expr) : ofInit init = init.map ofExpr := by
  cases init <;> rfl

end Rule

end Json

/-- A source spells a tree: it holds a value that the rule of the tree allows, and nothing else
but blanks. -/
def Expr.SpelledIn (expr : Expr) (source : String) : Prop :=
  ∃ front value after, Json.Blanks source.toList front ∧ Json.Value front value after ∧
    Json.Blanks after [] ∧ Json.Rule.ofExpr expr value

end TigerTree
