import Mathlib.Data.List.Basic
import TigerTree.Expr

set_option autoImplicit false

/-!
Operators in normal form.

An operator is its symbol, read again. Normalizing a tree therefore changes it only where an
operator hides a known symbol.
-/

namespace TigerTree

namespace BinaryOp

/-- An operator keeps a known symbol as if it were unknown. -/
def Hides (op : BinaryOp) : Prop := ∃ symbol ∈ known.map BinaryOp.symbol, op = other symbol

theorem symbol_ofSymbol (symbol : String) : (ofSymbol symbol).symbol = symbol := by
  unfold ofSymbol
  cases found : known.find? fun op => op.symbol == symbol with
  | none => rfl
  | some op => simpa using List.find?_some found

theorem symbol_normalized (op : BinaryOp) : op.normalized.symbol = op.symbol := by
  cases op with
  | other symbol => exact symbol_ofSymbol symbol
  | _ => rfl

theorem ofSymbol_symbol (op : BinaryOp) : ofSymbol op.symbol = op.normalized := by
  cases op with
  | other symbol => rfl
  | _ => decide

theorem ofSymbol_eq_other_iff (symbol : String) :
    ofSymbol symbol = other symbol ↔ symbol ∉ known.map BinaryOp.symbol := by
  unfold ofSymbol
  cases found : known.find? fun op => op.symbol == symbol with
  | none => simpa using List.find?_eq_none.mp found
  | some op =>
      have mem := List.mem_of_find?_eq_some found
      have named : op.symbol = symbol := by simpa using List.find?_some found
      have notOther : op ≠ other symbol := by
        rintro rfl
        simp [known] at mem
      have isKnown : symbol ∈ known.map BinaryOp.symbol := List.mem_map.mpr ⟨op, mem, named⟩
      simp [notOther, isKnown]

theorem normalized_eq_self_iff (op : BinaryOp) : op.normalized = op ↔ ¬ op.Hides := by
  cases op with
  | other symbol => simp [normalized, ofSymbol_eq_other_iff, Hides]
  | _ => simp [normalized, Hides]

theorem not_hides_ofSymbol (symbol : String) : ¬ (ofSymbol symbol).Hides := by
  rw [← normalized_eq_self_iff, ← ofSymbol_symbol, symbol_ofSymbol]

theorem not_hides_normalized (op : BinaryOp) : ¬ op.normalized.Hides := by
  rw [← ofSymbol_symbol]
  exact not_hides_ofSymbol op.symbol

end BinaryOp

namespace Expr

mutual

/-- The operators of a tree, also of those parts that evaluation never reaches. -/
def operators : Expr → List BinaryOp
  | binaryOperator op left right => op :: (left.operators ++ right.operators)
  | sequence exprs => operatorsAll exprs
  | ifThenElse condition thenPart elsePart =>
      condition.operators ++ (thenPart.operators ++ elsePart.operators)
  | letIn decls body => operatorsAll decls ++ operatorsAll body
  | varDecl decl => operatorsDecl decl
  | funDecl _ params _ body => operatorsDecls params ++ body.operators
  | funCall _ args => operatorsAll args
  | whileLoop condition body => condition.operators ++ body.operators
  | forLoop _ low high body => low.operators ++ (high.operators ++ body.operators)
  | assign _ value => value.operators
  | integerLiteral _ | stringLiteral _ | identifier _ | breakOut => []

def operatorsAll : List Expr → List BinaryOp
  | [] => []
  | expr :: exprs => expr.operators ++ operatorsAll exprs

def operatorsInit : Option Expr → List BinaryOp
  | none => []
  | some expr => expr.operators

def operatorsDecl : VarDecl Expr → List BinaryOp
  | ⟨_, _, init⟩ => operatorsInit init

def operatorsDecls : List (VarDecl Expr) → List BinaryOp
  | [] => []
  | decl :: decls => operatorsDecl decl ++ operatorsDecls decls

end

theorem mem_operatorsAll_iff {op : BinaryOp} {exprs : List Expr} :
    op ∈ operatorsAll exprs ↔ ∃ expr ∈ exprs, op ∈ expr.operators := by
  induction exprs with
  | nil => simp [operatorsAll]
  | cons expr exprs inductionHypothesis => simp [operatorsAll, inductionHypothesis]

theorem mem_operatorsDecls_iff {op : BinaryOp} {decls : List (VarDecl Expr)} :
    op ∈ operatorsDecls decls ↔ ∃ decl ∈ decls, ∃ init ∈ decl.init, op ∈ init.operators := by
  induction decls with
  | nil => simp [operatorsDecls]
  | cons decl decls inductionHypothesis =>
      obtain ⟨name, typeName, init⟩ := decl
      cases init <;> simp [operatorsDecls, operatorsDecl, operatorsInit, inductionHypothesis]

mutual

theorem normalized_eq_self_iff : (expr : Expr) →
    (expr.normalized = expr ↔ ∀ op ∈ expr.operators, ¬ op.Hides)
  | integerLiteral _ | stringLiteral _ | identifier _ | breakOut => by
      simp [normalized, operators]
  | binaryOperator op left right => by
      simp only [normalized, operators, binaryOperator.injEq, List.forall_mem_cons,
        List.forall_mem_append, op.normalized_eq_self_iff, left.normalized_eq_self_iff,
        right.normalized_eq_self_iff]
  | sequence exprs => by
      simp only [normalized, operators, sequence.injEq, normalizedAll_eq_self_iff exprs]
  | ifThenElse condition thenPart elsePart => by
      simp only [normalized, operators, ifThenElse.injEq, List.forall_mem_append,
        condition.normalized_eq_self_iff, thenPart.normalized_eq_self_iff,
        elsePart.normalized_eq_self_iff]
  | letIn decls body => by
      simp only [normalized, operators, letIn.injEq, List.forall_mem_append,
        normalizedAll_eq_self_iff decls, normalizedAll_eq_self_iff body]
  | varDecl decl => by
      simp only [normalized, operators, varDecl.injEq, normalizedDecl_eq_self_iff decl]
  | funDecl _ params _ body => by
      simp only [normalized, operators, funDecl.injEq, List.forall_mem_append, true_and,
        normalizedDecls_eq_self_iff params, body.normalized_eq_self_iff]
  | funCall _ args => by
      simp only [normalized, operators, funCall.injEq, true_and, normalizedAll_eq_self_iff args]
  | whileLoop condition body => by
      simp only [normalized, operators, whileLoop.injEq, List.forall_mem_append,
        condition.normalized_eq_self_iff, body.normalized_eq_self_iff]
  | forLoop _ low high body => by
      simp only [normalized, operators, forLoop.injEq, List.forall_mem_append, true_and,
        low.normalized_eq_self_iff, high.normalized_eq_self_iff, body.normalized_eq_self_iff]
  | assign _ value => by
      simp only [normalized, operators, assign.injEq, true_and, value.normalized_eq_self_iff]

theorem normalizedAll_eq_self_iff : (exprs : List Expr) →
    (normalizedAll exprs = exprs ↔ ∀ op ∈ operatorsAll exprs, ¬ op.Hides)
  | [] => by simp [normalizedAll, operatorsAll]
  | expr :: exprs => by
      simp only [normalizedAll, operatorsAll, List.cons.injEq, List.forall_mem_append,
        expr.normalized_eq_self_iff, normalizedAll_eq_self_iff exprs]

theorem normalizedInit_eq_self_iff : (init : Option Expr) →
    (normalizedInit init = init ↔ ∀ op ∈ operatorsInit init, ¬ op.Hides)
  | none => by simp [normalizedInit, operatorsInit]
  | some expr => by
      simp only [normalizedInit, operatorsInit, Option.some.injEq, expr.normalized_eq_self_iff]

theorem normalizedDecl_eq_self_iff : (decl : VarDecl Expr) →
    (normalizedDecl decl = decl ↔ ∀ op ∈ operatorsDecl decl, ¬ op.Hides)
  | ⟨_, _, init⟩ => by
      simp only [normalizedDecl, operatorsDecl, VarDecl.mk.injEq, true_and,
        normalizedInit_eq_self_iff init]

theorem normalizedDecls_eq_self_iff : (decls : List (VarDecl Expr)) →
    (normalizedDecls decls = decls ↔ ∀ op ∈ operatorsDecls decls, ¬ op.Hides)
  | [] => by simp [normalizedDecls, operatorsDecls]
  | decl :: decls => by
      simp only [normalizedDecls, operatorsDecls, List.cons.injEq, List.forall_mem_append,
        normalizedDecl_eq_self_iff decl, normalizedDecls_eq_self_iff decls]

end

end Expr

end TigerTree
