import TigerTree.Expr

set_option autoImplicit false

/-!
Structural equality of trees is equality.
-/

namespace TigerTree.Expr

theorem kind_eq_of_same {expr other : Expr} (isSame : expr.same other = true) :
    expr.kind = other.kind := by
  unfold same at isSame
  split at isSame
  case h_15 => cases isSame
  all_goals rfl

mutual

theorem same_iff (expr other : Expr) : expr.same other = true ↔ expr = other := by
  by_cases kinds : expr.kind = other.kind
  case neg => exact iff_of_false (mt kind_eq_of_same kinds) (mt (congrArg kind) kinds)
  match expr, other, kinds with
  | integerLiteral _, integerLiteral _, _ | stringLiteral _, stringLiteral _, _
  | identifier _, identifier _, _ => simp [same]
  | breakOut, breakOut, _ => simp [same]
  | binaryOperator _ left right, binaryOperator _ _ _, _ =>
      simp [same, same_iff left, same_iff right]
  | sequence exprs, sequence _, _ => simp [same, sameAll_iff exprs]
  | ifThenElse condition thenPart elsePart, ifThenElse _ _ _, _ =>
      simp [same, same_iff condition, same_iff thenPart, same_iff elsePart]
  | letIn decls body, letIn _ _, _ => simp [same, sameAll_iff decls, sameAll_iff body]
  | varDecl decl, varDecl _, _ => simp [same, sameDecl_iff decl]
  | funDecl _ params _ body, funDecl _ _ _ _, _ =>
      simp [same, sameDecls_iff params, same_iff body, and_left_comm]
  | funCall _ args, funCall _ _, _ => simp [same, sameAll_iff args]
  | whileLoop condition body, whileLoop _ _, _ =>
      simp [same, same_iff condition, same_iff body]
  | forLoop _ low high body, forLoop _ _ _ _, _ =>
      simp [same, same_iff low, same_iff high, same_iff body]
  | assign _ value, assign _ _, _ => simp [same, same_iff value]

theorem sameAll_iff : (exprs others : List Expr) → (sameAll exprs others = true ↔ exprs = others)
  | [], [] | [], _ :: _ | _ :: _, [] => by simp [sameAll]
  | expr :: exprs, other :: others => by simp [sameAll, same_iff expr, sameAll_iff exprs]

theorem sameInit_iff : (init other : Option Expr) → (sameInit init other = true ↔ init = other)
  | none, none | none, some _ | some _, none => by simp [sameInit]
  | some expr, some other => by simp [sameInit, same_iff expr]

theorem sameDecl_iff : (decl other : VarDecl Expr) → (sameDecl decl other = true ↔ decl = other)
  | ⟨_, _, init⟩, ⟨_, _, _⟩ => by simp [sameDecl, sameInit_iff init]

theorem sameDecls_iff : (decls others : List (VarDecl Expr)) →
    (sameDecls decls others = true ↔ decls = others)
  | [], [] | [], _ :: _ | _ :: _, [] => by simp [sameDecls]
  | decl :: decls, other :: others => by simp [sameDecls, sameDecl_iff decl, sameDecls_iff decls]

end

instance : LawfulBEq Expr where
  eq_of_beq {expr other} same := (same_iff expr other).mp same
  rfl {expr} := (same_iff expr expr).mpr rfl

end TigerTree.Expr
