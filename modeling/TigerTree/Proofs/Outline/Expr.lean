import TigerTree.Outline.Expr
import TigerTree.Proofs.Decode.Tree
import TigerTree.Proofs.Expr.Same
import TigerTree.Proofs.Outline.Flatten

set_option autoImplicit false

/-!
The outline of a tree shows all of it.

Every part of a node has a place in its outline, so trees with the same outline are the same. The
outlines are regular, which leaves the texts in a tree free: they are quoted.
-/

namespace TigerTree

namespace Outline

theorem isName_kind (kind : NodeKind) : isName kind.name = true := by
  cases kind <;> decide

theorem regular_node {kind : NodeKind} {field : String × Outline} {fields : List (String × Outline)}
    (regular : RegularFields (field :: fields)) : (node kind (field :: fields)).Regular :=
  .apply (isName_kind kind) (.record (isName_kind kind) regular)

theorem isName_decimalText (value : Int) : isName (decimalText value) = true := by
  have digits (number : Nat) : (Nat.toDigits 10 number).all isNameChar = true := by
    rw [List.all_eq_true]
    intro digit mem
    have isDigit := Nat.isDigit_of_mem_toDigits (by decide) (by decide) mem
    simp [isNameChar, Char.isAlphanum, isDigit]
  rw [decimalText, isName, String.toList_ofList, decimal]
  split
  · have minus : isNameChar '-' = true := by decide
    simp [digits, minus]
  · simp [digits]

theorem regular_operator (op : BinaryOp) : op.outline.Regular := by
  cases op with
  | other symbol => exact .apply (by decide) .quoted
  | _ => exact .word (by decide)

theorem regular_optionalText (value : Option String) : (optional quoted value).Regular := by
  cases value with
  | none => exact .word (by decide)
  | some value => exact .apply (by decide) .quoted

mutual

theorem regular_ofExpr : (expr : Expr) → (ofExpr expr).Regular
  | .integerLiteral value =>
      regular_node (.cons (by decide) (.word (isName_decimalText value.toInt)) .nil)
  | .stringLiteral _ => regular_node (.cons (by decide) .quoted .nil)
  | .binaryOperator op left right =>
      regular_node (.cons (by decide) (regular_operator op)
        (.cons (by decide) (regular_ofExpr left) (.cons (by decide) (regular_ofExpr right) .nil)))
  | .sequence exprs => regular_node (.cons (by decide) (.list (regular_ofExprs exprs)) .nil)
  | .ifThenElse condition thenPart elsePart =>
      regular_node (.cons (by decide) (regular_ofExpr condition)
        (.cons (by decide) (regular_ofExpr thenPart)
          (.cons (by decide) (regular_ofExpr elsePart) .nil)))
  | .identifier _ => regular_node (.cons (by decide) .quoted .nil)
  | .letIn decls body =>
      regular_node (.cons (by decide) (.list (regular_ofExprs decls))
        (.cons (by decide)
          (.record (isName_kind .sequence)
            (.cons (by decide) (.list (regular_ofExprs body)) .nil)) .nil))
  | .varDecl decl => .apply (isName_kind .varDecl) (regular_ofDecl decl)
  | .funDecl _ params typeName body =>
      regular_node (.cons (by decide) .quoted
        (.cons (by decide) (.list (regular_ofDecls params))
          (.cons (by decide) (regular_optionalText typeName)
            (.cons (by decide) (regular_ofExpr body) .nil))))
  | .funCall _ args =>
      regular_node (.cons (by decide) .quoted
        (.cons (by decide) (.list (regular_ofExprs args)) .nil))
  | .whileLoop condition body =>
      regular_node (.cons (by decide) (regular_ofExpr condition)
        (.cons (by decide) (regular_ofExpr body) .nil))
  | .forLoop _ low high body =>
      regular_node (.cons (by decide) .quoted
        (.cons (by decide) (regular_ofExpr low)
          (.cons (by decide) (regular_ofExpr high) (.cons (by decide) (regular_ofExpr body) .nil))))
  | .breakOut => .apply (isName_kind .breakOut) (.word (isName_kind .breakOut))
  | .assign _ value =>
      regular_node (.cons (by decide)
        (.record (isName_kind .identifier) (.cons (by decide) .quoted .nil))
        (.cons (by decide) (regular_ofExpr value) .nil))

theorem regular_ofExprs : (exprs : List Expr) → RegularItems (ofExprs exprs)
  | [] => .nil
  | expr :: exprs => .cons (regular_ofExpr expr) (regular_ofExprs exprs)

theorem regular_ofInit : (init : Option Expr) → (ofInit init).Regular
  | none => .word (by decide)
  | some expr => .apply (by decide) (regular_ofExpr expr)

theorem regular_ofDecl : (decl : VarDecl Expr) → (ofDecl decl).Regular
  | ⟨_, typeName, init⟩ =>
      .record (isName_kind .varDecl) (.cons (by decide) .quoted
        (.cons (by decide) (regular_optionalText typeName)
          (.cons (by decide) (regular_ofInit init) .nil)))

theorem regular_ofDecls : (decls : List (VarDecl Expr)) → RegularItems (ofDecls decls)
  | [] => .nil
  | decl :: decls => .cons (regular_ofDecl decl) (regular_ofDecls decls)

end

theorem toDigits_ten_injective : Function.Injective (Nat.toDigits 10) := by
  intro number other same
  rw [← Nat.ofDigitChars_ten_toDigits (n := number), same, Nat.ofDigitChars_ten_toDigits]

theorem minus_cons_ne_toDigits (digits : List Char) (number : Nat) :
    '-' :: digits ≠ Nat.toDigits 10 number := by
  intro same
  have mem : '-' ∈ Nat.toDigits 10 number := same ▸ List.mem_cons_self
  exact absurd (Nat.isDigit_of_mem_toDigits (by decide) (by decide) mem) (by decide)

theorem decimal_injective : Function.Injective decimal := by
  intro value other same
  unfold decimal at same
  split at same
  all_goals split at same
  · have magnitudes := toDigits_ten_injective (List.cons.inj same).2
    omega
  · exact absurd same (minus_cons_ne_toDigits _ _)
  · exact absurd same.symm (minus_cons_ne_toDigits _ _)
  · have magnitudes := toDigits_ten_injective same
    omega

theorem decimalText_eq_iff (value other : Int32) :
    decimalText value.toInt = decimalText other.toInt ↔ value = other := by
  rw [decimalText, decimalText, String.ofList_inj, decimal_injective.eq_iff, Int32.toInt_inj]

theorem operator_eq_iff (op op' : BinaryOp) : op.outline = op'.outline ↔ op = op' := by
  cases op <;> cases op' <;> simp [BinaryOp.outline, BinaryOp.word]

theorem optionalText_eq_iff (value other : Option String) :
    optional quoted value = optional quoted other ↔ value = other := by
  cases value <;> cases other <;> simp [optional]

theorem leadingName_ofExpr (expr : Expr) : (ofExpr expr).leadingName = expr.kind.name.toList := by
  cases expr <;> rfl

theorem kind_eq_of_ofExpr_eq {expr other : Expr} (same : ofExpr expr = ofExpr other) :
    expr.kind = other.kind := by
  have names := congrArg leadingName same
  rw [leadingName_ofExpr, leadingName_ofExpr, String.toList_inj] at names
  have found := NodeKind.ofName?_eq_some_iff.mpr names
  rw [NodeKind.ofName?_eq_some_iff.mpr rfl] at found
  exact (Option.some.inj found).symm

/-- Nodes of different kinds differ, and so do their outlines. -/
theorem ofExpr_eq_iff_of_kind_ne {expr other : Expr} (different : expr.kind ≠ other.kind) :
    ofExpr expr = ofExpr other ↔ expr = other :=
  iff_of_false (fun same => different (kind_eq_of_ofExpr_eq same))
    (fun same => different (congrArg Expr.kind same))

mutual

theorem ofExpr_eq_iff (expr other : Expr) : ofExpr expr = ofExpr other ↔ expr = other := by
  by_cases kinds : expr.kind = other.kind
  case neg => exact ofExpr_eq_iff_of_kind_ne kinds
  match expr, other, kinds with
  | .integerLiteral value, .integerLiteral _, _ => simp [ofExpr, node, decimalText_eq_iff]
  | .stringLiteral _, .stringLiteral _, _ | .identifier _, .identifier _, _ => simp [ofExpr, node]
  | .breakOut, .breakOut, _ => simp
  | .binaryOperator op left right, .binaryOperator _ _ _, _ =>
      simp [ofExpr, node, operator_eq_iff op, ofExpr_eq_iff left, ofExpr_eq_iff right]
  | .sequence exprs, .sequence _, _ => simp [ofExpr, node, ofExprs_eq_iff exprs]
  | .ifThenElse condition thenPart elsePart, .ifThenElse _ _ _, _ =>
      simp [ofExpr, node, ofExpr_eq_iff condition, ofExpr_eq_iff thenPart, ofExpr_eq_iff elsePart]
  | .letIn decls body, .letIn _ _, _ =>
      simp [ofExpr, node, ofExprs_eq_iff decls, ofExprs_eq_iff body]
  | .varDecl decl, .varDecl _, _ => simp [ofExpr, ofDecl_eq_iff decl]
  | .funDecl _ params typeName body, .funDecl _ _ _ _, _ =>
      simp [ofExpr, node, ofDecls_eq_iff params, optionalText_eq_iff typeName, ofExpr_eq_iff body]
  | .funCall _ args, .funCall _ _, _ => simp [ofExpr, node, ofExprs_eq_iff args]
  | .whileLoop condition body, .whileLoop _ _, _ =>
      simp [ofExpr, node, ofExpr_eq_iff condition, ofExpr_eq_iff body]
  | .forLoop _ low high body, .forLoop _ _ _ _, _ =>
      simp [ofExpr, node, ofExpr_eq_iff low, ofExpr_eq_iff high, ofExpr_eq_iff body]
  | .assign _ value, .assign _ _, _ => simp [ofExpr, node, ofExpr_eq_iff value]

theorem ofExprs_eq_iff : (exprs others : List Expr) →
    (ofExprs exprs = ofExprs others ↔ exprs = others)
  | [], [] | [], _ :: _ | _ :: _, [] => by simp [ofExprs]
  | expr :: exprs, other :: others => by
      simp [ofExprs, ofExpr_eq_iff expr, ofExprs_eq_iff exprs]

theorem ofInit_eq_iff : (init other : Option Expr) → (ofInit init = ofInit other ↔ init = other)
  | none, none | none, some _ | some _, none => by simp [ofInit]
  | some expr, some other => by simp [ofInit, ofExpr_eq_iff expr]

theorem ofDecl_eq_iff : (decl other : VarDecl Expr) → (ofDecl decl = ofDecl other ↔ decl = other)
  | ⟨_, typeName, init⟩, ⟨_, _, _⟩ => by
      simp [ofDecl, optionalText_eq_iff typeName, ofInit_eq_iff init]

theorem ofDecls_eq_iff : (decls others : List (VarDecl Expr)) →
    (ofDecls decls = ofDecls others ↔ decls = others)
  | [], [] | [], _ :: _ | _ :: _, [] => by simp [ofDecls]
  | decl :: decls, other :: others => by
      simp [ofDecls, ofDecl_eq_iff decl, ofDecls_eq_iff decls]

end

end Outline

end TigerTree
