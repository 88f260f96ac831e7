import TigerTree.Proofs.Evaluation.Raised
import TigerTree.Proofs.Evaluation.Result
import TigerTree.Proofs.Expr.Replacement

set_option autoImplicit false

/-!
Trees that have a value.

A tree whose nodes are all proper can fail in one way only: a divisor is zero. Divisors that are
seen not to be zero without evaluation rule this out, and then the tree has a value, whatever
overflows on the way.
-/

namespace TigerTree

namespace Expr

/-- Whatever stands at a position in a tree has a property. -/
def Everywhere (property : Expr → Prop) (expr : Expr) : Prop :=
  ∀ path node, expr.at? path = some node → property node

/-- A node of a kind that has values, with an operator that has a meaning, and with elements if it
is a sequence. -/
def Proper : Expr → Prop
  | integerLiteral _ | ifThenElse _ _ _ => True
  | binaryOperator op _ _ => ∀ symbol, op ≠ .other symbol
  | sequence exprs => exprs ≠ []
  | _ => False

/-- A tree that is seen not to be zero: a literal other than zero, or a sequence or a conditional
that ends in nothing but such trees. -/
inductive Nonzero : Expr → Prop where
  | integerLiteral {value : Int32} : value ≠ 0 → Nonzero (.integerLiteral value)
  | sequence {exprs : List Expr} {last : Expr} :
      Nonzero last → Nonzero (.sequence (exprs ++ [last]))
  | ifThenElse {condition thenPart elsePart : Expr} :
      Nonzero thenPart → Nonzero elsePart → Nonzero (.ifThenElse condition thenPart elsePart)

/-- A node that is no division by anything that may be zero. -/
def DividesByNonzero (node : Expr) : Prop :=
  ∀ left right, node = binaryOperator .div left right → right.Nonzero

variable {expr node : Expr} {error : EvalError} {property : Expr → Prop}

theorem everywhere_iff :
    expr.Everywhere property ↔
      property expr ∧ ∀ edge child, expr.child? edge = some child → child.Everywhere property := by
  constructor
  · intro everywhere
    refine ⟨everywhere [] expr rfl, fun edge child present path node found => ?_⟩
    exact everywhere (edge :: path) node ((at?_cons present path).trans found)
  · rintro ⟨root, parts⟩ (_ | ⟨edge, path⟩) node found
    · cases found
      exact root
    · obtain ⟨child, present, found⟩ := Option.bind_eq_some_iff.mp found
      exact parts edge child present path node found

@[simp]
theorem everywhere_integerLiteral_iff {value : Int32} :
    (integerLiteral value).Everywhere property ↔ property (integerLiteral value) := by
  rw [everywhere_iff, and_iff_left]
  intro edge _ present
  cases edge <;> cases present

@[simp]
theorem everywhere_binaryOperator_iff {op : BinaryOp} {left right : Expr} :
    (binaryOperator op left right).Everywhere property ↔
      property (binaryOperator op left right) ∧
        left.Everywhere property ∧ right.Everywhere property := by
  rw [everywhere_iff, and_congr_right_iff]
  intro _
  constructor
  · exact fun parts => ⟨parts .left left rfl, parts .right right rfl⟩
  · rintro ⟨leftPart, rightPart⟩ edge _ present
    cases edge <;> cases present
    · exact leftPart
    · exact rightPart

@[simp]
theorem everywhere_sequence_iff {exprs : List Expr} :
    (sequence exprs).Everywhere property ↔
      property (sequence exprs) ∧ ∀ expr ∈ exprs, expr.Everywhere property := by
  rw [everywhere_iff, and_congr_right_iff]
  intro _
  constructor
  · intro parts expr mem
    obtain ⟨index, present⟩ := List.mem_iff_getElem?.mp mem
    exact parts (.element index) expr present
  · intro elements edge child present
    cases edge with
    | element index => exact elements child (List.mem_of_getElem? present)
    | _ => cases present

/-- Divisions are all that a proper node can fail by itself. -/
theorem Raises.eq_divisionByZero (raises : node.Raises error) (proper : node.Proper) :
    error = .divisionByZero := by
  cases error with
  | divisionByZero => rfl
  | unknownOperator op =>
      obtain ⟨symbol, _, _, rfl, rfl, -⟩ := raises
      exact absurd rfl (proper symbol)
  | emptySequence =>
      cases raises
      exact absurd rfl proper
  | unsupported kind =>
      obtain ⟨rfl, unsupported⟩ := raises
      cases node with
      | integerLiteral | binaryOperator | sequence | ifThenElse => cases unsupported
      | _ => exact proper.elim

theorem exists_division_of_fails (proper : expr.Everywhere Proper)
    (failed : (evaluate expr).result = .error error) :
    error = .divisionByZero ∧ ∃ path left right,
      expr.at? path = some (binaryOperator .div left right) ∧ (evaluate right).result = .ok 0 := by
  obtain ⟨path, node, ⟨-, found⟩, raises⟩ := exists_raisesAt failed
  obtain rfl := raises.eq_divisionByZero (proper path node found)
  obtain ⟨left, right, rfl, -, zero⟩ := raises
  exact ⟨rfl, path, left, right, found, zero⟩

theorem Nonzero.result_ne_zero (nonzero : expr.Nonzero) : (evaluate expr).result ≠ .ok 0 := by
  induction nonzero with
  | integerLiteral notZero => simpa [result_integerLiteral] using notZero
  | sequence _ inductionHypothesis => exact fun zero => inductionHypothesis (result_last zero)
  | ifThenElse _ _ thenHypothesis elseHypothesis =>
      intro zero
      rw [result_ifThenElse] at zero
      obtain ⟨condition, -, zero⟩ := exists_of_bind_eq_ok zero
      split at zero
      · exact thenHypothesis zero
      · exact elseHypothesis zero

end Expr

/-- A tree of proper nodes has a value or fails by a division by zero, and it has a value if all
its divisors are seen not to be zero. -/
theorem evaluate_proper (expr : Expr) (proper : expr.Everywhere Expr.Proper) :
    ((∃ value, (evaluate expr).result = .ok value) ∨
      (evaluate expr).result = .error .divisionByZero) ∧
    (expr.Everywhere Expr.DividesByNonzero → ∃ value, (evaluate expr).result = .ok value) := by
  cases outcome : (evaluate expr).result with
  | ok value => exact ⟨.inl ⟨value, rfl⟩, fun _ => ⟨value, rfl⟩⟩
  | error error =>
      obtain ⟨rfl, path, left, right, found, zero⟩ :=
        Expr.exists_division_of_fails proper outcome
      refine ⟨.inr rfl, fun divides => ?_⟩
      exact absurd zero (divides path _ found left right rfl).result_ne_zero

/-- The one quotient that overflows, with a divisor that is not a literal. -/
theorem evaluate_proper_quotient :
    (Expr.binaryOperator .div (.integerLiteral (-2147483648))
      (.sequence [.integerLiteral 0, .integerLiteral (-1)])).Everywhere Expr.Proper ∧
    ∃ value, (evaluate (.binaryOperator .div (.integerLiteral (-2147483648))
      (.sequence [.integerLiteral 0, .integerLiteral (-1)]))).result = .ok value := by
  have proper : (Expr.binaryOperator .div (.integerLiteral (-2147483648))
      (.sequence [.integerLiteral 0, .integerLiteral (-1)])).Everywhere Expr.Proper := by
    simp [Expr.Proper]
  have divisor : Expr.Nonzero (.sequence [.integerLiteral 0, .integerLiteral (-1)]) :=
    @Expr.Nonzero.sequence [.integerLiteral 0] _ (.integerLiteral (by decide))
  refine ⟨proper, (evaluate_proper _ proper).2 ?_⟩
  simp [Expr.DividesByNonzero, divisor]

end TigerTree
