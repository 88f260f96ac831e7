import Mathlib.Data.Int.ModEq
import TigerTree.Proofs.Evaluation.BigStep
import TigerTree.Proofs.Evaluation.Result

set_option autoImplicit false

/-!
Arithmetic modulo 2 ^ 32.

To take an integer as a machine word respects sums, differences and products. A tree of these
operations may therefore be reduced once, at its end, instead of after every step, and whatever
overflows on the way makes no difference.
-/

namespace TigerTree

/-- A tree of nothing but literals, sums, differences and products, and its value in exact
integers. -/
inductive Expr.Exact : Expr → Int → Prop where
  | integerLiteral (value : Int32) : Exact (.integerLiteral value) value.toInt
  | add {left right : Expr} {x y : Int} :
      Exact left x → Exact right y → Exact (.binaryOperator .add left right) (x + y)
  | sub {left right : Expr} {x y : Int} :
      Exact left x → Exact right y → Exact (.binaryOperator .sub left right) (x - y)
  | mul {left right : Expr} {x y : Int} :
      Exact left x → Exact right y → Exact (.binaryOperator .mul left right) (x * y)

variable {expr left right : Expr} {number : Int}

theorem reduces_toInt_iff {value : Int} :
    Reduces number value ↔ value = (Int32.ofInt number).toInt := by
  have word : (Int32.ofInt number).toInt = number.bmod (2 ^ 32) := Int32.toInt_ofInt
  rw [word]
  constructor
  · intro reduces
    exact reduces.unique (reduces_bmod number)
  · rintro rfl
    exact reduces_bmod number

theorem ofInt_eq_ofInt_iff {other : Int} :
    Int32.ofInt other = Int32.ofInt number ↔ other ≡ number [ZMOD 2 ^ 32] := by
  obtain ⟨low, high, reduced⟩ : Reduces other _ := reduces_toInt_iff.mpr rfl
  obtain ⟨-, -, reduced'⟩ : Reduces number _ := reduces_toInt_iff.mpr rfl
  rw [Int.modEq_iff_dvd]
  constructor
  · intro same
    rw [same] at reduced
    omega
  · intro congruent
    apply Int32.toInt_inj.mp
    exact reduces_toInt_iff.mp ⟨low, high, by omega⟩

theorem result_of_apply {op : BinaryOp} {leftValue rightValue value : Int32}
    (leftResult : (evaluate left).result = .ok leftValue)
    (rightResult : (evaluate right).result = .ok rightValue)
    (applied : op.apply leftValue rightValue = .ok value) :
    (evaluate (.binaryOperator op left right)).result = .ok value := by
  rw [result_binaryOperator, leftResult, rightResult]
  simp only [bind, Except.bind, BinaryOp.run_of_ok applied]

/-- The value of a tree is the word of its exact value. -/
theorem Expr.Exact.result_eq (exact : expr.Exact number) :
    (evaluate expr).result = .ok (Int32.ofInt number) := by
  induction exact with
  | integerLiteral value => rw [result_integerLiteral, Int32.ofInt_toInt]
  | add _ _ leftResult rightResult =>
      rw [Int32.ofInt_add]
      exact result_of_apply leftResult rightResult rfl
  | sub _ _ leftResult rightResult =>
      rw [Int32.ofInt_sub]
      exact result_of_apply leftResult rightResult rfl
  | mul _ _ leftResult rightResult =>
      rw [Int32.ofInt_mul]
      exact result_of_apply leftResult rightResult rfl

/-- A tree of literals, sums, differences and products has a value, which is its exact value
reduced once. Two such trees have the same value exactly if their exact values are congruent. -/
theorem evaluate_reduces_once (exact : expr.Exact number) :
    (∃ word : Int32, (evaluate expr).result = .ok word ∧
      ∀ value : Int, Reduces number value ↔ value = word.toInt) ∧
    ∀ (other : Expr) (number' : Int), other.Exact number' →
      ((evaluate other).result = (evaluate expr).result ↔ number' ≡ number [ZMOD 2 ^ 32]) := by
  refine ⟨⟨_, exact.result_eq, fun value => reduces_toInt_iff⟩, ?_⟩
  intro other number' exact'
  rw [exact.result_eq, exact'.result_eq, Except.ok.injEq, ofInt_eq_ofInt_iff]

/-- Twice the greatest value and two, with the factor outside and inside: both sums overflow, and
so does the product inside. -/
theorem evaluate_reduces_once_distributed :
    (evaluate (.binaryOperator .mul (.integerLiteral 2)
      (.binaryOperator .add (.integerLiteral 2147483647) (.integerLiteral 1)))).result = .ok 0 ∧
    (evaluate (.binaryOperator .add
      (.binaryOperator .mul (.integerLiteral 2) (.integerLiteral 2147483647))
      (.integerLiteral 2))).result = .ok 0 := by
  have outside : Expr.Exact _ (2 * (2147483647 + 1)) :=
    .mul (.integerLiteral 2) (.add (.integerLiteral 2147483647) (.integerLiteral 1))
  have inside : Expr.Exact _ (2 * 2147483647 + 2) :=
    .add (.mul (.integerLiteral 2) (.integerLiteral 2147483647)) (.integerLiteral 2)
  obtain ⟨⟨word, result, reduced⟩, others⟩ := evaluate_reduces_once outside
  have zero : word = 0 := Int32.toInt_inj.mp ((reduced 0).mp ⟨by decide, by decide, by decide⟩).symm
  subst zero
  exact ⟨result, ((others _ _ inside).mpr rfl).trans result⟩

end TigerTree
