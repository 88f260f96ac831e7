import Mathlib.Algebra.Group.Int.Defs
import Mathlib.Algebra.Group.Nat.Defs
import TigerTree.Proofs.Evaluation.Compose

set_option autoImplicit false

/-!
The meaning of trees in exact integers.

`Expr.Yields` says by rules which result and which events a tree has. Its values are integers of
any size, taken modulo 2 ^ 32 after each operation, and it knows neither frames nor machine words.
The evaluator gives every tree the one result and the one list of events that the rules derive.
-/

namespace TigerTree

/-- The value in the range of 32 bits that differs from a number by a multiple of 2 ^ 32. -/
def Reduces (number value : Int) : Prop :=
  -2 ^ 31 ≤ value ∧ value < 2 ^ 31 ∧ (2 ^ 32 : Int) ∣ number - value

/-- Whether a comparison holds of two integers. -/
def BinaryOp.Holds : BinaryOp → Int → Int → Prop
  | eq, left, right => left = right
  | ne, left, right => left ≠ right
  | lt, left, right => left < right
  | le, left, right => left ≤ right
  | gt, left, right => left > right
  | ge, left, right => left ≥ right
  | _, _, _ => False

inductive BinaryOp.Yields : BinaryOp → Int → Int → Except EvalError Int → List Event → Prop where
  | add {left right value} : Reduces (left + right) value → Yields .add left right (.ok value) []
  | sub {left right value} : Reduces (left - right) value → Yields .sub left right (.ok value) []
  | mul {left right value} : Reduces (left * right) value → Yields .mul left right (.ok value) []
  | div {left right value} :
      right ≠ 0 → Reduces (left.tdiv right) value → Yields .div left right (.ok value) []
  | divisionByZero {left} :
      Yields .div left 0 (.error .divisionByZero) [.divisionByZero (Int32.ofInt left)]
  | holds {op left right} :
      op.isComparison → op.Holds left right → Yields op left right (.ok 1) []
  | fails {op left right} :
      op.isComparison → ¬ op.Holds left right → Yields op left right (.ok 0) []
  | unknown {symbol left right} :
      Yields (.other symbol) left right (.error (.unknownOperator (.other symbol)))
        [.unknownOperator (.other symbol)]

namespace Expr

mutual

inductive Yields : Expr → Except EvalError Int → List Event → Prop where
  | integerLiteral {value} :
      Yields (.integerLiteral value) (.ok value.toInt) [.evaluating .integerLiteral]
  | binaryOperator {op left right leftValue rightValue result leftEvents rightEvents events} :
      Yields left (.ok leftValue) leftEvents → Yields right (.ok rightValue) rightEvents →
      op.Yields leftValue rightValue result events →
      Yields (.binaryOperator op left right) result
        (.evaluating .binaryOperator :: (leftEvents ++ (rightEvents ++ events)))
  | leftFails {op left right error events} :
      Yields left (.error error) events →
      Yields (.binaryOperator op left right) (.error error)
        (.evaluating .binaryOperator :: events)
  | rightFails {op left right leftValue error leftEvents events} :
      Yields left (.ok leftValue) leftEvents → Yields right (.error error) events →
      Yields (.binaryOperator op left right) (.error error)
        (.evaluating .binaryOperator :: (leftEvents ++ events))
  | sequence {exprs result events} :
      ElementsYield exprs result events →
      Yields (.sequence exprs) result (.evaluating .sequence :: events)
  | conditionFails {condition thenPart elsePart error events} :
      Yields condition (.error error) events →
      Yields (.ifThenElse condition thenPart elsePart) (.error error)
        (.evaluating .ifThenElse :: events)
  | thenPart {condition thenPart elsePart value result conditionEvents events} :
      Yields condition (.ok value) conditionEvents → value ≠ 0 → Yields thenPart result events →
      Yields (.ifThenElse condition thenPart elsePart) result
        (.evaluating .ifThenElse :: (conditionEvents ++ events))
  | elsePart {condition thenPart elsePart result conditionEvents events} :
      Yields condition (.ok 0) conditionEvents → Yields elsePart result events →
      Yields (.ifThenElse condition thenPart elsePart) result
        (.evaluating .ifThenElse :: (conditionEvents ++ events))
  | unsupported {expr} :
      expr.kind.isEvaluable = false →
      Yields expr (.error (.unsupported expr.kind))
        [.evaluating expr.kind, .unsupported expr.kind]

/-- The elements of a sequence, of which the last one gives the value. -/
inductive ElementsYield : List Expr → Except EvalError Int → List Event → Prop where
  | none : ElementsYield [] (.error .emptySequence) [.emptySequence]
  | last {expr result events} : Yields expr result events → ElementsYield [expr] result events
  | next {expr next following value result events laterEvents} :
      Yields expr (.ok value) events → ElementsYield (next :: following) result laterEvents →
      ElementsYield (expr :: next :: following) result (events ++ laterEvents)
  | fails {expr next following error events} :
      Yields expr (.error error) events →
      ElementsYield (expr :: next :: following) (.error error) events

end

end Expr

theorem Reduces.unique {number value value' : Int} (reduces : Reduces number value)
    (reduces' : Reduces number value') : value = value' := by
  obtain ⟨low, high, multiple⟩ := reduces
  obtain ⟨low', high', multiple'⟩ := reduces'
  omega

theorem reduces_bmod (number : Int) : Reduces number (number.bmod (2 ^ 32)) :=
  ⟨Int.le_bmod (by decide), Int.bmod_lt (by decide), Int.dvd_self_sub_bmod⟩

namespace Run

/-- A run has a result, with its value as an integer, and events. -/
def Shows (run : Run) (result : Except EvalError Int) (events : List Event) : Prop :=
  run.result.map Int32.toInt = result ∧ run.events = events

variable {run : Run} {events : List Event}

theorem shows_ok_iff {value : Int} :
    run.Shows (.ok value) events ↔
      ∃ word : Int32, word.toInt = value ∧ run = ⟨.ok word, events⟩ := by
  obtain ⟨result, events'⟩ := run
  cases result with
  | ok word =>
      simp only [Shows, Except.map, Except.ok.injEq, Run.mk.injEq]
      constructor
      · rintro ⟨exact, same⟩
        exact ⟨word, exact, rfl, same⟩
      · rintro ⟨_, exact, rfl, same⟩
        exact ⟨exact, same⟩
  | error error => simp [Shows, Except.map]

theorem shows_error_iff {error : EvalError} :
    run.Shows (.error error) events ↔ run = ⟨.error error, events⟩ := by
  obtain ⟨result, events'⟩ := run
  cases result with
  | ok word => simp [Shows, Except.map]
  | error error => simp [Shows, Except.map]

theorem Shows.after {result : Except EvalError Int} (shows : run.Shows result events)
    (earlier : List Event) : (run.after earlier).Shows result (earlier ++ events) :=
  ⟨shows.1, congrArg (earlier ++ ·) shows.2⟩

end Run

namespace BinaryOp

theorem exists_yields (op : BinaryOp) (left right : Int) :
    ∃ result events, op.Yields left right result events := by
  by_cases comparison : op.isComparison
  · by_cases holds : op.Holds left right
    · exact ⟨_, _, .holds comparison holds⟩
    · exact ⟨_, _, .fails comparison holds⟩
  cases op with
  | add => exact ⟨_, _, .add (reduces_bmod _)⟩
  | sub => exact ⟨_, _, .sub (reduces_bmod _)⟩
  | mul => exact ⟨_, _, .mul (reduces_bmod _)⟩
  | div =>
      by_cases zero : right = 0
      · subst zero
        exact ⟨_, _, .divisionByZero⟩
      · exact ⟨_, _, .div zero (reduces_bmod _)⟩
  | other symbol => exact ⟨_, _, .unknown⟩
  | _ => exact absurd rfl comparison

/-- At machine words a comparison is that of the integers they stand for. -/
theorem run_comparison {op : BinaryOp} (comparison : op.isComparison) (left right : Int32) :
    ∃ holds, op.run left right = ⟨.ok (truthValue holds), []⟩ ∧
      (holds = true ↔ op.Holds left.toInt right.toInt) := by
  cases op with
  | eq => exact ⟨_, rfl, by simp [Holds, Int32.toInt_inj]⟩
  | ne => exact ⟨_, rfl, by simp [Holds, Int32.toInt_inj]⟩
  | lt => exact ⟨_, rfl, by simp [Holds, Int32.lt_iff_toInt_lt]⟩
  | le => exact ⟨_, rfl, by simp [Holds, Int32.le_iff_toInt_le]⟩
  | gt => exact ⟨_, rfl, by simp [Holds, Int32.lt_iff_toInt_lt]⟩
  | ge => exact ⟨_, rfl, by simp [Holds, Int32.le_iff_toInt_le]⟩
  | _ => cases comparison

theorem shows_of_reduces {op : BinaryOp} {left right word : Int32} {number value : Int}
    (run : op.run left right = ⟨.ok word, []⟩) (exact : word.toInt = number.bmod (2 ^ 32))
    (reduces : Reduces number value) : (op.run left right).Shows (.ok value) [] := by
  apply Run.shows_ok_iff.mpr
  refine ⟨word, ?_, run⟩
  exact exact.trans ((reduces_bmod number).unique reduces)

theorem Yields.shows {op : BinaryOp} {left right : Int32} {result : Except EvalError Int}
    {events : List Event} (yields : op.Yields left.toInt right.toInt result events) :
    (op.run left right).Shows result events := by
  generalize leftValue : left.toInt = exactLeft at yields
  generalize rightValue : right.toInt = exactRight at yields
  cases yields with
  | add reduces =>
      subst leftValue rightValue
      exact shows_of_reduces rfl (Int32.toInt_add left right) reduces
  | sub reduces =>
      subst leftValue rightValue
      exact shows_of_reduces rfl (Int32.toInt_sub left right) reduces
  | mul reduces =>
      subst leftValue rightValue
      exact shows_of_reduces rfl (Int32.toInt_mul left right) reduces
  | div nonzero reduces =>
      subst leftValue rightValue
      have notZero : right ≠ 0 := fun zero => nonzero (zero ▸ rfl)
      have applied : apply .div left right = .ok (left / right) := by simp [apply, notZero]
      exact shows_of_reduces (run_of_ok applied) (Int32.toInt_div left right) reduces
  | divisionByZero =>
      have zero : right = 0 := Int32.toInt_inj.mp rightValue
      subst zero leftValue
      rw [Int32.ofInt_toInt]
      exact ⟨rfl, rfl⟩
  | holds comparison holds =>
      subst leftValue rightValue
      obtain ⟨holds', run, meaning⟩ := run_comparison comparison left right
      rw [run, meaning.mpr holds]
      exact ⟨rfl, rfl⟩
  | fails comparison fails =>
      subst leftValue rightValue
      obtain ⟨holds', run, meaning⟩ := run_comparison comparison left right
      rw [run, Bool.eq_false_iff.mpr (mt meaning.mp fails)]
      exact ⟨rfl, rfl⟩
  | unknown => exact ⟨rfl, rfl⟩

end BinaryOp

namespace Expr

mutual

theorem exists_yields : (expr : Expr) → ∃ result events, expr.Yields result events
  | integerLiteral _ => ⟨_, _, .integerLiteral⟩
  | binaryOperator op left right => by
      obtain ⟨leftResult, _, leftYields⟩ := exists_yields left
      cases leftResult with
      | error => exact ⟨_, _, .leftFails leftYields⟩
      | ok leftValue =>
          obtain ⟨rightResult, _, rightYields⟩ := exists_yields right
          cases rightResult with
          | error => exact ⟨_, _, .rightFails leftYields rightYields⟩
          | ok rightValue =>
              obtain ⟨_, _, yields⟩ := op.exists_yields leftValue rightValue
              exact ⟨_, _, .binaryOperator leftYields rightYields yields⟩
  | sequence exprs => by
      obtain ⟨_, _, yields⟩ := exists_elementsYield exprs
      exact ⟨_, _, .sequence yields⟩
  | ifThenElse condition thenPart elsePart => by
      obtain ⟨conditionResult, _, conditionYields⟩ := exists_yields condition
      cases conditionResult with
      | error => exact ⟨_, _, .conditionFails conditionYields⟩
      | ok value =>
          by_cases zero : value = 0
          · subst zero
            obtain ⟨_, _, yields⟩ := exists_yields elsePart
            exact ⟨_, _, .elsePart conditionYields yields⟩
          · obtain ⟨_, _, yields⟩ := exists_yields thenPart
            exact ⟨_, _, .thenPart conditionYields zero yields⟩
  | stringLiteral _ | identifier _ | letIn _ _ | varDecl _ | funDecl _ _ _ _ | funCall _ _
  | whileLoop _ _ | forLoop _ _ _ _ | breakOut | assign _ _ => ⟨_, _, .unsupported rfl⟩

theorem exists_elementsYield : (exprs : List Expr) →
    ∃ result events, ElementsYield exprs result events
  | [] => ⟨_, _, .none⟩
  | [last] => by
      obtain ⟨_, _, yields⟩ := exists_yields last
      exact ⟨_, _, .last yields⟩
  | first :: next :: following => by
      obtain ⟨firstResult, _, firstYields⟩ := exists_yields first
      cases firstResult with
      | error => exact ⟨_, _, .fails firstYields⟩
      | ok _ =>
          obtain ⟨_, _, yields⟩ := exists_elementsYield (next :: following)
          exact ⟨_, _, .next firstYields yields⟩

end

mutual

theorem Yields.shows {expr : Expr} {result : Except EvalError Int} {events : List Event} :
    expr.Yields result events → (evaluate expr).Shows result events
  | .integerLiteral => by
      rw [evaluate_integerLiteral]
      exact ⟨rfl, rfl⟩
  | .binaryOperator leftYields rightYields yields => by
      obtain ⟨left, rfl, leftRun⟩ := Run.shows_ok_iff.mp leftYields.shows
      obtain ⟨right, rfl, rightRun⟩ := Run.shows_ok_iff.mp rightYields.shows
      rw [evaluate_binaryOperator, leftRun, rightRun]
      exact ((yields.shows.after _).after _).after _
  | .leftFails yields => by
      rw [evaluate_binaryOperator, Run.shows_error_iff.mp yields.shows]
      exact ⟨rfl, rfl⟩
  | .rightFails leftYields yields => by
      obtain ⟨left, rfl, leftRun⟩ := Run.shows_ok_iff.mp leftYields.shows
      rw [evaluate_binaryOperator, leftRun, Run.shows_error_iff.mp yields.shows]
      exact ⟨rfl, rfl⟩
  | .sequence yields => by
      rw [evaluate_sequence]
      exact yields.shows.after _
  | .conditionFails yields => by
      rw [evaluate_ifThenElse, Run.shows_error_iff.mp yields.shows]
      exact ⟨rfl, rfl⟩
  | .thenPart conditionYields nonzero yields => by
      obtain ⟨value, rfl, conditionRun⟩ := Run.shows_ok_iff.mp conditionYields.shows
      have taken : (value != 0) = true := bne_iff_ne.mpr fun zero => nonzero (zero ▸ rfl)
      rw [evaluate_ifThenElse, conditionRun, Run.andThen_of_ok rfl, if_pos taken]
      exact (yields.shows.after _).after _
  | .elsePart conditionYields yields => by
      obtain ⟨value, zero, conditionRun⟩ := Run.shows_ok_iff.mp conditionYields.shows
      have taken : ¬ (value != 0) = true := by
        simpa using Int32.toInt_inj.mp zero
      rw [evaluate_ifThenElse, conditionRun, Run.andThen_of_ok rfl, if_neg taken]
      exact (yields.shows.after _).after _
  | .unsupported unsupported => by
      rw [evaluate_unsupported unsupported]
      exact ⟨rfl, rfl⟩

theorem ElementsYield.shows {exprs : List Expr} {result : Except EvalError Int}
    {events : List Event} :
    ElementsYield exprs result events → (evaluateElements exprs).Shows result events
  | .none => ⟨rfl, rfl⟩
  | .last yields => yields.shows
  | .next firstYields yields => by
      obtain ⟨value, rfl, firstRun⟩ := Run.shows_ok_iff.mp firstYields.shows
      rw [evaluateElements, firstRun]
      exact yields.shows.after _
  | .fails yields => by
      rw [evaluateElements, Run.shows_error_iff.mp yields.shows]
      exact ⟨rfl, rfl⟩

end

end Expr

/-- The evaluator gives a tree the one result and the one list of events that the rules derive. -/
theorem yields_iff_evaluate (expr : Expr) (result : Except EvalError Int) (events : List Event) :
    expr.Yields result events ↔
      result = (evaluate expr).result.map Int32.toInt ∧ events = (evaluate expr).events := by
  constructor
  · intro yields
    exact ⟨yields.shows.1.symm, yields.shows.2.symm⟩
  · rintro ⟨rfl, rfl⟩
    obtain ⟨result, events, yields⟩ := expr.exists_yields
    obtain ⟨rfl, rfl⟩ := yields.shows
    exact yields

end TigerTree
