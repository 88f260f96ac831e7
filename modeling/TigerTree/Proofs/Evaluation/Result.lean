import TigerTree.Proofs.Evaluation.Entered

set_option autoImplicit false

/-!
Results without events.

What a node gives, a value or an error, follows from what its parts give. The parts stand in the
order in which they are evaluated, and the first error ends the rest.
-/

namespace TigerTree

theorem exists_of_bind_eq_ok {α β : Type} {result : Except EvalError α}
    {next : α → Except EvalError β} {value : β} (succeeded : result >>= next = .ok value) :
    ∃ before, result = .ok before ∧ next before = .ok value := by
  cases result with
  | ok before => exact ⟨before, rfl, succeeded⟩
  | error error => cases succeeded

theorem Run.result_andThen (run : Run) (next : Int32 → Run) :
    (run.andThen next).result = run.result >>= fun value => (next value).result := by
  cases outcome : run.result with
  | ok value =>
      rw [andThen_of_ok outcome]
      rfl
  | error error =>
      rw [andThen_of_error outcome, outcome]
      rfl

theorem result_integerLiteral (value : Int32) :
    (evaluate (.integerLiteral value)).result = .ok value := by
  rw [evaluate_integerLiteral]

theorem result_binaryOperator (op : BinaryOp) (left right : Expr) :
    (evaluate (.binaryOperator op left right)).result =
      (evaluate left).result >>= fun leftValue =>
        (evaluate right).result >>= fun rightValue => (op.run leftValue rightValue).result := by
  rw [evaluate_binaryOperator]
  simp only [Run.entering, Run.after, Run.result_andThen]

theorem result_sequence (exprs : List Expr) :
    (evaluate (.sequence exprs)).result = (evaluateElements exprs).result := by
  rw [evaluate_sequence]
  rfl

theorem result_elements_cons (first : Expr) {following : List Expr} (more : following ≠ []) :
    (evaluateElements (first :: following)).result =
      (evaluate first).result >>= fun _ => (evaluateElements following).result := by
  rw [evaluateElements_cons first more, Run.result_andThen]

/-- A sequence in two parts goes on with the second one if the first has a value. -/
theorem result_elements_append {front back : List Expr} (frontMore : front ≠ [])
    (backMore : back ≠ []) :
    (evaluateElements (front ++ back)).result =
      (evaluateElements front).result >>= fun _ => (evaluateElements back).result := by
  induction front with
  | nil => exact absurd rfl frontMore
  | cons first following inductionHypothesis =>
      by_cases last : following = []
      · subst last
        exact result_elements_cons first backMore
      · rw [List.cons_append, result_elements_cons first (List.append_ne_nil_of_left_ne_nil last _),
          inductionHypothesis last, result_elements_cons first last, bind_assoc]

/-- A sequence that has a value has that of its last element. -/
theorem result_last {exprs : List Expr} {last : Expr} {value : Int32}
    (succeeded : (evaluate (.sequence (exprs ++ [last]))).result = .ok value) :
    (evaluate last).result = .ok value := by
  rw [result_sequence] at succeeded
  by_cases only : exprs = []
  · subst only
    exact succeeded
  · rw [result_elements_append only (List.cons_ne_nil last [])] at succeeded
    obtain ⟨_, -, succeeded⟩ := exists_of_bind_eq_ok succeeded
    exact succeeded

theorem result_ifThenElse (condition thenPart elsePart : Expr) :
    (evaluate (.ifThenElse condition thenPart elsePart)).result =
      (evaluate condition).result >>= fun value =>
        if value != 0 then (evaluate thenPart).result else (evaluate elsePart).result := by
  rw [evaluate_ifThenElse]
  simp only [Run.entering, Run.after, Run.result_andThen, apply_ite evaluate, apply_ite Run.result]

theorem result_unsupported {expr : Expr} (unsupported : expr.kind.isEvaluable = false) :
    (evaluate expr).result = .error (.unsupported expr.kind) := by
  rw [evaluate_unsupported unsupported]

end TigerTree
