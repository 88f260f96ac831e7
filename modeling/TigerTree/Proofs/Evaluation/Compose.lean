import TigerTree.Evaluation

set_option autoImplicit false

/-!
Runs of trees, put together from runs of their parts.

The machine works on the innermost frame only, so a run above some frames is a run without them
that they continue, and its log is written behind whatever has been logged before. The run of a
node then follows from those of its parts, without frames.
-/

namespace TigerTree

namespace Run

variable {run : Run}

/-- A run behind events from before it. -/
def after (run : Run) (earlier : List Event) : Run := ⟨run.result, earlier ++ run.events⟩

/-- A run that goes on with its value, unless it has failed. -/
def andThen (run : Run) (next : Int32 → Run) : Run :=
  match run.result with
  | .ok value => (next value).after run.events
  | .error _ => run

/-- A run from the entry of a node on. -/
def entering (kind : NodeKind) (run : Run) : Run := run.after [.evaluating kind]

theorem andThen_of_ok {next : Int32 → Run} {value : Int32} (succeeded : run.result = .ok value) :
    run.andThen next = (next value).after run.events := by
  rw [andThen, succeeded]

theorem andThen_of_error {next : Int32 → Run} {error : EvalError}
    (failed : run.result = .error error) : run.andThen next = run := by
  rw [andThen, failed]

/-- What a run goes on with makes a difference only at the value of the run. -/
theorem andThen_congr {next next' : Int32 → Run}
    (same : ∀ value, run.result = .ok value → next value = next' value) :
    run.andThen next = run.andThen next' := by
  cases outcome : run.result with
  | ok value => rw [andThen_of_ok outcome, andThen_of_ok outcome, same value outcome]
  | error error => rw [andThen_of_error outcome, andThen_of_error outcome]

@[simp]
theorem after_nil : run.after [] = run := rfl

/-- To go on by giving the value back changes nothing. -/
theorem andThen_value (run : Run) : (run.andThen fun value => ⟨.ok value, []⟩) = run := by
  obtain ⟨result, events⟩ := run
  cases result with
  | ok value => simp [andThen, after]
  | error error => rfl

end Run

namespace Evaluation

theorem run_log (focus : Focus) (frames : List Frame) (log earlier : List Event) :
    run focus frames (log ++ earlier) = (run focus frames log).after earlier.reverse := by
  fun_induction run focus frames log with
  | case1 _ _ _ _ inductionHypothesis | case2 _ _ _ _ _ _ inductionHypothesis
  | case4 _ _ _ _ _ inductionHypothesis | case5 _ _ _ _ _ _ inductionHypothesis
  | case8 _ _ _ _ _ inductionHypothesis | case11 _ _ _ _ _ inductionHypothesis
  | case12 _ _ _ inductionHypothesis | case13 _ _ _ _ _ inductionHypothesis =>
      conv => lhs; rw [run]
      exact inductionHypothesis
  | case9 _ _ _ _ _ _ applied inductionHypothesis =>
      conv => lhs; rw [run, applied]
      exact inductionHypothesis
  | case10 _ _ _ _ _ _ _ applied =>
      rw [run, applied]
      simp [refuse, finish, Run.after]
  | case3 log frames entered =>
      rw [run]
      simp [refuse, finish, Run.after, entered]
  | case6 log frames other _ _ _ _ _ entered =>
      rw [run]
      · simp [refuse, finish, Run.after, entered]
      all_goals assumption
  | case7 =>
      rw [run]
      simp [finish, Run.after]

/-- Frames below those of a run continue it with its value. -/
theorem run_append (focus : Focus) (frames outer : List Frame) (log : List Event) :
    run focus (frames ++ outer) log =
      (run focus frames log).andThen fun value => run (.yield value) outer [] := by
  fun_induction run focus frames log with
  | case1 _ _ _ _ inductionHypothesis | case2 _ _ _ _ _ _ inductionHypothesis
  | case4 _ _ _ _ _ inductionHypothesis | case5 _ _ _ _ _ _ inductionHypothesis =>
      conv => lhs; rw [run]
      exact inductionHypothesis
  | case8 _ _ _ _ _ inductionHypothesis | case11 _ _ _ _ _ inductionHypothesis
  | case12 _ _ _ inductionHypothesis | case13 _ _ _ _ _ inductionHypothesis =>
      conv => lhs; rw [List.cons_append, run]
      exact inductionHypothesis
  | case9 _ _ _ _ _ _ applied inductionHypothesis =>
      conv => lhs; rw [List.cons_append, run, applied]
      exact inductionHypothesis
  | case10 _ _ _ _ _ _ _ applied =>
      rw [List.cons_append, run, applied]
      rfl
  | case3 =>
      rw [run]
      rfl
  | case6 =>
      rw [run]
      · rfl
      all_goals assumption
  | case7 log value => exact run_log (.yield value) outer [] log

/-- A node below some frames runs alone, and the frames continue its run. -/
theorem run_enter (expr : Expr) (frames : List Frame) (log : List Event) :
    run (.enter expr) frames log =
      ((evaluate expr).andThen fun value => run (.yield value) frames []).after log.reverse := by
  rw [evaluate, ← run_append, ← run_log]
  rfl

end Evaluation

open Evaluation

/-- The operator after both of its operands. -/
def BinaryOp.run (op : BinaryOp) (left right : Int32) : Run :=
  match op.apply left right with
  | .ok value => ⟨.ok value, []⟩
  | .error (event, error) => ⟨.error error, [event]⟩

theorem BinaryOp.run_of_ok {op : BinaryOp} {left right value : Int32}
    (applied : op.apply left right = .ok value) :
    op.run left right = ⟨.ok value, []⟩ := by
  rw [run, applied]

/-- The elements of a sequence one after the other. The last one gives the value. -/
def evaluateElements : List Expr → Run
  | [] => ⟨.error .emptySequence, [.emptySequence]⟩
  | [last] => evaluate last
  | first :: next :: following =>
      (evaluate first).andThen fun _ => evaluateElements (next :: following)

theorem evaluate_integerLiteral (value : Int32) :
    evaluate (.integerLiteral value) = ⟨.ok value, [.evaluating .integerLiteral]⟩ := by
  rw [evaluate, run, run]
  rfl

theorem run_rightOperand (op : BinaryOp) (left right : Int32) :
    run (.yield right) [.rightOperand op left] [] = op.run left right := by
  rw [run, BinaryOp.run]
  cases op.apply left right with
  | ok value => simp only [run, finish, List.reverse_nil]
  | error refusal => rfl

theorem evaluate_binaryOperator (op : BinaryOp) (left right : Expr) :
    evaluate (.binaryOperator op left right) =
      ((evaluate left).andThen fun leftValue =>
        (evaluate right).andThen (op.run leftValue)).entering .binaryOperator := by
  have afterLeft (leftValue : Int32) :
      run (.yield leftValue) [.leftOperand op right] [] =
        (evaluate right).andThen (op.run leftValue) := by
    rw [run, run_enter]
    simp only [run_rightOperand, List.reverse_nil, Run.after_nil]
  rw [evaluate, run, run_enter]
  simp only [afterLeft]
  rfl

theorem run_element (first : Expr) (following : List Expr) (log : List Event) :
    run (.enter first) [.element following] log =
      (evaluateElements (first :: following)).after log.reverse := by
  induction following generalizing first log with
  | nil =>
      have last (value : Int32) : run (.yield value) [.element []] [] = ⟨.ok value, []⟩ := by
        rw [run, run]
        rfl
      rw [evaluateElements, run_enter]
      simp only [last, Run.andThen_value]
  | cons next following inductionHypothesis =>
      have goOn (value : Int32) :
          run (.yield value) [.element (next :: following)] [] =
            evaluateElements (next :: following) := by
        rw [run, inductionHypothesis]
        rfl
      rw [evaluateElements, run_enter]
      simp only [goOn]

theorem evaluate_sequence (exprs : List Expr) :
    evaluate (.sequence exprs) = (evaluateElements exprs).entering .sequence := by
  cases exprs with
  | nil =>
      rw [evaluate, run]
      rfl
  | cons first following =>
      rw [evaluate, run, run_element]
      rfl

theorem evaluate_ifThenElse (condition thenPart elsePart : Expr) :
    evaluate (.ifThenElse condition thenPart elsePart) =
      ((evaluate condition).andThen fun value =>
        evaluate (if value != 0 then thenPart else elsePart)).entering .ifThenElse := by
  have branch (value : Int32) :
      run (.yield value) [.condition thenPart elsePart] [] =
        evaluate (if value != 0 then thenPart else elsePart) := by
    rw [run, evaluate]
  rw [evaluate, run, run_enter]
  simp only [branch]
  rfl

theorem evaluate_unsupported {expr : Expr} (unsupported : expr.kind.isEvaluable = false) :
    evaluate expr =
      ⟨.error (.unsupported expr.kind), [.evaluating expr.kind, .unsupported expr.kind]⟩ := by
  cases expr with
  | integerLiteral | binaryOperator | sequence | ifThenElse => cases unsupported
  | _ =>
      rw [evaluate, run.eq_def]
      rfl

/-- A node is of one of the four kinds that have values, or of a kind that has none. -/
@[elab_as_elim]
theorem Expr.casesEvaluable {motive : Expr → Prop} (expr : Expr)
    (integerLiteral : ∀ value, motive (.integerLiteral value))
    (binaryOperator : ∀ op left right, motive (.binaryOperator op left right))
    (sequence : ∀ exprs, motive (.sequence exprs))
    (ifThenElse : ∀ condition thenPart elsePart,
      motive (.ifThenElse condition thenPart elsePart))
    (unsupported : ∀ expr : Expr, expr.kind.isEvaluable = false → motive expr) : motive expr := by
  cases expr with
  | integerLiteral value => exact integerLiteral value
  | binaryOperator op left right => exact binaryOperator op left right
  | sequence exprs => exact sequence exprs
  | ifThenElse condition thenPart elsePart => exact ifThenElse condition thenPart elsePart
  | _ => exact unsupported _ rfl

/-- Nodes of a kind without values run alike. -/
theorem evaluate_eq_of_kind_eq {expr expr' : Expr} (unsupported : expr.kind.isEvaluable = false)
    (sameKind : expr'.kind = expr.kind) : evaluate expr' = evaluate expr := by
  rw [evaluate_unsupported unsupported, ← sameKind]
  exact evaluate_unsupported (sameKind ▸ unsupported)

end TigerTree
