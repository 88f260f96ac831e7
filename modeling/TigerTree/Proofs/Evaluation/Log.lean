import TigerTree.Proofs.Decode.RoundTrip
import TigerTree.Proofs.Evaluation.Raised

set_option autoImplicit false

/-!
What runs log.

A run traces the nodes that it enters and logs nothing else, until it fails. Then one debug event,
the last of all, tells of the error. Which event that is follows from the node that raises the
error, since the run of a tree ends as the run of that node does.
-/

namespace TigerTree

/-- An event is shown at a level with a message. -/
def Event.Reads (event : Event) (level : Level) (message : String) : Prop :=
  event.level = level ∧ event.message = message

def Traced (events : List Event) : Prop := ∀ event ∈ events, event.level = .trace

theorem Traced.append {events later : List Event} (traced : Traced events)
    (laterTraced : Traced later) : Traced (events ++ later) :=
  List.forall_mem_append.mpr ⟨traced, laterTraced⟩

namespace Run

variable {run part : Run} {next : Int32 → Run}

/-- A run logs trace events, and if it fails, one debug event at the end. -/
structure Disciplined (run : Run) : Prop where
  traced : ∀ value, run.result = .ok value → Traced run.events
  announced : ∀ error, run.result = .error error →
    ∃ earlier last, run.events = earlier ++ [last] ∧ Traced earlier ∧ last.level = .debug

theorem disciplined_value (value : Int32) : (⟨.ok value, []⟩ : Run).Disciplined where
  traced := by
    intro _ _ event mem
    cases mem
  announced := nofun

theorem disciplined_refusal {event : Event} (error : EvalError) (debug : event.level = .debug) :
    (⟨.error error, [event]⟩ : Run).Disciplined where
  traced := nofun
  announced := by
    intro _ _
    refine ⟨[], event, rfl, ?_, debug⟩
    intro _ mem
    cases mem

theorem Disciplined.after {earlier : List Event} (disciplined : run.Disciplined)
    (traced : Traced earlier) : (run.after earlier).Disciplined where
  traced := by
    intro value succeeded
    exact traced.append (disciplined.traced value succeeded)
  announced := by
    intro error failed
    obtain ⟨between, last, events, betweenTraced, debug⟩ := disciplined.announced error failed
    refine ⟨earlier ++ between, last, ?_, traced.append betweenTraced, debug⟩
    rw [Run.after, events, List.append_assoc]

theorem Disciplined.entering {kind : NodeKind} (disciplined : run.Disciplined) :
    (run.entering kind).Disciplined := by
  apply disciplined.after
  simp [Traced, Event.level]

theorem Disciplined.andThen (disciplined : run.Disciplined)
    (nextDisciplined : ∀ value, (next value).Disciplined) : (run.andThen next).Disciplined := by
  cases outcome : run.result with
  | ok value =>
      rw [andThen_of_ok outcome]
      exact (nextDisciplined value).after (disciplined.traced value outcome)
  | error error => rwa [andThen_of_error outcome]

theorem EndsAs.getLast?_events {event : Event} (ends : run.EndsAs part)
    (last : part.events.getLast? = some event) : run.events.getLast? = some event := by
  obtain ⟨earlier, rfl⟩ := ends
  simp [Run.after, last]

end Run

open Run (disciplined_value disciplined_refusal)

theorem BinaryOp.disciplined_run (op : BinaryOp) (left right : Int32) :
    (op.run left right).Disciplined := by
  cases op with
  | div =>
      by_cases zero : right = 0
      · subst zero
        exact disciplined_refusal _ rfl
      · have applied : apply .div left right = .ok (left / right) := by simp [apply, zero]
        rw [run_of_ok applied]
        exact disciplined_value _
  | other symbol => exact disciplined_refusal _ rfl
  | _ => exact disciplined_value _

namespace Expr

mutual

theorem disciplined_evaluate : (expr : Expr) → (evaluate expr).Disciplined
  | integerLiteral value => by
      rw [evaluate_integerLiteral]
      exact (disciplined_value value).entering
  | binaryOperator op left right => by
      rw [evaluate_binaryOperator]
      refine ((disciplined_evaluate left).andThen ?_).entering
      intro leftValue
      refine (disciplined_evaluate right).andThen ?_
      intro rightValue
      exact op.disciplined_run leftValue rightValue
  | sequence exprs => by
      rw [evaluate_sequence]
      exact (disciplined_evaluateElements exprs).entering
  | ifThenElse condition thenPart elsePart => by
      rw [evaluate_ifThenElse]
      refine ((disciplined_evaluate condition).andThen ?_).entering
      intro value
      split
      · exact disciplined_evaluate thenPart
      · exact disciplined_evaluate elsePart
  | stringLiteral _ | identifier _ | letIn _ _ | varDecl _ | funDecl _ _ _ _ | funCall _ _
  | whileLoop _ _ | forLoop _ _ _ _ | breakOut | assign _ _ => by
      rw [evaluate_unsupported rfl]
      exact (disciplined_refusal _ rfl).entering

theorem disciplined_evaluateElements : (exprs : List Expr) → (evaluateElements exprs).Disciplined
  | [] => disciplined_refusal _ rfl
  | [last] => disciplined_evaluate last
  | first :: next :: following => by
      rw [evaluateElements]
      refine (disciplined_evaluate first).andThen ?_
      intro _
      exact disciplined_evaluateElements (next :: following)

end

variable {expr : Expr} {error : EvalError}

theorem exists_events_eq_cons (expr : Expr) :
    ∃ later, (evaluate expr).events = .evaluating expr.kind :: later := by
  cases expr using casesEvaluable with
  | integerLiteral value =>
      rw [evaluate_integerLiteral]
      exact ⟨_, rfl⟩
  | binaryOperator op left right =>
      rw [evaluate_binaryOperator]
      exact ⟨_, rfl⟩
  | sequence exprs =>
      rw [evaluate_sequence]
      exact ⟨_, rfl⟩
  | ifThenElse condition thenPart elsePart =>
      rw [evaluate_ifThenElse]
      exact ⟨_, rfl⟩
  | unsupported expr unsupported =>
      rw [evaluate_unsupported unsupported]
      exact ⟨_, rfl⟩

/-- The text that tells of an error of a tree. A division by zero is told with the value of the
left operand, at a division that is entered. -/
def Tells (expr : Expr) (text : String) : EvalError → Prop
  | .emptySequence => text = "empty sequence"
  | .unknownOperator op => text = "unknown binary operator `" ++ op.symbol ++ "`"
  | .unsupported kind => text = kind.name ++ " cannot be evaluated"
  | .divisionByZero =>
      ∃ path left right dividend, expr.Reaches path (binaryOperator .div left right) ∧
        (evaluate left).result = .ok dividend ∧ (evaluate right).result = .ok 0 ∧
        text = "division by zero: " ++ decimalText dividend.toInt ++ " / 0"

theorem exists_getLast?_events (failed : (evaluate expr).result = .error error) :
    ∃ event, (evaluate expr).events.getLast? = some event ∧ expr.Tells event.message error := by
  obtain ⟨path, node, reaches, raises⟩ := exists_raisesAt failed
  have ends := reaches.endsAs raises.fails
  cases error with
  | unsupported kind =>
      obtain ⟨rfl, unsupported⟩ := raises
      rw [evaluate_unsupported unsupported] at ends
      exact ⟨_, ends.getLast?_events rfl, rfl⟩
  | emptySequence =>
      cases raises
      rw [evaluate_emptySequence] at ends
      exact ⟨_, ends.getLast?_events rfl, rfl⟩
  | unknownOperator op =>
      obtain ⟨symbol, left, right, rfl, rfl, ⟨_, leftSucceeded⟩, ⟨_, rightSucceeded⟩⟩ := raises
      have operatorEnds := endsAs_operator (.other symbol) leftSucceeded rightSucceeded
      exact ⟨_, (ends.trans operatorEnds).getLast?_events rfl, rfl⟩
  | divisionByZero =>
      obtain ⟨left, right, rfl, ⟨dividend, leftSucceeded⟩, rightSucceeded⟩ := raises
      have operatorEnds := endsAs_operator .div leftSucceeded rightSucceeded
      exact ⟨_, (ends.trans operatorEnds).getLast?_events rfl,
        path, left, right, dividend, reaches, leftSucceeded, rightSucceeded, rfl⟩

theorem exists_announcement (failed : (evaluate expr).result = .error error) :
    ∃ earlier last text, (evaluate expr).events = earlier ++ [last] ∧ Traced earlier ∧
      last.Reads .debug text ∧ expr.Tells text error := by
  obtain ⟨earlier, last, events, traced, debug⟩ := expr.disciplined_evaluate.announced error failed
  obtain ⟨event, lastEvent, tells⟩ := exists_getLast?_events failed
  -- The discipline leaves open which event comes last; the node that raises the error settles it.
  rw [events, List.getLast?_concat, Option.some.injEq] at lastEvent
  subst lastEvent
  exact ⟨earlier, last, last.message, events, traced, ⟨debug, rfl⟩, tells⟩

end Expr

/-- The log of a tree begins with its root and holds trace events, and if the tree fails, one debug
event at the end that tells of the error. A source that is no tree logs nothing. Any other one logs
the kind of its tree, and then what the tree logs. -/
theorem events_disciplined :
    (∀ expr,
      (∃ first later, (evaluate expr).events = first :: later ∧
        first.Reads .trace ("evaluating " ++ expr.kind.name)) ∧
      (∀ value, (evaluate expr).result = .ok value → Traced (evaluate expr).events) ∧
      ∀ error, (evaluate expr).result = .error error →
        ∃ earlier last text, (evaluate expr).events = earlier ++ [last] ∧ Traced earlier ∧
          last.Reads .debug text ∧ expr.Tells text error) ∧
    ∀ source,
      (∀ error, decode source = .error error → (evaluateSource source).events = []) ∧
      ∀ expr, decode source = .ok expr →
        ∃ first, first.Reads .debug ("decoded " ++ expr.kind.name ++ " tree") ∧
          (evaluateSource source).events = first :: (evaluate expr).events := by
  refine ⟨fun expr => ⟨?_, expr.disciplined_evaluate.traced, fun _ => Expr.exists_announcement⟩,
    fun source => ⟨?_, ?_⟩⟩
  · obtain ⟨later, events⟩ := expr.exists_events_eq_cons
    exact ⟨_, later, events, rfl, rfl⟩
  · intro error failed
    rw [evaluateSource, failed]
  · intro expr decoded
    rw [evaluateSource, decoded]
    exact ⟨_, ⟨rfl, rfl⟩, rfl⟩

theorem events_disciplined_quotient :
    (∃ earlier last text,
      (evaluate (.binaryOperator .div (.integerLiteral 7) (.integerLiteral 0))).events =
        earlier ++ [last] ∧ Traced earlier ∧ last.Reads .debug text ∧
        (Expr.binaryOperator .div (.integerLiteral 7) (.integerLiteral 0)).Tells text
          .divisionByZero) ∧
    Traced (evaluate (.integerLiteral 7)).events ∧
    (evaluateSource "").events = [] ∧
    ∃ first, first.Reads .debug "decoded IntegerLiteral tree" ∧
      (evaluateSource (Expr.integerLiteral 7).encode).events =
        first :: (evaluate (.integerLiteral 7)).events := by
  have raises : (Expr.binaryOperator .div (.integerLiteral 7) (.integerLiteral 0)).Raises
      .divisionByZero :=
    ⟨_, _, rfl, ⟨7, by rw [evaluate_integerLiteral]⟩, by rw [evaluate_integerLiteral]⟩
  obtain ⟨trees, sources⟩ := events_disciplined
  refine ⟨(trees _).2.2 _ raises.fails, (trees _).2.1 7 ?_, (sources "").1 _ rfl, ?_⟩
  · rw [evaluate_integerLiteral]
  · exact (sources _).2 _ (decode_encode_normalized (.integerLiteral 7))

end TigerTree
