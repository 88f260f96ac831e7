import Mathlib.Data.List.Induction
import TigerTree.Proofs.Decode.RoundTrip
import TigerTree.Proofs.Evaluation.Compose
import TigerTree.Proofs.Report
import TigerTree.Session

set_option autoImplicit false

/-!
The books of a session.

Every step takes over the errors of the reporter and those it finds itself: it leaves them with the
reporter or gives them out. So no session loses, doubles or moves an error. What a step answers
depends on the past only through the errors that are still held. What is emitted is a report for
each of them, and a report holds what the error says.
-/

namespace TigerTree.Session

/-- The errors that a step brings, whatever came before it. -/
def Step.found : Step → List EvalError
  | evaluate source =>
      match (evaluateSource source).result with
      | .ok (.error error) => [error]
      | _ => []
  | record error => [error]
  | emit | errors | take => []

def Step.isTake : Step → Bool
  | take => true
  | _ => false

/-- A step that only looks: a source that cannot be decoded is evaluated, or the errors are
emitted or read. -/
def Step.Looks : Step → Prop
  | evaluate source => ∃ error, decode source = .error error
  | emit | errors => True
  | record _ | take => False

/-- The errors that a reply hands over. -/
def Reply.handedOver : Reply → List EvalError
  | taken handed => handed
  | _ => []

/-- The result of a source, if that is what a reply tells. -/
def Reply.result? : Reply → Option (Except DecodeError (Except EvalError Int32))
  | undecodable error => some (.error error)
  | evaluated result => some (.ok result)
  | _ => none

/-- All errors that have been taken, in the order of the steps that took them. -/
def allTaken (replies : List (Reply × Reporter)) : List EvalError :=
  replies.flatMap fun (reply, _) => reply.handedOver

/-- The steps after the last one that takes the errors. -/
def sinceTake (steps : List Step) : List Step :=
  (steps.reverse.takeWhile fun step => !step.isTake).reverse

theorem sinceTake_append_singleton (steps : List Step) (step : Step) :
    sinceTake (steps ++ [step]) = if step.isTake then [] else sinceTake steps ++ [step] := by
  cases step <;> simp [sinceTake, Step.isTake]

variable (reporter : Reporter) (step : Step)

theorem Step.name_perform : (step.perform reporter).2.name = reporter.name := by
  cases step with
  | evaluate source =>
      rw [perform]
      split <;> rfl
  | _ => rfl

/-- A step gives out or keeps the errors that were held before it and those it finds. -/
theorem Step.handedOver_append_errors :
    (step.perform reporter).1.handedOver ++ (step.perform reporter).2.errors =
      reporter.errors ++ step.found := by
  cases step with
  | evaluate source =>
      rw [perform, found]
      cases (evaluateSource source).result with
      | error error => simp [Reply.handedOver]
      | ok result =>
          cases result <;> simp [Reply.handedOver, Reporter.record]
  | take => simp [perform, found, Reply.handedOver, Reporter.new]
  | _ => simp [perform, found, Reply.handedOver, Reporter.record]

theorem Step.handedOver_of_not_isTake (keeps : step.isTake = false) :
    (step.perform reporter).1.handedOver = [] := by
  cases step with
  | evaluate source =>
      rw [perform]
      split <;> rfl
  | take => cases keeps
  | _ => rfl

theorem Step.Looks.perform_snd {step : Step} (looks : step.Looks) :
    (step.perform reporter).2 = reporter := by
  cases step with
  | evaluate source =>
      obtain ⟨error, failed⟩ := looks
      simp [perform, evaluateSource, failed]
  | emit | errors => rfl
  | record | take => exact looks.elim

theorem Step.result_perform (source : String) :
    ((evaluate source).perform reporter).1.result? = some (evaluateSource source).result := by
  rw [perform]
  split
  all_goals
    rename_i result
    rw [result]
    rfl

def reporterAfter (name : String) (past : List Step) : Reporter :=
  past.foldl (fun reporter step => (step.perform reporter).2) (.new name)

/-- The reply to a step that comes after others. -/
def answer (name : String) (past : List Step) (step : Step) : Reply :=
  (step.perform (reporterAfter name past)).1

theorem reporterAfter_append_singleton (name : String) (past : List Step) (step : Step) :
    reporterAfter name (past ++ [step]) = (step.perform (reporterAfter name past)).2 := by
  rw [reporterAfter, List.foldl_append]
  rfl

theorem perform_append (reporter : Reporter) (past later : List Step) :
    perform reporter (past ++ later) =
      perform reporter past ++
        perform (past.foldl (fun reporter step => (step.perform reporter).2) reporter) later := by
  induction past generalizing reporter with
  | nil => rfl
  | cons step past inductionHypothesis =>
      exact congrArg (step.perform reporter :: ·) (inductionHypothesis (step.perform reporter).2)

theorem perform_append_singleton (name : String) (past : List Step) (step : Step) :
    perform (.new name) (past ++ [step]) =
      perform (.new name) past ++
        [(answer name past step, reporterAfter name (past ++ [step]))] := by
  rw [perform_append, reporterAfter_append_singleton]
  rfl

theorem name_reporterAfter (name : String) (past : List Step) :
    (reporterAfter name past).name = name := by
  induction past using List.reverseRecOn with
  | nil => rfl
  | append_singleton past step inductionHypothesis =>
      rw [reporterAfter_append_singleton, Step.name_perform, inductionHypothesis]

theorem allTaken_append_errors (name : String) (past : List Step) :
    allTaken (perform (.new name) past) ++ (reporterAfter name past).errors =
      past.flatMap Step.found := by
  induction past using List.reverseRecOn with
  | nil => rfl
  | append_singleton past step inductionHypothesis =>
      have kept := step.handedOver_append_errors (reporterAfter name past)
      calc allTaken (perform (.new name) (past ++ [step])) ++
            (reporterAfter name (past ++ [step])).errors
        _ = allTaken (perform (.new name) past) ++
              ((answer name past step).handedOver ++
                (reporterAfter name (past ++ [step])).errors) := by
            rw [perform_append_singleton]
            simp [allTaken]
        _ = allTaken (perform (.new name) past) ++
              ((reporterAfter name past).errors ++ step.found) := by
            rw [answer, reporterAfter_append_singleton, kept]
        _ = past.flatMap Step.found ++ step.found := by
            rw [← List.append_assoc, inductionHypothesis]
        _ = (past ++ [step]).flatMap Step.found := by simp

theorem errors_reporterAfter (name : String) (past : List Step) :
    (reporterAfter name past).errors = (sinceTake past).flatMap Step.found := by
  induction past using List.reverseRecOn with
  | nil => rfl
  | append_singleton past step inductionHypothesis =>
      rw [reporterAfter_append_singleton, sinceTake_append_singleton]
      cases taking : step.isTake with
      | true =>
          cases step with
          | take => rfl
          | _ => cases taking
      | false =>
          have kept := step.handedOver_append_errors (reporterAfter name past)
          rw [step.handedOver_of_not_isTake _ taking, List.nil_append] at kept
          rw [kept, inductionHypothesis]
          simp

/-- How the books of a session stand after some steps. What has been taken and what is held make up
what has been found, and what is held has been found since the last taking. A next step adds one
reply. It has the result that a source has alone, or tells of the errors held, and if the step only
looks, the reporter stays as it is. The report of an error holds its code, the name of the session,
its message and its help. -/
structure Books (name : String) (past : List Step) : Prop where
  balanced :
    allTaken (perform (.new name) past) ++ (reporterAfter name past).errors =
      past.flatMap Step.found
  held : (reporterAfter name past).errors = (sinceTake past).flatMap Step.found
  count :
    (reporterAfter name past).errorCount = ((sinceTake past).flatMap Step.found).length
  hasErrors_iff :
    (reporterAfter name past).hasErrors = true ↔ 0 < (reporterAfter name past).errorCount
  next : ∀ step,
    perform (.new name) (past ++ [step]) =
      perform (.new name) past ++ [(answer name past step, reporterAfter name (past ++ [step]))]
  looks : ∀ step : Step, step.Looks →
    reporterAfter name (past ++ [step]) = reporterAfter name past
  evaluate : ∀ source,
    (answer name past (.evaluate source)).result? = some (evaluateSource source).result
  emit :
    answer name past .emit =
      .emitted (String.join ((reporterAfter name past).errors.map fun error =>
        (error.report name).render))
  reported : ∀ error : EvalError,
    Report.Holds ⟨some error.code, "while evaluating " ++ name, some error.message, error.help?⟩
      (error.report name).render
  errors : answer name past .errors = .errors (reporterAfter name past).errors
  take :
    answer name past .take = .taken (reporterAfter name past).errors ∧
      reporterAfter name (past ++ [.take]) = .new name

/-- In every session the errors that have been taken and those that are still held are the errors
that its sources and its user have brought, in order. -/
theorem books_kept (name : String) (past : List Step) : Books name past where
  balanced := allTaken_append_errors name past
  held := errors_reporterAfter name past
  count := by rw [Reporter.errorCount, errors_reporterAfter]
  hasErrors_iff := by
    rw [Reporter.hasErrors, Reporter.errorCount, List.length_pos_iff]
    simp
  next := perform_append_singleton name past
  looks := by
    intro step looks
    rw [reporterAfter_append_singleton, looks.perform_snd]
  evaluate := Step.result_perform _
  emit := by
    rw [answer, Step.perform, Reporter.emit, name_reporterAfter]
  reported := EvalError.holds_report name
  errors := rfl
  take := by
    refine ⟨rfl, ?_⟩
    rw [reporterAfter_append_singleton, Step.perform, name_reporterAfter]

theorem books_kept_taken :
    allTaken (perform (.new "t")
          [.evaluate "\x7b\"Break\":null\x7d", .take, .record .emptySequence]) ++
        (reporterAfter "t"
          [.evaluate "\x7b\"Break\":null\x7d", .take, .record .emptySequence]).errors =
      [.unsupported .breakOut, .emptySequence] ∧
    answer "t"
        [.record .emptySequence, .take, .record .divisionByZero,
          .evaluate "\x7b\"Break\":null\x7d"] .emit =
      .emitted ("eval::division_by_zero\n\n  × while evaluating t\n  ╰─▶ Division by zero\n\n" ++
        "eval::unsupported\n\n  × while evaluating t\n  ╰─▶ Break evaluation not implemented\n" ++
        "  help: only integer literals, binary operators, sequences and if-then-else\n" ++
        "        can be evaluated\n\n") ∧
    (answer "t" [.record .divisionByZero] (.evaluate "\x7b\"Break\":null\x7d")).result? =
      some (.ok (.error (.unsupported .breakOut))) ∧
    reporterAfter "t" ([.record .divisionByZero] ++ [.evaluate ""]) =
      reporterAfter "t" [.record .divisionByZero] := by
  have encoded : Expr.breakOut.encode = "\x7b\"Break\":null\x7d" := by decide +kernel
  have decoded := decode_encode_normalized .breakOut
  rw [encoded] at decoded
  have evaluated : (evaluateSource "\x7b\"Break\":null\x7d").result =
      .ok (.error (.unsupported .breakOut)) := by
    rw [evaluateSource, decoded, Expr.normalized]
    exact congrArg Except.ok (congrArg Run.result (evaluate_unsupported rfl))
  have found : (Step.evaluate "\x7b\"Break\":null\x7d").found = [.unsupported .breakOut] := by
    rw [Step.found, evaluated]
  refine ⟨(books_kept "t" _).balanced.trans ?_, (books_kept "t" _).emit.trans ?_,
    ((books_kept "t" _).evaluate _).trans (congrArg some evaluated),
    (books_kept "t" [.record .divisionByZero]).looks (.evaluate "") ⟨_, rfl⟩⟩
  · rw [List.flatMap_cons, found]
    rfl
  · have held : (reporterAfter "t" [.record .emptySequence, .take, .record .divisionByZero,
        .evaluate "\x7b\"Break\":null\x7d"]).errors =
          [.divisionByZero] ++ ([.unsupported .breakOut] ++ []) := by
      rw [(books_kept "t" _).held, ← found]
      rfl
    rw [held]
    exact congrArg Reply.emitted (by decide +kernel)

end TigerTree.Session
