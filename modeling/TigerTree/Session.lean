import TigerTree.Decode
import TigerTree.Reporter

set_option autoImplicit false

/-!
Sessions: sources are evaluated one after the other, and their errors gather in one reporter.
-/

namespace TigerTree

namespace Session

inductive Step where
  | evaluate (source : String)
  | record (error : EvalError)
  | emit
  | errors
  | take

/-- What a step answers. -/
inductive Reply where
  | undecodable (error : DecodeError)
  | evaluated (result : Except EvalError Int32)
  | recorded (event : Event) (error : EvalError)
  | emitted (text : String)
  | errors (errors : List EvalError)
  | taken (errors : List EvalError)

/-- An evaluation error is recorded; a source that cannot be decoded leaves no trace. Taking the
errors leaves a fresh reporter of the same name. -/
def Step.perform (reporter : Reporter) : Step → Reply × Reporter
  | evaluate source =>
      match (evaluateSource source).result with
      | .error error => (.undecodable error, reporter)
      | .ok (.ok value) => (.evaluated (.ok value), reporter)
      | .ok (.error error) => (.evaluated (.error error), (reporter.record error).1)
  | record error =>
      let (reporter, event) := reporter.record error
      (.recorded event error, reporter)
  | emit => (.emitted reporter.emit, reporter)
  | errors => (.errors reporter.errors, reporter)
  | take => (.taken reporter.errors, .new reporter.name)

/-- The replies to all steps, each with the reporter as it then stands. -/
def perform (reporter : Reporter) : List Step → List (Reply × Reporter)
  | [] => []
  | step :: steps =>
      let (reply, reporter) := step.perform reporter
      (reply, reporter) :: perform reporter steps

end Session

end TigerTree
