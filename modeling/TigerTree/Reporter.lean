import TigerTree.Evaluation.Event
import TigerTree.Report

set_option autoImplicit false

/-!
Collecting the evaluation errors of one source.
-/

namespace TigerTree

/-- The report of an evaluation error in a source. -/
def EvalError.report (source : String) (error : EvalError) : Report where
  code := some error.code
  message := "while evaluating " ++ source
  cause := some error.message
  help := error.help?

/-- The errors found so far in a source, in the order in which they were found. -/
structure Reporter where
  name : String
  errors : List EvalError

namespace Reporter

def new (name : String) : Reporter := ⟨name, []⟩

/-- The reporter after another error, and the event that announces it. -/
def record (reporter : Reporter) (error : EvalError) : Reporter × Event :=
  (⟨reporter.name, reporter.errors ++ [error]⟩, .recorded reporter.name error)

def errorCount (reporter : Reporter) : Nat := reporter.errors.length

def hasErrors (reporter : Reporter) : Bool := !reporter.errors.isEmpty

/-- One report for each error. -/
def emit (reporter : Reporter) : String :=
  String.join (reporter.errors.map fun error => (error.report reporter.name).render)

end Reporter

end TigerTree
