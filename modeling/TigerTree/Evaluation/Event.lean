import TigerTree.Evaluation.Error
import TigerTree.Text.Decimal

set_option autoImplicit false

/-!
What is logged while trees are decoded, evaluated and reported. Each event has a level, the part
of the program it comes from, and a message.
-/

namespace TigerTree

inductive Level where
  | trace | debug | info
  deriving DecidableEq

def Level.name : Level → String
  | trace => "TRACE"
  | debug => "DEBUG"
  | info => "INFO"

inductive Event where
  | decoded (kind : NodeKind)
  | evaluating (kind : NodeKind)
  | emptySequence
  | unknownOperator (op : BinaryOp)
  | divisionByZero (dividend : Int32)
  | unsupported (kind : NodeKind)
  | recorded (source : String) (error : EvalError)
  deriving DecidableEq

namespace Event

/-- Entering a node is traced; everything else is a debug event. -/
def level : Event → Level
  | evaluating _ => .trace
  | _ => .debug

def origin : Event → String
  | decoded _ => "tiger_eval"
  | recorded .. => "tiger_eval::diagnostics"
  | _ => "tiger_eval::interp::eval"

def message : Event → String
  | decoded kind => "decoded " ++ kind.name ++ " tree"
  | evaluating kind => "evaluating " ++ kind.name
  | emptySequence => "empty sequence"
  | unknownOperator op => "unknown binary operator `" ++ op.symbol ++ "`"
  | divisionByZero dividend => "division by zero: " ++ decimalText dividend.toInt ++ " / 0"
  | unsupported kind => kind.name ++ " cannot be evaluated"
  | recorded source error => source ++ ": recorded `" ++ error.message ++ "`"

end Event

end TigerTree
