import TigerTree.Kind
import TigerTree.Operator

set_option autoImplicit false

/-!
The reasons why a tree has no value, with the words, the code and the advice shown for each.
-/

namespace TigerTree

inductive EvalError where
  | divisionByZero
  | unknownOperator (op : BinaryOp)
  | emptySequence
  | unsupported (kind : NodeKind)
  deriving DecidableEq

namespace EvalError

def message : EvalError → String
  | divisionByZero => "Division by zero"
  | unknownOperator op => "Unknown binary operator `" ++ op.symbol ++ "`"
  | emptySequence => "Empty sequence"
  | unsupported kind => kind.name ++ " evaluation not implemented"

def code : EvalError → String
  | divisionByZero => "eval::division_by_zero"
  | unknownOperator _ => "eval::unknown_operator"
  | emptySequence => "eval::empty_sequence"
  | unsupported _ => "eval::unsupported"

def help? : EvalError → Option String
  | divisionByZero | emptySequence => none
  | unknownOperator _ => some "supported operators are + - * / = <> < <= > >="
  | unsupported _ =>
      some "only integer literals, binary operators, sequences and if-then-else can be evaluated"

end EvalError

end TigerTree
