import TigerTree.Evaluation.Event
import TigerTree.Expr

set_option autoImplicit false

/-!
The value of a tree.

Evaluation is a machine whose pending work stands in a list of frames, so the depth of a tree is
bounded by nothing but memory. The machine either looks at a node, which it logs on entry, or
hands a value to the innermost frame. The first error ends the run and discards all frames.
-/

namespace TigerTree

/-- What a run leaves behind: its result and everything logged on the way, in order. -/
structure Run where
  result : Except EvalError Int32
  events : List Event

/-- 1 for a comparison that holds and 0 for one that fails. -/
def truthValue (holds : Bool) : Int32 := if holds then 1 else 0

/-- The operator at two values. Sums, differences, products and quotients are taken modulo
2 ^ 32, and quotients are rounded toward zero. A refusal comes with the event that announces it. -/
def BinaryOp.apply (op : BinaryOp) (left right : Int32) : Except (Event × EvalError) Int32 :=
  match op with
  | add => .ok (left + right)
  | sub => .ok (left - right)
  | mul => .ok (left * right)
  | div =>
      if right == 0 then .error (.divisionByZero left, .divisionByZero) else .ok (left / right)
  | eq => .ok (truthValue (left == right))
  | ne => .ok (truthValue (left != right))
  | lt => .ok (truthValue (left < right))
  | le => .ok (truthValue (left ≤ right))
  | gt => .ok (truthValue (right < left))
  | ge => .ok (truthValue (right ≤ left))
  | other symbol => .error (.unknownOperator (other symbol), .unknownOperator (other symbol))

namespace Evaluation

/-- Work that waits for the value of a part. -/
inductive Frame where
  | leftOperand (op : BinaryOp) (right : Expr)
  | rightOperand (op : BinaryOp) (left : Int32)
  | condition (thenPart elsePart : Expr)
  | element (following : List Expr)

inductive Focus where
  | enter (expr : Expr)
  | yield (value : Int32)

/-- The number of nodes that a frame may still visit. -/
def Frame.pending : Frame → Nat
  | leftOperand _ right => right.size
  | rightOperand _ _ => 0
  | condition thenPart elsePart => thenPart.size + elsePart.size
  | element following => Expr.sizeAll following

def pendingAll : List Frame → Nat
  | [] => 0
  | frame :: frames => frame.pending + pendingAll frames

/-- Every step visits a node, drops a frame or turns from a value to a node. -/
def weight (focus : Focus) (frames : List Frame) : Nat :=
  3 * pendingAll frames + 2 * frames.length +
    match focus with
    | .enter expr => 3 * expr.size
    | .yield _ => 1

/-- The log is kept with its latest event first. -/
def finish (result : Except EvalError Int32) (log : List Event) : Run := ⟨result, log.reverse⟩

def refuse (event : Event) (error : EvalError) (log : List Event) : Run :=
  finish (.error error) (event :: log)

def run (focus : Focus) (frames : List Frame) (log : List Event) : Run :=
  match focus, frames with
  | .enter expr, frames =>
      let log := .evaluating expr.kind :: log
      match expr with
      | .integerLiteral value => run (.yield value) frames log
      | .binaryOperator op left right => run (.enter left) (.leftOperand op right :: frames) log
      | .sequence [] => refuse .emptySequence .emptySequence log
      | .sequence (first :: following) => run (.enter first) (.element following :: frames) log
      | .ifThenElse condition thenPart elsePart =>
          run (.enter condition) (.condition thenPart elsePart :: frames) log
      | other => refuse (.unsupported other.kind) (.unsupported other.kind) log
  | .yield value, [] => finish (.ok value) log
  | .yield left, .leftOperand op right :: frames =>
      run (.enter right) (.rightOperand op left :: frames) log
  | .yield right, .rightOperand op left :: frames =>
      match op.apply left right with
      | .ok value => run (.yield value) frames log
      | .error (event, error) => refuse event error log
  | .yield value, .condition thenPart elsePart :: frames =>
      run (.enter (if value != 0 then thenPart else elsePart)) frames log
  | .yield value, .element [] :: frames => run (.yield value) frames log
  | .yield _, .element (next :: following) :: frames =>
      run (.enter next) (.element following :: frames) log
termination_by weight focus frames
decreasing_by
  all_goals simp +arith [weight, pendingAll, Frame.pending, Expr.size, Expr.sizeAll]
  split <;> omega

end Evaluation

def evaluate (expr : Expr) : Run := Evaluation.run (.enter expr) [] []

end TigerTree
