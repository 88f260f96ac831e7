import TigerTree.Proofs.Evaluation.Result

set_option autoImplicit false

/-!
Frames around the part that is evaluated first.

Nothing in such a frame is evaluated before what fills it. So the result of the filling decides,
with whatever the frame makes of its value, and a fork or a sequence in front can leave the frames:
what comes first in it stays first, and the frames are put around what comes last.
-/

namespace TigerTree

/-- A node without the part that is evaluated first. -/
inductive LeadingFrame where
  | leftOperand (op : BinaryOp) (right : Expr)
  | condition (thenPart elsePart : Expr)
  | firstElement (following : List Expr)

namespace LeadingFrame

def fill (part : Expr) : LeadingFrame → Expr
  | leftOperand op right => .binaryOperator op part right
  | condition thenPart elsePart => .ifThenElse part thenPart elsePart
  | firstElement following => .sequence (part :: following)

/-- A tree in frames, the innermost of which comes first. -/
def fillAll (part : Expr) (frames : List LeadingFrame) : Expr := frames.foldl fill part

/-- What a frame makes of the value of its part. -/
def resume (value : Int32) : LeadingFrame → Except EvalError Int32
  | leftOperand op right =>
      (evaluate right).result >>= fun rightValue => (op.run value rightValue).result
  | condition thenPart elsePart =>
      if value != 0 then (evaluate thenPart).result else (evaluate elsePart).result
  | firstElement [] => .ok value
  | firstElement (next :: following) => (evaluateElements (next :: following)).result

theorem result_fill (frame : LeadingFrame) (part : Expr) :
    (evaluate (frame.fill part)).result =
      (evaluate part).result >>= fun value => frame.resume value := by
  cases frame with
  | leftOperand op right => exact result_binaryOperator op part right
  | condition thenPart elsePart => exact result_ifThenElse part thenPart elsePart
  | firstElement following =>
      rw [fill, result_sequence]
      cases following with
      | nil => exact (bind_pure _).symm
      | cons next following => exact result_elements_cons part (List.cons_ne_nil next following)

/-- Frames go on from the result of what fills them, always in the same way. -/
theorem exists_resumption (frames : List LeadingFrame) :
    ∃ next : Int32 → Except EvalError Int32, ∀ part,
      (evaluate (fillAll part frames)).result = (evaluate part).result >>= next := by
  induction frames with
  | nil => exact ⟨.ok, fun part => (bind_pure _).symm⟩
  | cons frame frames inductionHypothesis =>
      obtain ⟨next, resumes⟩ := inductionHypothesis
      refine ⟨fun value => frame.resume value >>= next, ?_⟩
      intro part
      calc (evaluate (fillAll (frame.fill part) frames)).result
        _ = (evaluate (frame.fill part)).result >>= next := resumes _
        _ = ((evaluate part).result >>= fun value => frame.resume value) >>= next := by
            rw [result_fill]
        _ = (evaluate part).result >>= fun value => frame.resume value >>= next := bind_assoc _ _ _

end LeadingFrame

open LeadingFrame (fillAll exists_resumption)

/-- To go on after a sequence is to go on after its last element. -/
theorem result_elements_bind {last last' : Expr} {next : Int32 → Except EvalError Int32}
    (resumes : (evaluate last').result = (evaluate last).result >>= next) (exprs : List Expr) :
    (evaluateElements (exprs ++ [last'])).result =
      (evaluateElements (exprs ++ [last])).result >>= next := by
  induction exprs with
  | nil => exact resumes
  | cons first exprs inductionHypothesis =>
      rw [List.cons_append, List.cons_append, result_elements_cons _ (by simp),
        result_elements_cons _ (by simp), inductionHypothesis, bind_assoc]

/-- A fork in front of frames can be taken before them, and the elements of a sequence but the last
can run before them. The result is the same, be it a value or an error. -/
theorem result_fillAll_commutes (frames : List LeadingFrame) :
    (∀ condition thenPart elsePart,
      (evaluate (fillAll (.ifThenElse condition thenPart elsePart) frames)).result =
        (evaluate (.ifThenElse condition (fillAll thenPart frames)
          (fillAll elsePart frames))).result) ∧
    ∀ exprs last,
      (evaluate (fillAll (.sequence (exprs ++ [last])) frames)).result =
        (evaluate (.sequence (exprs ++ [fillAll last frames]))).result := by
  obtain ⟨next, resumes⟩ := exists_resumption frames
  constructor
  · intro condition thenPart elsePart
    rw [resumes, result_ifThenElse, result_ifThenElse, resumes, resumes, bind_assoc]
    apply bind_congr
    intro value
    exact apply_ite (· >>= next) _ _ _
  · intro exprs last
    rw [resumes, result_sequence, result_sequence, result_elements_bind (resumes last)]

end TigerTree
