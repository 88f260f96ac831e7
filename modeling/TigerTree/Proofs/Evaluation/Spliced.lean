import Mathlib.Logic.Relation
import TigerTree.Proofs.Evaluation.Congruence
import TigerTree.Proofs.Evaluation.Raised

set_option autoImplicit false

/-!
Sequences within sequences.

A sequence that is an element of another one runs its elements where it stands, and the last of
them gives its value. So its elements can take its place, be it the first, the last or between
others, and no result changes. An empty sequence has no value to give, and nothing takes its place.
-/

namespace TigerTree

namespace Expr

/-- The elements of a sequence among others take its place, if there are any. -/
inductive SplicesElement : List Expr → List Expr → Prop where
  | intro {before nested after : List Expr} :
      nested ≠ [] →
      SplicesElement (before ++ sequence nested :: after) (before ++ (nested ++ after))

/-- A sequence is spliced into the one that a node consists of or has as its body. -/
inductive SplicesPart : Expr → Expr → Prop where
  | sequence {exprs exprs' : List Expr} :
      SplicesElement exprs exprs' → SplicesPart (sequence exprs) (sequence exprs')
  | body {decls body body' : List Expr} :
      SplicesElement body body' → SplicesPart (letIn decls body) (letIn decls body')

/-- A sequence is spliced somewhere in a tree. -/
def SplicesOnce (expr expr' : Expr) : Prop :=
  ∃ path node node', expr.at? path = some node ∧ SplicesPart node node' ∧
    expr' = expr.replaceAt path node'

/-- Sequences are spliced one after the other. -/
def Splices : Expr → Expr → Prop := Relation.ReflTransGen SplicesOnce

end Expr

theorem result_elements_prefix_congr {exprs exprs' : List Expr} (more : exprs ≠ [])
    (more' : exprs' ≠ [])
    (same : (evaluateElements exprs').result = (evaluateElements exprs).result)
    (before : List Expr) :
    (evaluateElements (before ++ exprs')).result = (evaluateElements (before ++ exprs)).result := by
  by_cases nothing : before = []
  · subst nothing
    exact same
  · rw [result_elements_append nothing more', result_elements_append nothing more, same]

theorem result_elements_nested {nested : List Expr} (more : nested ≠ []) (after : List Expr) :
    (evaluateElements (nested ++ after)).result =
      (evaluateElements (.sequence nested :: after)).result := by
  by_cases last : after = []
  · subst last
    rw [List.append_nil, evaluateElements, result_sequence]
  · rw [result_elements_append more last, result_elements_cons _ last, result_sequence]

theorem Expr.SplicesElement.result_eq {exprs exprs' : List Expr}
    (splices : SplicesElement exprs exprs') :
    (evaluateElements exprs').result = (evaluateElements exprs).result := by
  obtain ⟨more⟩ := splices
  exact result_elements_prefix_congr (List.cons_ne_nil _ _)
    (List.append_ne_nil_of_left_ne_nil more _) (result_elements_nested more _) _

theorem result_elements_of_succeed {before exprs : List Expr} (more : exprs ≠ [])
    (succeed : ∀ element ∈ before, (evaluate element).Succeeds) :
    (evaluateElements (before ++ exprs)).result = (evaluateElements exprs).result := by
  induction before with
  | nil => rfl
  | cons first before inductionHypothesis =>
      rw [List.forall_mem_cons] at succeed
      obtain ⟨⟨value, succeeded⟩, succeed⟩ := succeed
      rw [List.cons_append, result_elements_cons _ (List.append_ne_nil_of_right_ne_nil _ more),
        inductionHypothesis succeed, succeeded]
      rfl

theorem result_elements_emptySequence (after : List Expr) :
    (evaluateElements (.sequence [] :: after)).result = .error .emptySequence := by
  by_cases last : after = []
  · rw [last, evaluateElements, evaluate_emptySequence]
  · rw [result_elements_cons _ last, evaluate_emptySequence]
    rfl

namespace Expr

variable {expr expr' : Expr}

theorem SplicesPart.result_eq (splices : SplicesPart expr expr') :
    (evaluate expr').result = (evaluate expr).result := by
  cases splices with
  | sequence elements => rw [result_sequence, result_sequence, elements.result_eq]
  | body =>
      rw [result_unsupported rfl, result_unsupported rfl]
      rfl

theorem SplicesOnce.result_eq (splices : SplicesOnce expr expr') :
    (evaluate expr').result = (evaluate expr).result := by
  obtain ⟨path, node, node', found, part, rfl⟩ := splices
  apply result_replaceAt_of_same
  intro other found'
  cases found.symm.trans found'
  exact part.result_eq

theorem Splices.result_eq (splices : expr.Splices expr') :
    (evaluate expr').result = (evaluate expr).result := by
  induction splices with
  | refl => rfl
  | tail _ once inductionHypothesis => exact once.result_eq.trans inductionHypothesis

end Expr

/-- To put the elements of sequences in their places in the sequences around them, anywhere in a
tree and any number of times, keeps the result. An empty sequence that is reached fails. -/
theorem result_splices :
    (∀ expr expr' : Expr, expr.Splices expr' →
      (evaluate expr').result = (evaluate expr).result) ∧
    ∀ before after : List Expr, (∀ element ∈ before, (evaluate element).Succeeds) →
      (evaluate (.sequence (before ++ .sequence [] :: after))).result = .error .emptySequence := by
  refine ⟨fun _ _ splices => splices.result_eq, ?_⟩
  intro before after succeed
  rw [result_sequence, result_elements_of_succeed (List.cons_ne_nil _ _) succeed,
    result_elements_emptySequence]

/-- A sequence in a sequence in a sequence, at the end and at the beginning, and one that is empty
after an element with a value. -/
theorem result_splices_condition :
    (evaluate (.ifThenElse (.sequence [.integerLiteral 1, .integerLiteral 0, .funCall "f" []])
        .breakOut (.integerLiteral 7))).result =
      (evaluate (.ifThenElse (.sequence [.integerLiteral 1,
        .sequence [.sequence [.integerLiteral 0], .funCall "f" []]])
          .breakOut (.integerLiteral 7))).result ∧
    (evaluate (.sequence [.integerLiteral 1, .sequence [], .breakOut])).result =
      .error .emptySequence := by
  constructor
  · apply result_splices.1
    refine .tail (.single ⟨[.condition], _, _, rfl, .sequence (@Expr.SplicesElement.intro
      [.integerLiteral 1] _ [] (List.cons_ne_nil _ _)), rfl⟩) ?_
    exact ⟨[.condition], _, _, rfl, .sequence (@Expr.SplicesElement.intro
      [.integerLiteral 1] [.integerLiteral 0] [.funCall "f" []] (List.cons_ne_nil _ _)), rfl⟩
  · apply result_splices.2 [.integerLiteral 1] [.breakOut]
    intro element mem
    rw [List.mem_singleton] at mem
    subst mem
    exact ⟨1, result_integerLiteral 1⟩

end TigerTree
