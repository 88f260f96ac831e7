import TigerTree.Proofs.Evaluation.Result
import TigerTree.Proofs.Expr.Replacement

set_option autoImplicit false

/-!
Parts with the same result can stand for one another.

The result of a node depends on the results of its parts alone, and on no other property of them.
So does the result of a tree on that of a part at any depth, whether evaluation reaches the part or
not. In particular a part that has a value can be replaced by the literal of it, and so can any
number of parts.
-/

namespace TigerTree

theorem result_elements_modify_congr {f f' : Expr → Expr} {exprs : List Expr} {index : Nat}
    (same : ∀ child, exprs[index]? = some child →
      (evaluate (f child)).result = (evaluate (f' child)).result) :
    (evaluateElements (exprs.modify index f)).result =
      (evaluateElements (exprs.modify index f')).result := by
  induction exprs generalizing index with
  | nil => rw [List.modify_nil, List.modify_nil]
  | cons first following inductionHypothesis =>
      by_cases last : following = []
      · subst last
        cases index with
        | zero => exact same first rfl
        | succ index => simp
      · cases index with
        | zero =>
            rw [List.modify_zero_cons, List.modify_zero_cons, result_elements_cons _ last,
              result_elements_cons _ last, same first rfl]
        | succ index =>
            have more (g : Expr → Expr) : following.modify index g ≠ [] := by
              rwa [ne_eq, List.modify_eq_nil_iff]
            rw [List.modify_succ_cons, List.modify_succ_cons, result_elements_cons _ (more f),
              result_elements_cons _ (more f'), inductionHypothesis same]

namespace Expr

variable {expr : Expr} {path : List Edge}

theorem result_modifyChild_congr {f f' : Expr → Expr} {edge : Edge}
    (same : ∀ child, expr.child? edge = some child →
      (evaluate (f child)).result = (evaluate (f' child)).result) :
    (evaluate (expr.modifyChild f edge)).result = (evaluate (expr.modifyChild f' edge)).result := by
  cases expr using casesEvaluable with
  | integerLiteral value => cases edge <;> rfl
  | binaryOperator op left right =>
      cases edge with
      | left =>
          rw [modifyChild, modifyChild, result_binaryOperator, result_binaryOperator,
            same left rfl]
      | right =>
          rw [modifyChild, modifyChild, result_binaryOperator, result_binaryOperator,
            same right rfl]
      | _ => rfl
  | sequence exprs =>
      cases edge with
      | element index =>
          rw [modifyChild, modifyChild, result_sequence, result_sequence,
            result_elements_modify_congr same]
      | _ => rfl
  | ifThenElse condition thenPart elsePart =>
      cases edge with
      | condition =>
          rw [modifyChild, modifyChild, result_ifThenElse, result_ifThenElse, same condition rfl]
      | thenPart =>
          rw [modifyChild, modifyChild, result_ifThenElse, result_ifThenElse, same thenPart rfl]
      | elsePart =>
          rw [modifyChild, modifyChild, result_ifThenElse, result_ifThenElse, same elsePart rfl]
      | _ => rfl
  | unsupported expr unsupported =>
      have keepsKind (g : Expr → Expr) :
          evaluate (expr.modifyChild g edge) = evaluate expr :=
        evaluate_eq_of_kind_eq unsupported (kind_modifyChild g edge expr)
      rw [keepsKind f, keepsKind f']

theorem result_replaceAt_congr {part part' : Expr}
    (same : (evaluate part).result = (evaluate part').result) :
    (evaluate (expr.replaceAt path part)).result =
      (evaluate (expr.replaceAt path part')).result := by
  induction path generalizing expr with
  | nil => exact same
  | cons edge path inductionHypothesis =>
      apply result_modifyChild_congr
      intro child _
      exact inductionHypothesis

/-- To put something with the same result in the place of a part keeps the result of the tree. -/
theorem result_replaceAt_of_same {part : Expr}
    (same : ∀ node, expr.at? path = some node →
      (evaluate part).result = (evaluate node).result) :
    (evaluate (expr.replaceAt path part)).result = (evaluate expr).result := by
  induction path generalizing expr with
  | nil => exact same expr rfl
  | cons edge path inductionHypothesis =>
      have sameChild (child : Expr) (present : expr.child? edge = some child) :
          (evaluate (child.replaceAt path part)).result = (evaluate (id child)).result := by
        apply inductionHypothesis
        intro node found
        exact same node ((at?_cons present path).trans found)
      calc (evaluate (expr.replaceAt (edge :: path) part)).result
        _ = (evaluate (expr.modifyChild id edge)).result := result_modifyChild_congr sameChild
        _ = (evaluate expr).result := by rw [modifyChild_id]

/-- What stands at a position, if anything does, has a value. -/
def HasValueAt (expr : Expr) (path : List Edge) (value : Int32) : Prop :=
  ∀ node, expr.at? path = some node → (evaluate node).result = .ok value

/-- The tree with literals at some positions. A position below one that has become a literal is
gone, and nothing happens there any more. -/
def foldConstants (expr : Expr) (constants : List (List Edge × Int32)) : Expr :=
  constants.foldl (fun expr (path, value) => expr.replaceAt path (.integerLiteral value)) expr

variable {value value' : Int32}

theorem HasValueAt.result_replaceAt (constant : expr.HasValueAt path value) :
    (evaluate (expr.replaceAt path (.integerLiteral value))).result = (evaluate expr).result := by
  apply result_replaceAt_of_same
  intro node found
  rw [result_integerLiteral, constant node found]

theorem HasValueAt.of_cons {edge : Edge} {child : Expr}
    (constant : expr.HasValueAt (edge :: path) value) (present : expr.child? edge = some child) :
    child.HasValueAt path value := by
  intro node found
  exact constant node ((at?_cons present path).trans found)

/-- A literal in the place of a part with its value leaves every position with the value it had. -/
theorem HasValueAt.replaceAt {path' : List Edge} (constant : expr.HasValueAt path value)
    (constant' : expr.HasValueAt path' value') :
    (expr.replaceAt path (.integerLiteral value)).HasValueAt path' value' := by
  -- The two positions are followed side by side. If the second ends first, the literal lies in what
  -- stands there and does not change its result. If the first does, nothing stands at the second.
  induction path generalizing expr path' with
  | nil =>
      intro node found
      cases path' with
      | nil =>
          cases found
          rw [replaceAt, result_integerLiteral, ← constant expr rfl, constant' expr rfl]
      | cons edge' path' =>
          simp [Expr.replaceAt, at?, child?] at found
  | cons edge path inductionHypothesis =>
      intro node found
      cases path' with
      | nil =>
          cases found
          rw [constant.result_replaceAt, constant' expr rfl]
      | cons edge' path' =>
          rw [replaceAt, at?, Option.bind_eq_some_iff] at found
          obtain ⟨child, present, found⟩ := found
          by_cases same : edge = edge'
          · subst same
            rw [child?_modifyChild_self, Option.map_eq_some_iff] at present
            obtain ⟨child, present, rfl⟩ := present
            exact inductionHypothesis (constant.of_cons present) (constant'.of_cons present) node
              found
          · rw [child?_modifyChild_of_ne same] at present
            exact constant'.of_cons present node found

theorem result_foldConstants {constants : List (List Edge × Int32)}
    (values : ∀ constant ∈ constants, expr.HasValueAt constant.1 constant.2) :
    (evaluate (expr.foldConstants constants)).result = (evaluate expr).result := by
  induction constants generalizing expr with
  | nil => rfl
  | cons constant constants inductionHypothesis =>
      rw [List.forall_mem_cons] at values
      obtain ⟨first, others⟩ := values
      have step := first.result_replaceAt
      rw [← step]
      apply inductionHypothesis
      intro constant' mem
      exact first.replaceAt (others constant' mem)

end Expr

/-- Trees that differ in one part have the same result if the parts have. To put literals in the
place of any parts that have their values changes no result either. -/
theorem result_congruence (expr : Expr) :
    (∀ path part part', (evaluate part).result = (evaluate part').result →
      (evaluate (expr.replaceAt path part)).result =
        (evaluate (expr.replaceAt path part')).result) ∧
    ∀ constants : List (List Edge × Int32),
      (∀ path value, (path, value) ∈ constants →
        ∃ part, expr.at? path = some part ∧ (evaluate part).result = .ok value) →
      (evaluate (expr.foldConstants constants)).result = (evaluate expr).result := by
  refine ⟨fun _ _ _ same => Expr.result_replaceAt_congr same, ?_⟩
  intro constants values
  apply Expr.result_foldConstants
  rintro ⟨path, value⟩ mem node found
  obtain ⟨part, found', succeeded⟩ := values path value mem
  cases found.symm.trans found'
  exact succeeded

theorem result_congruence_calls :
    ((evaluate (.funCall "f" [])).result = (evaluate (.funCall "g" [.breakOut])).result ∧
      (evaluate (.binaryOperator .add (.integerLiteral 0) (.funCall "f" []))).result =
        (evaluate (.binaryOperator .add (.integerLiteral 0) (.funCall "g" [.breakOut]))).result) ∧
    (evaluate (.ifThenElse (.integerLiteral 1) (.integerLiteral 10) .breakOut)).result =
      (evaluate (.ifThenElse (.binaryOperator .sub (.integerLiteral 3) (.integerLiteral 2))
        (.binaryOperator .mul (.integerLiteral 2) (.integerLiteral 5)) .breakOut)).result := by
  have sameCall : (evaluate (.funCall "f" [])).result =
      (evaluate (.funCall "g" [.breakOut])).result := by
    rw [result_unsupported rfl, result_unsupported rfl]
    rfl
  refine ⟨⟨sameCall, (result_congruence (.binaryOperator .add (.integerLiteral 0) .breakOut)).1
    [.right] _ _ sameCall⟩, ?_⟩
  apply (result_congruence (.ifThenElse
    (.binaryOperator .sub (.integerLiteral 3) (.integerLiteral 2))
    (.binaryOperator .mul (.integerLiteral 2) (.integerLiteral 5)) .breakOut)).2
    [([.condition], 1), ([.thenPart], 10)]
  simp only [List.mem_cons, List.not_mem_nil, Prod.mk.injEq]
  rintro path value (⟨rfl, rfl⟩ | ⟨rfl, rfl⟩ | impossible)
  · refine ⟨_, rfl, ?_⟩
    rw [result_binaryOperator, result_integerLiteral, result_integerLiteral]
    rfl
  · refine ⟨_, rfl, ?_⟩
    rw [result_binaryOperator, result_integerLiteral, result_integerLiteral]
    rfl
  · exact impossible.elim

end TigerTree
