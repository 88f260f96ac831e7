import TigerTree.Proofs.Evaluation.Compose
import TigerTree.Proofs.Expr.Position

set_option autoImplicit false

/-!
What evaluation enters.

Whether evaluation goes on from a node into one of its parts depends on the parts before that one
alone. What is put at a position that is entered is evaluated there; a tree at any other position
makes no difference, and neither do the parts of a node that has no value.
-/

namespace TigerTree

def Run.Succeeds (run : Run) : Prop := ∃ value, run.result = .ok value

instance (run : Run) (value : Int32) : Decidable (run.result = .ok value) :=
  match run.result with
  | .ok value' => decidable_of_iff (value' = value) (by simp)
  | .error _ => isFalse nofun

instance (run : Run) (property : Int32 → Prop) [DecidablePred property] :
    Decidable (∃ value, property value ∧ run.result = .ok value) :=
  match run.result with
  | .ok value => decidable_of_iff (property value) (by simp)
  | .error _ => isFalse (by simp)

instance (run : Run) : Decidable run.Succeeds :=
  decidable_of_iff (∃ value, True ∧ run.result = .ok value) (by simp [Run.Succeeds])

namespace Expr

/-- Evaluation goes on from a node along an edge. -/
def EntersChild : Expr → Edge → Prop
  | binaryOperator _ _ _, .left => True
  | binaryOperator _ left _, .right => (evaluate left).Succeeds
  | sequence exprs, .element index => ∀ earlier ∈ exprs.take index, (evaluate earlier).Succeeds
  | ifThenElse _ _ _, .condition => True
  | ifThenElse condition _ _, .thenPart => ∃ value ≠ 0, (evaluate condition).result = .ok value
  | ifThenElse condition _ _, .elsePart => (evaluate condition).result = .ok 0
  | _, _ => False

instance (expr : Expr) (edge : Edge) : Decidable (expr.EntersChild edge) := by
  unfold EntersChild
  split <;> infer_instance

/-- Evaluation of a tree enters a position. What stands there is then evaluated:
`Enters.infix_replaceAt`. -/
def Enters : Expr → List Edge → Prop
  | _, [] => True
  | expr, edge :: path =>
      expr.EntersChild edge ∧ ∃ child, expr.child? edge = some child ∧ child.Enters path

theorem enters_cons_iff {expr child : Expr} {edge : Edge} {path : List Edge}
    (present : expr.child? edge = some child) :
    expr.Enters (edge :: path) ↔ expr.EntersChild edge ∧ child.Enters path := by
  simp [Enters, present]

instance decidableEnters : (expr : Expr) → (path : List Edge) → Decidable (expr.Enters path)
  | _, [] => isTrue trivial
  | expr, edge :: path =>
      match present : expr.child? edge with
      | none => isFalse (by simp [Enters, present])
      | some child =>
          have := decidableEnters child path
          decidable_of_iff _ (enters_cons_iff present).symm

end Expr

theorem evaluateElements_cons (first : Expr) {following : List Expr} (more : following ≠ []) :
    evaluateElements (first :: following) =
      (evaluate first).andThen fun _ => evaluateElements following := by
  cases following with
  | nil => exact absurd rfl more
  | cons next following => rw [evaluateElements]

theorem evaluateElements_modify {f : Expr → Expr} {exprs : List Expr} {index : Nat}
    (same : (∀ earlier ∈ exprs.take index, (evaluate earlier).Succeeds) →
      ∀ child, exprs[index]? = some child → evaluate (f child) = evaluate child) :
    evaluateElements (exprs.modify index f) = evaluateElements exprs := by
  induction exprs generalizing index with
  | nil => rw [List.modify_nil]
  | cons first following inductionHypothesis =>
      cases index with
      | zero =>
          have sameFirst := same (by simp) first rfl
          rw [List.modify_zero_cons]
          cases following with
          | nil => exact sameFirst
          | cons next following => rw [evaluateElements, evaluateElements, sameFirst]
      | succ index =>
          rw [List.modify_succ_cons]
          by_cases last : following = []
          · rw [last, List.modify_nil]
          · rw [evaluateElements_cons first last,
              evaluateElements_cons first (by rwa [ne_eq, List.modify_eq_nil_iff])]
            apply Run.andThen_congr
            intro value succeeded
            apply inductionHypothesis
            intro succeed child present
            refine same ?_ child present
            rw [List.take_succ_cons, List.forall_mem_cons]
            exact ⟨⟨value, succeeded⟩, succeed⟩

namespace Expr

/-- A child makes a difference at most if evaluation goes on into it, and only by its run. -/
theorem evaluate_modifyChild {f : Expr → Expr} {expr : Expr} {edge : Edge}
    (same : expr.EntersChild edge → ∀ child, expr.child? edge = some child →
      evaluate (f child) = evaluate child) :
    evaluate (expr.modifyChild f edge) = evaluate expr := by
  cases expr using casesEvaluable with
  | integerLiteral value => cases edge <;> rfl
  | binaryOperator op left right =>
      cases edge with
      | left =>
          rw [modifyChild, evaluate_binaryOperator, evaluate_binaryOperator,
            same trivial left rfl]
      | right =>
          rw [modifyChild, evaluate_binaryOperator, evaluate_binaryOperator]
          apply congrArg (Run.entering _)
          apply Run.andThen_congr
          intro value succeeded
          rw [same ⟨value, succeeded⟩ right rfl]
      | _ => rfl
  | sequence exprs =>
      cases edge with
      | element index =>
          rw [modifyChild, evaluate_sequence, evaluate_sequence, evaluateElements_modify same]
      | _ => rfl
  | ifThenElse condition thenPart elsePart =>
      cases edge with
      | condition =>
          rw [modifyChild, evaluate_ifThenElse, evaluate_ifThenElse, same trivial condition rfl]
      | thenPart =>
          rw [modifyChild, evaluate_ifThenElse, evaluate_ifThenElse]
          apply congrArg (Run.entering _)
          apply Run.andThen_congr
          intro value succeeded
          split
          next nonzero => exact same ⟨value, bne_iff_ne.mp nonzero, succeeded⟩ thenPart rfl
          next => rfl
      | elsePart =>
          rw [modifyChild, evaluate_ifThenElse, evaluate_ifThenElse]
          apply congrArg (Run.entering _)
          apply Run.andThen_congr
          intro value succeeded
          split
          next => rfl
          next zero =>
            obtain rfl : value = 0 := by simpa using zero
            exact same succeeded elsePart rfl
      | _ => rfl
  | unsupported expr unsupported =>
      exact evaluate_eq_of_kind_eq unsupported (kind_modifyChild f edge expr)

end Expr

namespace Run

variable {run : Run} {events : List Event}

theorem infix_entering {kind : NodeKind} (infixed : events <:+: run.events) :
    events <:+: (run.entering kind).events :=
  infixed.trans (List.suffix_append _ _).isInfix

theorem infix_andThen {next : Int32 → Run} (infixed : events <:+: run.events) :
    events <:+: (run.andThen next).events := by
  cases outcome : run.result with
  | ok value =>
      rw [andThen_of_ok outcome]
      exact infixed.trans (List.prefix_append _ _).isInfix
  | error error => rwa [andThen_of_error outcome]

theorem infix_andThen_of_ok {next : Int32 → Run} {value : Int32}
    (succeeded : run.result = .ok value) (infixed : events <:+: (next value).events) :
    events <:+: (run.andThen next).events := by
  rw [andThen_of_ok succeeded]
  exact infixed.trans (List.suffix_append _ _).isInfix

end Run

theorem infix_evaluateElements {f : Expr → Expr} {exprs : List Expr} {index : Nat} {child : Expr}
    (succeed : ∀ earlier ∈ exprs.take index, (evaluate earlier).Succeeds)
    (present : exprs[index]? = some child) :
    (evaluate (f child)).events <:+: (evaluateElements (exprs.modify index f)).events := by
  induction exprs generalizing index with
  | nil => simp at present
  | cons first following inductionHypothesis =>
      cases index with
      | zero =>
          cases present
          rw [List.modify_zero_cons]
          cases following with
          | nil => exact List.infix_refl _
          | cons next following => exact Run.infix_andThen (List.infix_refl _)
      | succ index =>
          rw [List.take_succ_cons, List.forall_mem_cons] at succeed
          obtain ⟨⟨value, succeeded⟩, succeed⟩ := succeed
          have more : following.modify index f ≠ [] := by
            rintro noMore
            rw [List.modify_eq_nil_iff] at noMore
            simp [noMore] at present
          rw [List.modify_succ_cons, evaluateElements_cons first more]
          exact Run.infix_andThen_of_ok succeeded (inductionHypothesis succeed present)

namespace Expr

theorem infix_modifyChild (f : Expr → Expr) {expr child : Expr} {edge : Edge}
    (enters : expr.EntersChild edge) (present : expr.child? edge = some child) :
    (evaluate (f child)).events <:+: (evaluate (expr.modifyChild f edge)).events := by
  unfold EntersChild at enters
  split at enters
  next op left right =>
    cases present
    rw [modifyChild, evaluate_binaryOperator]
    exact Run.infix_entering (Run.infix_andThen (List.infix_refl _))
  next op left right =>
    cases present
    obtain ⟨value, succeeded⟩ := enters
    rw [modifyChild, evaluate_binaryOperator]
    exact Run.infix_entering
      (Run.infix_andThen_of_ok succeeded (Run.infix_andThen (List.infix_refl _)))
  next exprs index =>
    rw [modifyChild, evaluate_sequence]
    exact Run.infix_entering (infix_evaluateElements enters present)
  next condition thenPart elsePart =>
    cases present
    rw [modifyChild, evaluate_ifThenElse]
    exact Run.infix_entering (Run.infix_andThen (List.infix_refl _))
  next condition thenPart elsePart =>
    cases present
    obtain ⟨value, nonzero, succeeded⟩ := enters
    rw [modifyChild, evaluate_ifThenElse]
    have taken : (if value != 0 then f child else elsePart) = f child :=
      if_pos (bne_iff_ne.mpr nonzero)
    refine Run.infix_entering (Run.infix_andThen_of_ok succeeded ?_)
    simp only [taken, List.infix_refl]
  next condition thenPart elsePart =>
    cases present
    rw [modifyChild, evaluate_ifThenElse]
    exact Run.infix_entering (Run.infix_andThen_of_ok enters (List.infix_refl _))
  next => exact enters.elim

/-- Whatever is put at a position that is entered is evaluated there. -/
theorem Enters.infix_replaceAt {expr : Expr} {path : List Edge} (entered : expr.Enters path)
    (replacement : Expr) :
    (evaluate replacement).events <:+: (evaluate (expr.replaceAt path replacement)).events := by
  induction path generalizing expr with
  | nil => exact List.infix_refl _
  | cons edge path inductionHypothesis =>
      obtain ⟨enters, child, present, entered⟩ := entered
      exact (inductionHypothesis entered).trans
        (infix_modifyChild (fun child => child.replaceAt path replacement) enters present)

end Expr

namespace Expr

theorem evaluate_replaceAt_of_not_enters {expr : Expr} {path : List Edge}
    (notEntered : ¬ expr.Enters path) (replacement : Expr) :
    evaluate (expr.replaceAt path replacement) = evaluate expr := by
  induction path generalizing expr with
  | nil => exact absurd trivial notEntered
  | cons edge path inductionHypothesis =>
      apply evaluate_modifyChild
      intro enters child present
      apply inductionHypothesis
      intro entered
      exact notEntered ⟨enters, child, present, entered⟩

/-- A node without a value runs like any other of its kind. -/
theorem evaluate_replaceAt_of_kind {expr node replacement : Expr} {path : List Edge}
    (found : expr.at? path = some node) (unsupported : node.kind.isEvaluable = false)
    (sameKind : replacement.kind = node.kind) :
    evaluate (expr.replaceAt path replacement) = evaluate expr := by
  induction path generalizing expr with
  | nil =>
      cases found
      exact evaluate_eq_of_kind_eq unsupported sameKind
  | cons edge path inductionHypothesis =>
      obtain ⟨child, present, found⟩ := Option.bind_eq_some_iff.mp found
      apply evaluate_modifyChild
      intro _ child' present'
      cases present.symm.trans present'
      exact inductionHypothesis found

end Expr

/-- What evaluation does not enter makes no difference to its result and its events, and neither
do the parts of a node that has no value. -/
theorem evaluate_replaceAt (expr : Expr) (path : List Edge) (replacement : Expr) :
    (¬ expr.Enters path → evaluate (expr.replaceAt path replacement) = evaluate expr) ∧
      ∀ node, expr.at? path = some node → node.kind.isEvaluable = false →
        replacement.kind = node.kind →
          evaluate (expr.replaceAt path replacement) = evaluate expr :=
  ⟨fun notEntered => expr.evaluate_replaceAt_of_not_enters notEntered replacement,
    fun _ found unsupported sameKind =>
      Expr.evaluate_replaceAt_of_kind found unsupported sameKind⟩

theorem evaluate_replaceAt_branches :
    (¬ (Expr.ifThenElse (.integerLiteral 1) (.letIn [] []) .breakOut).Enters [.elsePart] ∧
      evaluate (.ifThenElse (.integerLiteral 1) (.letIn [] []) (.integerLiteral 2)) =
        evaluate (.ifThenElse (.integerLiteral 1) (.letIn [] []) .breakOut)) ∧
      evaluate (.ifThenElse (.integerLiteral 1) (.letIn [.breakOut] []) .breakOut) =
        evaluate (.ifThenElse (.integerLiteral 1) (.letIn [] []) .breakOut) := by
  have notEntered :
      ¬ (Expr.ifThenElse (.integerLiteral 1) (.letIn [] []) .breakOut).Enters [.elsePart] := by
    rintro ⟨taken, -⟩
    rw [Expr.EntersChild, evaluate_integerLiteral] at taken
    cases taken
  refine ⟨⟨notEntered, (evaluate_replaceAt _ [.elsePart] (.integerLiteral 2)).1 notEntered⟩, ?_⟩
  exact (evaluate_replaceAt (.ifThenElse (.integerLiteral 1) (.letIn [] []) .breakOut) [.thenPart]
    (.letIn [.breakOut] [])).2 (.letIn [] []) rfl rfl rfl

end TigerTree
