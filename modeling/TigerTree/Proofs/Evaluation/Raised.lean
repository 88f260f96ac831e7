import TigerTree.Proofs.Evaluation.Entered

set_option autoImplicit false

/-!
Where errors come from.

A node raises an error if it fails although every part that evaluation goes into has a value. Of
the parts that evaluation goes into only the last one can fail, and then the node fails as that
part does. A tree therefore fails exactly if a node that is entered raises an error, and there is
only one such node.
-/

namespace TigerTree

namespace Run

variable {run part : Run} {next : Int32 → Run}

theorem not_succeeds_of_error {error : EvalError} (failed : run.result = .error error) :
    ¬ run.Succeeds := by
  rintro ⟨value, succeeded⟩
  cases failed.symm.trans succeeded

theorem andThen_eq_error_iff {error : EvalError} :
    (run.andThen next).result = .error error ↔
      run.result = .error error ∨
        ∃ value, run.result = .ok value ∧ (next value).result = .error error := by
  cases outcome : run.result with
  | ok value => simp [andThen_of_ok outcome, after]
  | error error' => simp [andThen_of_error outcome, outcome]

/-- A run has the result of a part of it, and the events of the part are its last ones. -/
def EndsAs (run part : Run) : Prop := ∃ earlier, run = part.after earlier

theorem EndsAs.refl (run : Run) : run.EndsAs run := ⟨[], rfl⟩

theorem EndsAs.result_eq (ends : run.EndsAs part) : run.result = part.result := by
  obtain ⟨earlier, rfl⟩ := ends
  rfl

theorem EndsAs.after (ends : run.EndsAs part) (earlier : List Event) :
    (run.after earlier).EndsAs part := by
  obtain ⟨between, rfl⟩ := ends
  refine ⟨earlier ++ between, ?_⟩
  simp [Run.after]

theorem EndsAs.trans {last : Run} (ends : run.EndsAs part) (partEnds : part.EndsAs last) :
    run.EndsAs last := by
  obtain ⟨earlier, rfl⟩ := ends
  exact partEnds.after earlier

theorem EndsAs.andThen_of_error {error : EvalError} (ends : run.EndsAs part)
    (failed : part.result = .error error) : (run.andThen next).EndsAs part := by
  rwa [Run.andThen_of_error (ends.result_eq.trans failed)]

theorem EndsAs.andThen_of_ok {value : Int32} (ends : (next value).EndsAs part)
    (succeeded : run.result = .ok value) : (run.andThen next).EndsAs part := by
  rw [Run.andThen_of_ok succeeded]
  exact ends.after _

end Run

open Run (EndsAs)

namespace Expr

/-- Evaluation goes on from a node along an edge into a part. -/
inductive Descends : Expr → Edge → Expr → Prop where
  | left {op left right} : Descends (binaryOperator op left right) .left left
  | right {op left right} :
      (evaluate left).Succeeds → Descends (binaryOperator op left right) .right right
  | element {exprs index child} :
      exprs[index]? = some child → (∀ earlier ∈ exprs.take index, (evaluate earlier).Succeeds) →
      Descends (sequence exprs) (.element index) child
  | condition {condition thenPart elsePart} :
      Descends (ifThenElse condition thenPart elsePart) .condition condition
  | thenPart {condition thenPart elsePart value} :
      (evaluate condition).result = .ok value → value ≠ 0 →
      Descends (ifThenElse condition thenPart elsePart) .thenPart thenPart
  | elsePart {condition thenPart elsePart} :
      (evaluate condition).result = .ok 0 →
      Descends (ifThenElse condition thenPart elsePart) .elsePart elsePart

variable {expr child node : Expr} {edge : Edge} {path : List Edge} {error : EvalError}

theorem descends_iff :
    expr.Descends edge child ↔ expr.EntersChild edge ∧ expr.child? edge = some child := by
  constructor
  · intro descends
    cases descends with
    | left => exact ⟨trivial, rfl⟩
    | right succeeds => exact ⟨succeeds, rfl⟩
    | element present succeed => exact ⟨succeed, present⟩
    | condition => exact ⟨trivial, rfl⟩
    | thenPart succeeded nonzero => exact ⟨⟨_, nonzero, succeeded⟩, rfl⟩
    | elsePart succeeded => exact ⟨succeeded, rfl⟩
  · rintro ⟨enters, present⟩
    unfold EntersChild at enters
    split at enters
    next =>
      cases present
      exact .left
    next =>
      cases present
      exact .right enters
    next => exact .element present enters
    next =>
      cases present
      exact .condition
    next =>
      cases present
      obtain ⟨value, nonzero, succeeded⟩ := enters
      exact .thenPart succeeded nonzero
    next =>
      cases present
      exact .elsePart enters
    next => exact enters.elim

theorem size_le_sizeAll {exprs : List Expr} (mem : expr ∈ exprs) : expr.size ≤ sizeAll exprs := by
  induction exprs with
  | nil => cases mem
  | cons first following inductionHypothesis =>
      rw [sizeAll]
      rcases List.mem_cons.mp mem with rfl | mem
      · exact Nat.le_add_right _ _
      · exact Nat.le_trans (inductionHypothesis mem) (Nat.le_add_left _ _)

theorem Descends.size_lt (descends : expr.Descends edge child) : child.size < expr.size := by
  cases descends with
  | element present _ =>
      rw [size]
      exact Nat.lt_succ_of_le (size_le_sizeAll (List.mem_of_getElem? present))
  | _ =>
      rw [size]
      omega

/-- Evaluation goes into no more than one part that fails: it goes into a later part only after
the earlier one has given a value. -/
theorem Descends.eq_of_fails {edge' : Edge} {child' : Expr} (descends : expr.Descends edge child)
    (descends' : expr.Descends edge' child') (fails : ¬ (evaluate child).Succeeds)
    (fails' : ¬ (evaluate child').Succeeds) : edge = edge' ∧ child = child' := by
  cases descends with
  | left =>
      cases descends' with
      | left => exact ⟨rfl, rfl⟩
      | right succeeds => exact absurd succeeds fails
  | right succeeds =>
      cases descends' with
      | left => exact absurd succeeds fails'
      | right => exact ⟨rfl, rfl⟩
  | @element exprs index _ present succeed =>
      cases descends' with
      | @element _ index' _ present' succeed' =>
          rcases Nat.lt_trichotomy index index' with earlier | rfl | later
          · have mem : child ∈ exprs.take index' :=
              List.mem_of_getElem? ((List.getElem?_take_of_lt earlier).trans present)
            exact absurd (succeed' child mem) fails
          · exact ⟨rfl, Option.some.inj (present.symm.trans present')⟩
          · have mem : child' ∈ exprs.take index :=
              List.mem_of_getElem? ((List.getElem?_take_of_lt later).trans present')
            exact absurd (succeed child' mem) fails'
  | condition =>
      cases descends' with
      | condition => exact ⟨rfl, rfl⟩
      | thenPart succeeded _ => exact absurd ⟨_, succeeded⟩ fails
      | elsePart succeeded => exact absurd ⟨_, succeeded⟩ fails
  | thenPart succeeded nonzero =>
      cases descends' with
      | condition => exact absurd ⟨_, succeeded⟩ fails'
      | thenPart => exact ⟨rfl, rfl⟩
      | elsePart succeeded' =>
          exact absurd (Except.ok.inj (succeeded.symm.trans succeeded')) nonzero
  | elsePart succeeded =>
      cases descends' with
      | condition => exact absurd ⟨_, succeeded⟩ fails'
      | thenPart succeeded' nonzero =>
          exact absurd (Except.ok.inj (succeeded'.symm.trans succeeded)) nonzero
      | elsePart => exact ⟨rfl, rfl⟩

end Expr

theorem endsAs_of_element_fails {exprs : List Expr} {index : Nat} {child : Expr} {error : EvalError}
    (succeed : ∀ earlier ∈ exprs.take index, (evaluate earlier).Succeeds)
    (present : exprs[index]? = some child) (failed : (evaluate child).result = .error error) :
    (evaluateElements exprs).EndsAs (evaluate child) := by
  induction exprs generalizing index with
  | nil => simp at present
  | cons first following inductionHypothesis =>
      cases index with
      | zero =>
          cases present
          cases following with
          | nil => exact .refl _
          | cons next following => exact (EndsAs.refl _).andThen_of_error failed
      | succ index =>
          rw [List.take_succ_cons, List.forall_mem_cons] at succeed
          obtain ⟨⟨value, succeeded⟩, succeed⟩ := succeed
          have more : following ≠ [] := by
            rintro rfl
            simp at present
          rw [evaluateElements_cons first more]
          exact (inductionHypothesis succeed present).andThen_of_ok succeeded

/-- A sequence fails by its first element that fails. -/
theorem evaluateElements_eq_error {exprs : List Expr} {error : EvalError}
    (failed : (evaluateElements exprs).result = .error error) :
    (exprs = [] ∧ error = .emptySequence) ∨
      ∃ index child, exprs[index]? = some child ∧
        (∀ earlier ∈ exprs.take index, (evaluate earlier).Succeeds) ∧
        (evaluate child).result = .error error := by
  induction exprs with
  | nil =>
      cases failed
      exact .inl ⟨rfl, rfl⟩
  | cons first following inductionHypothesis =>
      right
      by_cases last : following = []
      · subst last
        exact ⟨0, first, rfl, by simp, failed⟩
      · rw [evaluateElements_cons first last, Run.andThen_eq_error_iff] at failed
        rcases failed with failed | ⟨value, succeeded, failed⟩
        · exact ⟨0, first, rfl, by simp, failed⟩
        · obtain ⟨rfl, -⟩ | ⟨index, child, present, succeed, failed⟩ := inductionHypothesis failed
          · exact absurd rfl last
          · refine ⟨index + 1, child, present, ?_, failed⟩
            rw [List.take_succ_cons, List.forall_mem_cons]
            exact ⟨⟨value, succeeded⟩, succeed⟩

namespace Expr

variable {expr child node : Expr} {edge : Edge} {path : List Edge} {error : EvalError}

/-- A node fails as the part does that fails. -/
theorem Descends.endsAs (descends : expr.Descends edge child)
    (failed : (evaluate child).result = .error error) :
    (evaluate expr).EndsAs (evaluate child) := by
  cases descends with
  | left =>
      rw [evaluate_binaryOperator]
      exact ((EndsAs.refl _).andThen_of_error failed).after _
  | right succeeds =>
      obtain ⟨value, succeeded⟩ := succeeds
      rw [evaluate_binaryOperator]
      exact (((EndsAs.refl _).andThen_of_error failed).andThen_of_ok succeeded).after _
  | element present succeed =>
      rw [evaluate_sequence]
      exact (endsAs_of_element_fails succeed present failed).after _
  | condition =>
      rw [evaluate_ifThenElse]
      exact ((EndsAs.refl _).andThen_of_error failed).after _
  | thenPart succeeded nonzero =>
      rw [evaluate_ifThenElse]
      refine (EndsAs.andThen_of_ok ?_ succeeded).after _
      rw [if_pos (bne_iff_ne.mpr nonzero)]
      exact .refl _
  | elsePart succeeded =>
      rw [evaluate_ifThenElse]
      exact (EndsAs.andThen_of_ok (.refl _) succeeded).after _

/-- A node stands at a position that evaluation enters. -/
def Reaches (expr : Expr) (path : List Edge) (node : Expr) : Prop :=
  expr.Enters path ∧ expr.at? path = some node

theorem reaches_nil_iff : expr.Reaches [] node ↔ expr = node :=
  ⟨fun reaches => Option.some.inj reaches.2, fun same => ⟨trivial, congrArg some same⟩⟩

theorem reaches_cons_iff :
    expr.Reaches (edge :: path) node ↔
      ∃ child, expr.Descends edge child ∧ child.Reaches path node := by
  simp only [Reaches, Enters, at?, Option.bind_eq_some_iff, descends_iff]
  constructor
  · rintro ⟨⟨enters, child, present, entered⟩, child', present', found⟩
    cases present.symm.trans present'
    exact ⟨child, ⟨enters, present⟩, entered, found⟩
  · rintro ⟨child, ⟨enters, present⟩, entered, found⟩
    exact ⟨⟨enters, child, present, entered⟩, child, present, found⟩

/-- A tree fails as any node does that is entered and fails. -/
theorem Reaches.endsAs (reaches : expr.Reaches path node)
    (failed : (evaluate node).result = .error error) : (evaluate expr).EndsAs (evaluate node) := by
  induction path generalizing expr with
  | nil =>
      obtain rfl := reaches_nil_iff.mp reaches
      exact .refl _
  | cons edge path inductionHypothesis =>
      obtain ⟨child, descends, reaches⟩ := reaches_cons_iff.mp reaches
      have ends := inductionHypothesis reaches
      exact (descends.endsAs (ends.result_eq.trans failed)).trans ends

/-- A node is itself the reason for an error. -/
def Raises (node : Expr) : EvalError → Prop
  | .unsupported kind => node.kind = kind ∧ kind.isEvaluable = false
  | .emptySequence => node = sequence []
  | .unknownOperator op =>
      ∃ symbol left right, op = .other symbol ∧ node = binaryOperator op left right ∧
        (evaluate left).Succeeds ∧ (evaluate right).Succeeds
  | .divisionByZero =>
      ∃ left right, node = binaryOperator .div left right ∧ (evaluate left).Succeeds ∧
        (evaluate right).result = .ok 0

/-- A node that is entered raises an error. -/
def RaisesAt (expr : Expr) (path : List Edge) (error : EvalError) : Prop :=
  ∃ node, expr.Reaches path node ∧ node.Raises error

end Expr

theorem BinaryOp.run_eq_error_iff {op : BinaryOp} {left right : Int32} {error : EvalError} :
    (op.run left right).result = .error error ↔
      (op = .div ∧ right = 0 ∧ error = .divisionByZero) ∨
        ∃ symbol, op = .other symbol ∧ error = .unknownOperator op := by
  cases op with
  | div =>
      by_cases zero : right = 0
      · simp [run, apply, zero, @eq_comm _ error]
      · simp [run, apply, zero]
  | other symbol => simp [run, apply, @eq_comm _ error]
  | _ => simp [run, apply]

theorem evaluate_emptySequence :
    evaluate (.sequence []) =
      ⟨.error .emptySequence, [.evaluating .sequence, .emptySequence]⟩ := by
  rw [evaluate_sequence]
  rfl

theorem endsAs_operator {left right : Expr} {leftValue rightValue : Int32} (op : BinaryOp)
    (leftSucceeded : (evaluate left).result = .ok leftValue)
    (rightSucceeded : (evaluate right).result = .ok rightValue) :
    (evaluate (.binaryOperator op left right)).EndsAs (op.run leftValue rightValue) := by
  rw [evaluate_binaryOperator]
  exact (((EndsAs.refl _).andThen_of_ok rightSucceeded).andThen_of_ok leftSucceeded).after _

namespace Expr

variable {expr child node : Expr} {edge : Edge} {path : List Edge} {error : EvalError}

theorem Raises.fails (raises : node.Raises error) : (evaluate node).result = .error error := by
  cases error with
  | unsupported kind =>
      obtain ⟨rfl, unsupported⟩ := raises
      rw [evaluate_unsupported unsupported]
  | emptySequence =>
      cases raises
      rw [evaluate_emptySequence]
  | unknownOperator op =>
      obtain ⟨symbol, left, right, known, rfl, ⟨_, leftSucceeded⟩, ⟨_, rightSucceeded⟩⟩ := raises
      rw [(endsAs_operator op leftSucceeded rightSucceeded).result_eq, BinaryOp.run_eq_error_iff]
      exact .inr ⟨symbol, known, rfl⟩
  | divisionByZero =>
      obtain ⟨left, right, rfl, ⟨_, leftSucceeded⟩, rightSucceeded⟩ := raises
      rw [(endsAs_operator .div leftSucceeded rightSucceeded).result_eq, BinaryOp.run_eq_error_iff]
      exact .inl ⟨rfl, rfl, rfl⟩

/-- The parts of a node that raises an error are not the reason for it. -/
theorem Raises.succeeds_of_descends (raises : node.Raises error)
    (descends : node.Descends edge child) : (evaluate child).Succeeds := by
  cases error with
  | unsupported kind =>
      obtain ⟨rfl, unsupported⟩ := raises
      cases descends <;> cases unsupported
  | emptySequence =>
      cases raises
      cases descends with
      | element present _ => simp at present
  | unknownOperator op =>
      obtain ⟨_, _, _, _, rfl, leftSucceeds, rightSucceeds⟩ := raises
      cases descends with
      | left => exact leftSucceeds
      | right => exact rightSucceeds
  | divisionByZero =>
      obtain ⟨_, _, rfl, leftSucceeds, rightSucceeded⟩ := raises
      cases descends with
      | left => exact leftSucceeds
      | right => exact ⟨0, rightSucceeded⟩

/-- A node that fails raises the error or has it from a part. -/
theorem raises_or_descends (failed : (evaluate expr).result = .error error) :
    expr.Raises error ∨
      ∃ edge child, expr.Descends edge child ∧ (evaluate child).result = .error error := by
  cases expr using casesEvaluable with
  | integerLiteral value =>
      rw [evaluate_integerLiteral] at failed
      cases failed
  | binaryOperator op left right =>
      rw [evaluate_binaryOperator, Run.entering, Run.after, Run.andThen_eq_error_iff] at failed
      rcases failed with failed | ⟨leftValue, leftSucceeded, failed⟩
      · exact .inr ⟨_, _, .left, failed⟩
      · rw [Run.andThen_eq_error_iff] at failed
        rcases failed with failed | ⟨rightValue, rightSucceeded, failed⟩
        · exact .inr ⟨_, _, .right ⟨leftValue, leftSucceeded⟩, failed⟩
        · left
          rcases BinaryOp.run_eq_error_iff.mp failed with ⟨rfl, rfl, rfl⟩ | ⟨symbol, rfl, rfl⟩
          · exact ⟨left, right, rfl, ⟨leftValue, leftSucceeded⟩, rightSucceeded⟩
          · exact ⟨symbol, left, right, rfl, rfl, ⟨leftValue, leftSucceeded⟩,
              ⟨rightValue, rightSucceeded⟩⟩
  | sequence exprs =>
      rw [evaluate_sequence] at failed
      obtain ⟨rfl, rfl⟩ | ⟨index, child, present, succeed, failed⟩ :=
        evaluateElements_eq_error failed
      · exact .inl rfl
      · exact .inr ⟨_, child, .element present succeed, failed⟩
  | ifThenElse condition thenPart elsePart =>
      rw [evaluate_ifThenElse, Run.entering, Run.after, Run.andThen_eq_error_iff] at failed
      right
      rcases failed with failed | ⟨value, succeeded, failed⟩
      · exact ⟨_, _, .condition, failed⟩
      · by_cases zero : value = 0
        · subst zero
          exact ⟨_, _, .elsePart succeeded, failed⟩
        · rw [if_pos (bne_iff_ne.mpr zero)] at failed
          exact ⟨_, _, .thenPart succeeded zero, failed⟩
  | unsupported expr unsupported =>
      rw [evaluate_unsupported unsupported] at failed
      cases failed
      exact .inl ⟨rfl, unsupported⟩

theorem raises_iff :
    expr.Raises error ↔
      (evaluate expr).result = .error error ∧
        ∀ edge child, expr.Descends edge child → (evaluate child).Succeeds := by
  constructor
  · intro raises
    exact ⟨raises.fails, fun _ _ descends => raises.succeeds_of_descends descends⟩
  · rintro ⟨failed, succeed⟩
    obtain raises | ⟨edge, child, descends, failed⟩ := raises_or_descends failed
    · exact raises
    · exact absurd (succeed edge child descends) (Run.not_succeeds_of_error failed)

theorem raisesAt_nil_iff : expr.RaisesAt [] error ↔ expr.Raises error := by
  simp [RaisesAt, reaches_nil_iff]

theorem raisesAt_cons_iff :
    expr.RaisesAt (edge :: path) error ↔
      ∃ child, expr.Descends edge child ∧ child.RaisesAt path error := by
  simp only [RaisesAt, reaches_cons_iff]
  constructor
  · rintro ⟨node, ⟨child, descends, reaches⟩, raises⟩
    exact ⟨child, descends, node, reaches, raises⟩
  · rintro ⟨child, descends, node, reaches, raises⟩
    exact ⟨node, ⟨child, descends, reaches⟩, raises⟩

theorem RaisesAt.fails (raisesAt : expr.RaisesAt path error) :
    (evaluate expr).result = .error error := by
  obtain ⟨node, reaches, raises⟩ := raisesAt
  exact (reaches.endsAs raises.fails).result_eq.trans raises.fails

theorem exists_raisesAt {expr : Expr} (failed : (evaluate expr).result = .error error) :
    ∃ path, expr.RaisesAt path error := by
  obtain raises | ⟨edge, child, descends, failed⟩ := raises_or_descends failed
  · exact ⟨[], raisesAt_nil_iff.mpr raises⟩
  · have smaller := descends.size_lt
    obtain ⟨path, raisesAt⟩ := exists_raisesAt failed
    exact ⟨edge :: path, raisesAt_cons_iff.mpr ⟨child, descends, raisesAt⟩⟩
termination_by expr.size

theorem not_raises_of_raisesAt_cons {error' : EvalError}
    (raisesAt : expr.RaisesAt (edge :: path) error') : ¬ expr.Raises error := by
  intro raises
  obtain ⟨child, descends, raisesAt⟩ := raisesAt_cons_iff.mp raisesAt
  exact Run.not_succeeds_of_error raisesAt.fails (raises.succeeds_of_descends descends)

theorem RaisesAt.path_eq {path' : List Edge} {error' : EvalError}
    (raisesAt : expr.RaisesAt path error) (raisesAt' : expr.RaisesAt path' error') :
    path = path' := by
  induction path generalizing expr path' with
  | nil =>
      cases path' with
      | nil => rfl
      | cons edge' path' =>
          exact absurd (raisesAt_nil_iff.mp raisesAt) (not_raises_of_raisesAt_cons raisesAt')
  | cons edge path inductionHypothesis =>
      cases path' with
      | nil => exact absurd (raisesAt_nil_iff.mp raisesAt') (not_raises_of_raisesAt_cons raisesAt)
      | cons edge' path' =>
          obtain ⟨child, descends, raisesAt⟩ := raisesAt_cons_iff.mp raisesAt
          obtain ⟨child', descends', raisesAt'⟩ := raisesAt_cons_iff.mp raisesAt'
          obtain ⟨rfl, rfl⟩ := descends.eq_of_fails descends'
            (Run.not_succeeds_of_error raisesAt.fails) (Run.not_succeeds_of_error raisesAt'.fails)
          rw [inductionHypothesis raisesAt raisesAt']

end Expr

/-- A tree fails exactly with the error that a node raises that is entered, and no second node
raises any. To raise an error is to fail without a part that does. What an entered node fails with
is the error of the tree, and an operator that has a meaning is never the reason. -/
theorem fails_iff_raisesAt (expr : Expr) :
    (∀ error, (evaluate expr).result = .error error ↔ ∃ path, expr.RaisesAt path error) ∧
      (∀ path path' error error', expr.RaisesAt path error → expr.RaisesAt path' error' →
        path = path' ∧ error = error') ∧
      (∀ error, expr.Raises error ↔ (evaluate expr).result = .error error ∧
        ∀ edge child, expr.Descends edge child → (evaluate child).Succeeds) ∧
      (∀ path node error, expr.Reaches path node → (evaluate node).result = .error error →
        (evaluate expr).result = .error error) ∧
      ∀ op, (evaluate expr).result = .error (.unknownOperator op) → op ∉ BinaryOp.known := by
  refine ⟨fun error => ⟨Expr.exists_raisesAt, ?_⟩, ?_, fun error => Expr.raises_iff, ?_, ?_⟩
  · rintro ⟨path, raisesAt⟩
    exact raisesAt.fails
  · intro path path' error error' raisesAt raisesAt'
    exact ⟨raisesAt.path_eq raisesAt', Except.error.inj (raisesAt.fails.symm.trans raisesAt'.fails)⟩
  · intro path node error reaches failed
    exact (reaches.endsAs failed).result_eq.trans failed
  · intro op failed known
    obtain ⟨path, node, reaches, symbol, _, _, rfl, _⟩ := Expr.exists_raisesAt failed
    simp [BinaryOp.known] at known

theorem fails_iff_raisesAt_left :
    (evaluate (.binaryOperator .add
        (.binaryOperator .div (.integerLiteral 1) (.integerLiteral 0)) .breakOut)).result =
      .error .divisionByZero ∧
    ∀ path error, (Expr.binaryOperator .add
        (.binaryOperator .div (.integerLiteral 1) (.integerLiteral 0)) .breakOut).RaisesAt path
          error →
      path = [.left] ∧ error = .divisionByZero := by
  have raises : (Expr.binaryOperator .div (.integerLiteral 1) (.integerLiteral 0)).Raises
      .divisionByZero :=
    ⟨_, _, rfl, ⟨1, by rw [evaluate_integerLiteral]⟩, by rw [evaluate_integerLiteral]⟩
  have reaches : (Expr.binaryOperator .add
      (.binaryOperator .div (.integerLiteral 1) (.integerLiteral 0)) .breakOut).Reaches [.left]
        (.binaryOperator .div (.integerLiteral 1) (.integerLiteral 0)) :=
    Expr.reaches_cons_iff.mpr ⟨_, .left, Expr.reaches_nil_iff.mpr rfl⟩
  obtain ⟨-, unique, -, entered, -⟩ := fails_iff_raisesAt (.binaryOperator .add
    (.binaryOperator .div (.integerLiteral 1) (.integerLiteral 0)) .breakOut)
  refine ⟨entered _ _ _ reaches raises.fails, ?_⟩
  intro path error other
  exact unique path _ error _ other ⟨_, reaches, raises⟩

end TigerTree
