import TigerTree.Proofs.Decode.RoundTrip
import TigerTree.Proofs.Evaluation.Raised

set_option autoImplicit false

/-!
Evaluation and normal forms.

A tree and its normal form differ in their operators, at any number of nodes. They run alike up to
the first operator with two values that hides a known symbol. There the tree stops, and its normal
form does not.
-/

namespace TigerTree

namespace Run

variable {run run' : Run} {next next' : Int32 → Run}

/-- A run fails at an operator that hides a known symbol. -/
def StopsAtHidden (run : Run) : Prop :=
  ∃ op, BinaryOp.Hides op ∧ run.result = .error (.unknownOperator op)

theorem StopsAtHidden.andThen (stops : run.StopsAtHidden) : (run.andThen next).StopsAtHidden := by
  obtain ⟨op, hides, failed⟩ := stops
  rw [andThen_of_error failed]
  exact ⟨op, hides, failed⟩

theorem StopsAtHidden.andThen_of_ok {value : Int32} (stops : (next value).StopsAtHidden)
    (succeeded : run.result = .ok value) : (run.andThen next).StopsAtHidden := by
  rw [Run.andThen_of_ok succeeded]
  exact stops

/-- Two runs are alike if their parts are, as far as these do not stop at a hidden operator. -/
theorem andThen_eq_of_not_stopsAtHidden (goesOn : ¬ (run.andThen next).StopsAtHidden)
    (same : ¬ run.StopsAtHidden → run' = run)
    (sameNext : ∀ value, ¬ (next value).StopsAtHidden → next' value = next value) :
    run'.andThen next' = run.andThen next := by
  rw [same fun stops => goesOn stops.andThen]
  apply andThen_congr
  intro value succeeded
  exact sameNext value fun stops => goesOn (stops.andThen_of_ok succeeded)

end Run

open Run (andThen_eq_of_not_stopsAtHidden)

theorem BinaryOp.run_normalized {op : BinaryOp} {left right : Int32}
    (goesOn : ¬ (op.run left right).StopsAtHidden) :
    op.normalized.run left right = op.run left right := by
  by_cases hides : op.Hides
  · obtain ⟨symbol, known, rfl⟩ := hides
    exact absurd ⟨_, ⟨symbol, known, rfl⟩, rfl⟩ goesOn
  · rw [(op.normalized_eq_self_iff).mpr hides]

namespace Expr

theorem kind_normalized (expr : Expr) : expr.normalized.kind = expr.kind := by
  cases expr <;> rfl

mutual

theorem evaluate_normalized : (expr : Expr) → ¬ (evaluate expr).StopsAtHidden →
    evaluate expr.normalized = evaluate expr
  | integerLiteral _, _ => by rw [normalized]
  | binaryOperator op left right, goesOn => by
      rw [evaluate_binaryOperator] at goesOn
      rw [normalized, evaluate_binaryOperator, evaluate_binaryOperator]
      apply congrArg (Run.entering _)
      apply andThen_eq_of_not_stopsAtHidden goesOn (evaluate_normalized left)
      intro leftValue goesOn
      apply andThen_eq_of_not_stopsAtHidden goesOn (evaluate_normalized right)
      intro rightValue goesOn
      exact BinaryOp.run_normalized goesOn
  | sequence exprs, goesOn => by
      rw [evaluate_sequence] at goesOn
      rw [normalized, evaluate_sequence, evaluate_sequence]
      exact congrArg (Run.entering _) (evaluateElements_normalized exprs goesOn)
  | ifThenElse condition thenPart elsePart, goesOn => by
      rw [evaluate_ifThenElse] at goesOn
      rw [normalized, evaluate_ifThenElse, evaluate_ifThenElse]
      apply congrArg (Run.entering _)
      apply andThen_eq_of_not_stopsAtHidden goesOn (evaluate_normalized condition)
      intro value goesOn
      by_cases nonzero : (value != 0) = true
      · rw [if_pos nonzero] at goesOn ⊢
        rw [if_pos nonzero]
        exact evaluate_normalized thenPart goesOn
      · rw [if_neg nonzero] at goesOn ⊢
        rw [if_neg nonzero]
        exact evaluate_normalized elsePart goesOn
  | stringLiteral _, _ | identifier _, _ | letIn _ _, _ | varDecl _, _ | funDecl _ _ _ _, _
  | funCall _ _, _ | whileLoop _ _, _ | forLoop _ _ _ _, _ | breakOut, _ | assign _ _, _ =>
      evaluate_eq_of_kind_eq rfl (kind_normalized _)

theorem evaluateElements_normalized : (exprs : List Expr) →
    ¬ (evaluateElements exprs).StopsAtHidden →
      evaluateElements (normalizedAll exprs) = evaluateElements exprs
  | [], _ => rfl
  | [last], goesOn => evaluate_normalized last goesOn
  | first :: next :: following, goesOn => by
      rw [evaluateElements] at goesOn
      rw [normalizedAll, normalizedAll, evaluateElements, evaluateElements]
      apply andThen_eq_of_not_stopsAtHidden goesOn (evaluate_normalized first)
      intro _ goesOn
      exact evaluateElements_normalized (next :: following) goesOn

end

variable {expr child node : Expr} {edge : Edge} {path : List Edge} {op : BinaryOp}

theorem Descends.mem_operators (descends : expr.Descends edge child) (mem : op ∈ child.operators) :
    op ∈ expr.operators := by
  cases descends with
  | element present _ =>
      rw [operators, mem_operatorsAll_iff]
      exact ⟨child, List.mem_of_getElem? present, mem⟩
  | _ => simp [operators, mem]

theorem Reaches.mem_operators (reaches : expr.Reaches path node) (mem : op ∈ node.operators) :
    op ∈ expr.operators := by
  induction path generalizing expr with
  | nil =>
      obtain rfl := reaches_nil_iff.mp reaches
      exact mem
  | cons edge path inductionHypothesis =>
      obtain ⟨child, descends, reaches⟩ := reaches_cons_iff.mp reaches
      exact descends.mem_operators (inductionHypothesis reaches)

theorem mem_operators_of_unknownOperator
    (failed : (evaluate expr).result = .error (.unknownOperator op)) : op ∈ expr.operators := by
  obtain ⟨path, node, reaches, symbol, left, right, _, rfl, _⟩ := exists_raisesAt failed
  apply reaches.mem_operators
  rw [operators]
  exact List.mem_cons_self

/-- A tree in normal form has no operator to stop at. -/
theorem not_stopsAtHidden_of_normalized (normal : expr.normalized = expr) :
    ¬ (evaluate expr).StopsAtHidden := by
  rintro ⟨op, hides, failed⟩
  exact expr.normalized_eq_self_iff.mp normal op (mem_operators_of_unknownOperator failed) hides

theorem normalized_normalized (expr : Expr) : expr.normalized.normalized = expr.normalized := by
  have decoded := decode_encode_normalized expr.normalized
  rw [expr.encode_normalized, decode_encode_normalized, Except.ok.injEq] at decoded
  exact decoded.symm

end Expr

/-- A tree that is encoded and read back has the result and the events of the tree, exactly if the
tree does not fail at an operator that hides a known symbol. -/
theorem evaluate_decode_encode (expr : Expr) :
    ∃ decoded, decode expr.encode = .ok decoded ∧
      ((∀ symbol ∈ BinaryOp.known.map BinaryOp.symbol,
          (evaluate expr).result ≠ .error (.unknownOperator (.other symbol))) ↔
        evaluate decoded = evaluate expr) := by
  refine ⟨expr.normalized, decode_encode_normalized expr, ?_⟩
  constructor
  · intro goesOn
    apply expr.evaluate_normalized
    rintro ⟨op, ⟨symbol, known, rfl⟩, failed⟩
    exact goesOn symbol known failed
  · intro same symbol known failed
    rw [← same] at failed
    exact Expr.not_stopsAtHidden_of_normalized expr.normalized_normalized
      ⟨_, ⟨symbol, known, rfl⟩, failed⟩

end TigerTree
