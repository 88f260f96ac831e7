import TigerTree.Proofs.Evaluation.Raised
import TigerTree.Proofs.Expr.Document

set_option autoImplicit false

/-!
The order of visits.

A run traces each node that it enters once, in document order: it traces a node, and then goes into
some of its parts, from the first to the last. So what it traces is a selection from the document,
and no run is longer than its tree.
-/

namespace TigerTree

namespace Expr

variable {expr child node : Expr} {edge : Edge} {path : List Edge}

theorem Descends.mem_parts (descends : expr.Descends edge child) : (edge, child) ∈ expr.parts := by
  cases descends with
  | element present _ =>
      exact List.mem_map.mpr ⟨(child, _), List.mem_zipIdx_iff_getElem?.mpr present, rfl⟩
  | _ => simp [parts]

theorem Reaches.mem_document (reaches : expr.Reaches path node) : (path, node) ∈ expr.document := by
  induction path generalizing expr with
  | nil => exact mem_document_nil_iff.mpr (reaches_nil_iff.mp reaches).symm
  | cons edge path inductionHypothesis =>
      obtain ⟨child, descends, reaches⟩ := reaches_cons_iff.mp reaches
      exact mem_document_cons_iff.mpr ⟨child, descends.mem_parts, inductionHypothesis reaches⟩

/-- The nodes that evaluation enters, in document order. -/
def entered (expr : Expr) : List (List Edge × Expr) :=
  expr.document.filter fun found => expr.Enters found.1

theorem mem_entered_iff : (path, node) ∈ expr.entered ↔ expr.Reaches path node := by
  rw [entered, List.mem_filter, decide_eq_true_eq]
  constructor
  · rintro ⟨mem, enters⟩
    exact ⟨enters, at?_of_mem_document mem⟩
  · intro reaches
    exact ⟨reaches.mem_document, reaches.1⟩

theorem filter_under (present : expr.child? edge = some child) (nodes : List (List Edge × Expr)) :
    (under edge nodes).filter (fun found => expr.Enters found.1) =
      if expr.EntersChild edge then under edge (nodes.filter fun found => child.Enters found.1)
      else [] := by
  rw [under, List.filter_map]
  by_cases enters : expr.EntersChild edge
  · rw [if_pos enters, under]
    refine congrArg (List.map _) (List.filter_congr ?_)
    intro found _
    simp [enters_cons_iff present, enters]
  · rw [if_neg enters, List.map_eq_nil_iff, List.filter_eq_nil_iff]
    intro found _
    simp [enters_cons_iff present, enters]

/-- A node is entered before the nodes in those of its parts that are entered. -/
theorem entered_eq (expr : Expr) :
    expr.entered = ([], expr) :: expr.parts.flatMap fun part =>
      if expr.EntersChild part.1 then under part.1 part.2.entered else [] := by
  have root : expr.Enters [] := trivial
  rw [entered, document_eq, List.filter_cons, if_pos (decide_eq_true root), List.filter_flatMap]
  refine congrArg (([], expr) :: ·) (List.flatMap_congr ?_)
  rintro ⟨edge, child⟩ mem
  exact filter_under (child?_of_mem_parts mem) child.document

/-- A part that is entered has a value if the node has. -/
theorem Descends.succeeds (descends : expr.Descends edge child)
    (succeeds : (evaluate expr).Succeeds) : (evaluate child).Succeeds := by
  cases outcome : (evaluate child).result with
  | ok value => exact ⟨value, outcome⟩
  | error error =>
      have failed := (descends.endsAs outcome).result_eq.trans outcome
      exact absurd succeeds (Run.not_succeeds_of_error failed)

theorem succeeds_of_element {exprs : List Expr}
    (succeeds : (evaluate (sequence exprs)).Succeeds) {index : Nat}
    (present : exprs[index]? = some child) : (evaluate child).Succeeds := by
  induction index using Nat.strongRecOn generalizing child with
  | ind index inductionHypothesis =>
      refine Descends.succeeds (.element present ?_) succeeds
      intro earlier mem
      obtain ⟨index', present'⟩ := List.mem_iff_getElem?.mp mem
      rw [List.getElem?_take] at present'
      split at present'
      next before => exact inductionHypothesis index' before present'
      next => cases present'

/-- A node that has a value and no branches has gone into all of its parts. -/
theorem descends_of_succeeds (succeeds : (evaluate expr).Succeeds)
    (unbranched : expr.kind ≠ .ifThenElse) (mem : (edge, child) ∈ expr.parts) :
    expr.Descends edge child := by
  cases expr with
  | binaryOperator op left right =>
      have entersLeft : (binaryOperator op left right).Descends .left left := .left
      have leftSucceeds := entersLeft.succeeds succeeds
      simp only [parts, List.mem_cons, Prod.mk.injEq, List.not_mem_nil, or_false] at mem
      rcases mem with ⟨rfl, rfl⟩ | ⟨rfl, rfl⟩
      · exact .left
      · exact .right leftSucceeds
  | sequence exprs =>
      obtain ⟨⟨element, index⟩, listed, same⟩ := List.mem_map.mp mem
      cases same
      refine .element (List.mem_zipIdx_iff_getElem?.mp listed) ?_
      intro earlier earlierMem
      obtain ⟨index', present⟩ := List.mem_iff_getElem?.mp (List.mem_of_mem_take earlierMem)
      exact succeeds_of_element succeeds present
  | ifThenElse => exact absurd rfl unbranched
  | _ => cases mem

/-- A tree that has a value and no branches is entered everywhere. -/
theorem enters_of_mem_document (succeeds : (evaluate expr).Succeeds)
    (unbranched : ∀ found ∈ expr.document, found.2.kind ≠ .ifThenElse)
    (mem : (path, node) ∈ expr.document) : expr.Enters path := by
  induction path generalizing expr with
  | nil => trivial
  | cons edge path inductionHypothesis =>
      obtain ⟨child, part, mem⟩ := mem_document_cons_iff.mp mem
      have root := unbranched _ (mem_document_nil_iff.mpr rfl)
      have descends := descends_of_succeeds succeeds root part
      obtain ⟨enters, present⟩ := descends_iff.mp descends
      refine ⟨enters, child, present, inductionHypothesis (descends.succeeds succeeds) ?_ mem⟩
      rintro ⟨path', node'⟩ mem'
      exact unbranched (edge :: path', node') (mem_document_cons_iff.mpr ⟨child, part, mem'⟩)

theorem entered_eq_document (succeeds : (evaluate expr).Succeeds)
    (unbranched : ∀ found ∈ expr.document, found.2.kind ≠ .ifThenElse) :
    expr.entered = expr.document := by
  rw [entered, List.filter_eq_self]
  rintro ⟨path, node⟩ mem
  simpa only [decide_eq_true_eq] using enters_of_mem_document succeeds unbranched mem

end Expr

namespace Run

variable {run : Run} {next : Int32 → Run}

/-- The trace events of a run. -/
def traces (run : Run) : List Event := run.events.filter fun event => event.level = .trace

theorem traces_entering (kind : NodeKind) (run : Run) :
    (run.entering kind).traces = .evaluating kind :: run.traces := by
  simp [traces, entering, after, Event.level]

/-- What comes after a run is traced if the run has a value. -/
theorem traces_andThen {traced : List Event}
    (same : ∀ value, run.result = .ok value → (next value).traces = traced) :
    (run.andThen next).traces = run.traces ++ if run.Succeeds then traced else [] := by
  cases outcome : run.result with
  | ok value =>
      rw [andThen_of_ok outcome, if_pos ⟨value, outcome⟩, ← same value outcome]
      simp [traces, after]
  | error error =>
      rw [andThen_of_error outcome, if_neg (not_succeeds_of_error outcome), List.append_nil]

end Run

theorem BinaryOp.traces_run (op : BinaryOp) (left right : Int32) :
    (op.run left right).traces = [] := by
  cases op with
  | div =>
      by_cases zero : right = 0 <;> simp [run, apply, zero, Run.traces, Event.level]
  | _ => rfl

theorem traces_elements_cons (first : Expr) (following : List Expr) :
    (evaluateElements (first :: following)).traces =
      (evaluate first).traces ++
        if (evaluate first).Succeeds then (evaluateElements following).traces else [] := by
  by_cases last : following = []
  · subst last
    exact (List.append_nil _).symm.trans (congrArg _ (ite_self []).symm)
  · rw [evaluateElements_cons first last, Run.traces_andThen fun _ _ => rfl]

/-- The elements of a sequence run up to the first one that fails. -/
theorem traces_elements (exprs : List Expr) :
    (evaluateElements exprs).traces = exprs.zipIdx.flatMap fun (element : Expr × Nat) =>
      if ∀ earlier ∈ exprs.take element.2, (evaluate earlier).Succeeds then
        (evaluate element.1).traces
      else [] := by
  induction exprs with
  | nil => rfl
  | cons first following inductionHypothesis =>
      rw [traces_elements_cons, inductionHypothesis, List.zipIdx_cons, List.zipIdx_succ,
        List.flatMap_cons, List.flatMap_map]
      by_cases succeeds : (evaluate first).Succeeds <;> simp [succeeds]

/-- A node is traced, and then its parts that are entered. -/
theorem traces_evaluate (expr : Expr) :
    (evaluate expr).traces = .evaluating expr.kind ::
      expr.parts.flatMap fun part =>
        if expr.EntersChild part.1 then (evaluate part.2).traces else [] := by
  cases expr using Expr.casesEvaluable with
  | integerLiteral value =>
      rw [evaluate_integerLiteral]
      rfl
  | binaryOperator op left right =>
      rw [evaluate_binaryOperator, Run.traces_entering, Run.traces_andThen fun leftValue _ =>
        Run.traces_andThen fun rightValue _ => op.traces_run leftValue rightValue]
      have entersLeft : (Expr.binaryOperator op left right).EntersChild .left := trivial
      rw [ite_self, List.append_nil, Expr.parts, List.flatMap_cons, List.flatMap_singleton,
        if_pos entersLeft]
      rfl
  | sequence exprs =>
      rw [evaluate_sequence, Run.traces_entering, traces_elements, Expr.parts, List.flatMap_map]
      rfl
  | ifThenElse condition thenPart elsePart =>
      rw [evaluate_ifThenElse, Run.traces_entering]
      cases outcome : (evaluate condition).result with
      | ok value =>
          rw [Run.andThen_of_ok outcome]
          by_cases zero : value = 0 <;>
            simp [Expr.parts, Expr.EntersChild, outcome, zero, Expr.kind, Run.traces, Run.after]
      | error error =>
          rw [Run.andThen_of_error outcome]
          simp [Expr.parts, Expr.EntersChild, outcome, Expr.kind]
  | unsupported expr unsupported =>
      rw [evaluate_unsupported unsupported, Expr.parts_of_unsupported unsupported]
      rfl

namespace Expr

/-- The kinds of nodes in a list. -/
def kinds (nodes : List (List Edge × Expr)) : List NodeKind := nodes.map fun found => found.2.kind

theorem kinds_under (edge : Edge) (nodes : List (List Edge × Expr)) :
    kinds (under edge nodes) = kinds nodes := by
  rw [kinds, under, List.map_map]
  rfl

theorem kinds_entered (expr : Expr) :
    kinds expr.entered = expr.kind :: expr.parts.flatMap fun part =>
      if expr.EntersChild part.1 then kinds part.2.entered else [] := by
  rw [entered_eq, kinds, List.map_cons, List.map_flatMap]
  refine congrArg (expr.kind :: ·) (List.flatMap_congr ?_)
  intro part _
  split
  next => exact kinds_under part.1 part.2.entered
  next => rfl

/-- A run traces the nodes that are entered, in document order. -/
theorem traces_eq (expr : Expr) :
    (evaluate expr).traces = (kinds expr.entered).map .evaluating := by
  induction expr using document.induct with
  | case1 expr inductionHypothesis =>
      rw [traces_evaluate, kinds_entered, List.map_cons, List.map_flatMap]
      refine congrArg (Event.evaluating expr.kind :: ·) (List.flatMap_congr ?_)
      intro part mem
      rw [inductionHypothesis part mem, apply_ite (List.map _), List.map_nil]

theorem kinds_entered_sublist (expr : Expr) : (kinds expr.entered).Sublist (kinds expr.document) :=
  List.filter_sublist.map _

theorem length_traces_le (expr : Expr) : (evaluate expr).traces.length ≤ expr.size := by
  rw [traces_eq, List.length_map]
  calc (kinds expr.entered).length
    _ ≤ (kinds expr.document).length := expr.kinds_entered_sublist.length_le
    _ = expr.document.length := List.length_map _
    _ ≤ expr.size := expr.length_document_le

end Expr

/-- The trace of a tree has the kinds of the nodes that are entered, each node once and in document
order, so it is a selection from the document. It is all of the document if the tree has a value and
no branches, and it is never longer than the tree. -/
theorem traces_in_document_order (expr : Expr) :
    (evaluate expr).traces = (Expr.kinds expr.entered).map .evaluating ∧
      (∀ path node, (path, node) ∈ expr.entered ↔ expr.Reaches path node) ∧
      (expr.entered.map Prod.fst).Nodup ∧
      (Expr.kinds expr.entered).Sublist (Expr.kinds expr.document) ∧
      ((evaluate expr).Succeeds → (∀ found ∈ expr.document, found.2.kind ≠ .ifThenElse) →
        Expr.kinds expr.entered = Expr.kinds expr.document) ∧
      (evaluate expr).traces.length ≤ expr.size := by
  refine ⟨expr.traces_eq, fun _ _ => Expr.mem_entered_iff, ?_, expr.kinds_entered_sublist, ?_,
    expr.length_traces_le⟩
  · exact (List.filter_sublist.map _).nodup expr.nodup_document
  · intro succeeds unbranched
    rw [Expr.entered_eq_document succeeds unbranched]

/-- Nothing is left out of a sum of a sequence and a literal. -/
theorem traces_in_document_order_sum :
    (evaluate (.binaryOperator .add (.sequence [.integerLiteral 1, .integerLiteral 2])
        (.integerLiteral 3))).traces =
      [.evaluating .binaryOperator, .evaluating .sequence, .evaluating .integerLiteral,
        .evaluating .integerLiteral, .evaluating .integerLiteral] := by
  have document : Expr.kinds (Expr.binaryOperator .add
      (.sequence [.integerLiteral 1, .integerLiteral 2]) (.integerLiteral 3)).document =
        [.binaryOperator, .sequence, .integerLiteral, .integerLiteral, .integerLiteral] := by
    have literal (value : Int32) : (Expr.integerLiteral value).document =
        [([], .integerLiteral value)] := Expr.document_eq _
    rw [Expr.document_eq]
    simp [Expr.kinds, Expr.parts, Expr.under, Expr.kind, Expr.document_eq (.sequence _), literal]
  obtain ⟨traces, -, -, -, everything, -⟩ := traces_in_document_order (.binaryOperator .add
    (.sequence [.integerLiteral 1, .integerLiteral 2]) (.integerLiteral 3))
  rw [traces, everything, document]
  · rfl
  · exact ⟨5, by cbv⟩
  · intro found mem
    have listed : found.2.kind ∈ Expr.kinds _ := List.mem_map_of_mem mem
    rw [document] at listed
    rintro same
    simp [same] at listed

end TigerTree
