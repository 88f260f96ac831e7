import Mathlib.Algebra.Order.BigOperators.Group.List
import Mathlib.Algebra.Order.Ring.Nat
import Mathlib.Data.List.Nodup
import TigerTree.Proofs.Expr.Replacement

set_option autoImplicit false

/-!
Document order.

The document of a tree lists its nodes in the order in which they are written, each with its
position: a node, and then the documents of its parts. It goes down through operators, sequences
and conditionals alone, since evaluation does not go into nodes of any other kind.
-/

namespace TigerTree.Expr

/-- The parts of a node that evaluation may go into, in order. -/
def parts : Expr → List (Edge × Expr)
  | binaryOperator _ left right => [(.left, left), (.right, right)]
  | sequence exprs => exprs.zipIdx.map fun element => (.element element.2, element.1)
  | ifThenElse condition thenPart elsePart =>
      [(.condition, condition), (.thenPart, thenPart), (.elsePart, elsePart)]
  | _ => []

variable {expr child node : Expr} {edge : Edge} {path : List Edge}

theorem parts_of_unsupported (unsupported : expr.kind.isEvaluable = false) : expr.parts = [] := by
  cases expr with
  | integerLiteral | binaryOperator | sequence | ifThenElse => cases unsupported
  | _ => rfl

theorem child?_of_mem_parts (mem : (edge, child) ∈ expr.parts) :
    expr.child? edge = some child := by
  cases expr with
  | binaryOperator =>
      simp only [parts, List.mem_cons, Prod.mk.injEq, List.not_mem_nil, or_false] at mem
      rcases mem with ⟨rfl, rfl⟩ | ⟨rfl, rfl⟩ <;> rfl
  | sequence exprs =>
      obtain ⟨element, listed, same⟩ := List.mem_map.mp mem
      cases same
      exact List.mem_zipIdx_iff_getElem?.mp listed
  | ifThenElse =>
      simp only [parts, List.mem_cons, Prod.mk.injEq, List.not_mem_nil, or_false] at mem
      rcases mem with ⟨rfl, rfl⟩ | ⟨rfl, rfl⟩ | ⟨rfl, rfl⟩ <;> rfl
  | _ => cases mem

theorem sizeAll_eq_sum (exprs : List Expr) : sizeAll exprs = (exprs.map size).sum := by
  induction exprs with
  | nil => rfl
  | cons expr exprs inductionHypothesis =>
      rw [sizeAll, inductionHypothesis, List.map_cons, List.sum_cons]

theorem sum_size_parts_lt (expr : Expr) :
    (expr.parts.map fun part => part.2.size).sum < expr.size := by
  cases expr with
  | sequence exprs =>
      have sizes : (sequence exprs).parts.map (fun part => part.2.size) = exprs.map size := by
        rw [parts, List.map_map]
        exact (List.map_map (f := Prod.fst)).symm.trans (by rw [List.zipIdx_map_fst])
      rw [sizes, size, sizeAll_eq_sum]
      exact Nat.lt_succ_self _
  | _ => simp [parts, size] <;> omega

theorem nodup_edges (expr : Expr) : (expr.parts.map Prod.fst).Nodup := by
  cases expr with
  | sequence exprs =>
      have edges : (sequence exprs).parts.map Prod.fst =
          (List.range' 0 exprs.length).map Edge.element := by
        rw [← List.zipIdx_map_snd, parts, List.map_map, List.map_map]
        rfl
      rw [edges]
      exact (List.nodup_range' 1).map fun _ _ => Edge.element.inj
  | _ => simp [parts]

theorem size_lt_of_mem_parts {part : Edge × Expr} (mem : part ∈ expr.parts) :
    part.2.size < expr.size := by
  refine Nat.lt_of_le_of_lt ?_ expr.sum_size_parts_lt
  exact List.single_le_sum (by simp) _ (List.mem_map_of_mem mem)

/-- Nodes with their positions, seen from one edge further up. -/
def under (edge : Edge) (nodes : List (List Edge × Expr)) : List (List Edge × Expr) :=
  nodes.map fun found => (edge :: found.1, found.2)

/-- A tree and all that evaluation may come to in it, in the order of the text, each node with its
position. -/
def document (expr : Expr) : List (List Edge × Expr) :=
  ([], expr) :: expr.parts.attach.flatMap fun ⟨part, _⟩ => under part.1 part.2.document
termination_by expr.size
decreasing_by exact size_lt_of_mem_parts ‹_›

theorem document_eq (expr : Expr) :
    expr.document =
      ([], expr) :: expr.parts.flatMap fun part => under part.1 part.2.document := by
  rw [document, List.flatMap_subtype (g := fun part => under part.1 part.2.document) fun _ _ => rfl,
    List.unattach_attach]

theorem mem_under_iff {nodes : List (List Edge × Expr)} {edge' : Edge} :
    (edge' :: path, node) ∈ under edge nodes ↔ edge' = edge ∧ (path, node) ∈ nodes := by
  constructor
  · intro mem
    obtain ⟨found, listed, same⟩ := List.mem_map.mp mem
    cases same
    exact ⟨rfl, listed⟩
  · rintro ⟨rfl, mem⟩
    exact List.mem_map.mpr ⟨_, mem, rfl⟩

theorem mem_document_nil_iff : ([], node) ∈ expr.document ↔ node = expr := by
  rw [document_eq]
  simp [under]

theorem mem_document_cons_iff :
    (edge :: path, node) ∈ expr.document ↔
      ∃ child, (edge, child) ∈ expr.parts ∧ (path, node) ∈ child.document := by
  rw [document_eq]
  simp [mem_under_iff]

theorem at?_of_mem_document (mem : (path, node) ∈ expr.document) : expr.at? path = some node := by
  induction path generalizing expr with
  | nil => rw [mem_document_nil_iff.mp mem, at?]
  | cons edge path inductionHypothesis =>
      obtain ⟨child, part, mem⟩ := mem_document_cons_iff.mp mem
      rw [at?_cons (child?_of_mem_parts part), inductionHypothesis mem]

theorem length_document_le (expr : Expr) : expr.document.length ≤ expr.size := by
  induction expr using document.induct with
  | case1 expr inductionHypothesis =>
      have lengths : (expr.parts.map fun part => (under part.1 part.2.document).length).sum ≤
          (expr.parts.map fun part => part.2.size).sum := by
        apply List.sum_le_sum
        intro part mem
        rw [under, List.length_map]
        exact inductionHypothesis part mem
      rw [document_eq, List.length_cons, List.length_flatMap]
      exact Nat.succ_le_of_lt (Nat.lt_of_le_of_lt lengths expr.sum_size_parts_lt)

/-- No two nodes have the same position. -/
theorem nodup_document (expr : Expr) : (expr.document.map Prod.fst).Nodup := by
  induction expr using document.induct with
  | case1 expr inductionHypothesis =>
      rw [document_eq, List.map_cons, List.map_flatMap, List.nodup_cons, List.nodup_flatMap]
      refine ⟨by simp [under], ?_, ?_⟩
      · intro part mem
        have paths : (under part.1 part.2.document).map Prod.fst =
            (part.2.document.map Prod.fst).map (part.1 :: ·) := by
          rw [under, List.map_map, List.map_map]
          rfl
        rw [paths]
        exact (inductionHypothesis part mem).map List.cons_injective
      · have edges := List.pairwise_map.mp expr.nodup_edges
        refine edges.imp ?_
        intro part part' different path mem mem'
        simp only [under, List.map_map, List.mem_map, Function.comp_apply] at mem mem'
        obtain ⟨_, -, rfl⟩ := mem
        obtain ⟨_, -, same⟩ := mem'
        exact different (List.cons.inj same).1.symm

end TigerTree.Expr
