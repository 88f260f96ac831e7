import TigerTree.Assembly
import TigerTree.Proofs.Expr.Produced

set_option autoImplicit false

/-!
Trees that programs assemble.

An instruction puts a node together from the parts on the stack. If it does so by a constructor,
what it leaves on the stack could have been produced whenever what it found there could. So a
program whose instructions all do, and push nothing else, assembles only trees in normal form.
-/

namespace TigerTree

namespace Expr

/-- A tree in normal form is at least the tree of its own encoding. -/
theorem produced_iff {expr : Expr} : expr.Produced ↔ ∀ op ∈ expr.operators, ¬ op.Hides := by
  constructor
  · exact Produced.not_hides
  · intro normal
    have again : decode expr.encode = .ok expr := by
      rw [decode_encode_normalized, expr.normalized_eq_self_iff.mpr normal]
    exact .decoded again

theorem Produced.of_init {decl : VarDecl Expr} (produced : (varDecl decl).Produced) :
    ∀ init ∈ decl.init, init.Produced := by
  obtain ⟨name, typeName, _ | init⟩ := decl
  · exact fun _ mem => absurd mem (Option.not_mem_none _)
  · rintro _ ⟨⟩
    exact produced_iff.mpr produced.not_hides

end Expr

namespace Instruction

mutual

/-- An instruction that pushes a tree which could have been produced, or that puts a node together
by its constructor. -/
def Constructs : Instruction → Prop
  | push expr => expr.Produced
  | rawBinary _ => False
  | replicate _ body => ConstructAll body
  | _ => True

def ConstructAll : List Instruction → Prop
  | [] => True
  | instruction :: rest => instruction.Constructs ∧ ConstructAll rest

end

variable {stack rest : List Expr}

theorem takeTop_produced {count : Nat} {top : List Expr}
    (produced : ∀ expr ∈ stack, expr.Produced) (taken : takeTop count stack = some (top, rest)) :
    (∀ expr ∈ top, expr.Produced) ∧ ∀ expr ∈ rest, expr.Produced := by
  rw [takeTop] at taken
  split at taken
  next =>
    cases taken
    refine ⟨?_, fun expr mem => produced expr (List.mem_of_mem_drop mem)⟩
    exact fun expr mem => produced expr (List.mem_of_mem_take (List.mem_reverse.mp mem))
  next => cases taken

theorem declarations_produced {params : List Expr} {decls : List (VarDecl Expr)}
    (produced : ∀ param ∈ params, param.Produced)
    (declared : params.mapM declaration? = some decls) :
    ∀ decl ∈ decls, ∀ init ∈ decl.init, Expr.Produced init := by
  induction params generalizing decls with
  | nil =>
      cases declared
      exact fun _ mem => absurd mem List.not_mem_nil
  | cons param params inductionHypothesis =>
      obtain ⟨here, others⟩ := List.forall_mem_cons.mp produced
      rw [List.mapM_cons] at declared
      obtain ⟨decl, isDecl, declared⟩ := Option.bind_eq_some_iff.mp declared
      obtain ⟨decls, othersDeclared, ended⟩ := Option.bind_eq_some_iff.mp declared
      cases ended
      refine List.forall_mem_cons.mpr ⟨?_, inductionHypothesis others othersDeclared⟩
      cases param with
      | varDecl =>
          cases isDecl
          exact here.of_init
      | _ => cases isDecl

theorem iterate_keeps {α : Type} {property : α → Prop} {step : α → Option α}
    (keeps : ∀ {value next}, property value → step value = some next → property next)
    {count : Nat} {value next : α} (holds : property value)
    (iterated : iterate step count value = some next) : property next := by
  induction count generalizing value with
  | zero =>
      cases iterated
      exact holds
  | succ count inductionHypothesis =>
      rw [iterate] at iterated
      split at iterated
      next stepped => exact inductionHypothesis (keeps holds stepped) iterated
      next => cases iterated

mutual

theorem execute_produced (instruction : Instruction) (constructs : instruction.Constructs)
    {stack rest : List Expr} (produced : ∀ expr ∈ stack, expr.Produced)
    (executed : execute instruction stack = some rest) : ∀ expr ∈ rest, expr.Produced := by
  unfold execute at executed
  split at executed
  next expr =>
    cases executed
    exact List.forall_mem_cons.mpr ⟨constructs, produced⟩
  next op right left stack =>
    cases executed
    simp only [List.forall_mem_cons] at produced ⊢
    obtain ⟨rightProduced, leftProduced, produced⟩ := produced
    exact ⟨.binary leftProduced rightProduced, produced⟩
  next => exact constructs.elim
  next count stack =>
    obtain ⟨⟨exprs, stack⟩, taken, ended⟩ := Option.bind_eq_some_iff.mp executed
    cases ended
    obtain ⟨exprsProduced, produced⟩ := takeTop_produced produced taken
    exact List.forall_mem_cons.mpr ⟨.sequence exprsProduced, produced⟩
  next elsePart thenPart condition stack =>
    cases executed
    simp only [List.forall_mem_cons] at produced ⊢
    obtain ⟨elseProduced, thenProduced, conditionProduced, produced⟩ := produced
    exact ⟨.ifThenElse conditionProduced thenProduced elseProduced, produced⟩
  next decls body stack =>
    obtain ⟨⟨bodyExprs, stack⟩, bodyTaken, executed⟩ := Option.bind_eq_some_iff.mp executed
    obtain ⟨⟨declExprs, stack⟩, declsTaken, ended⟩ := Option.bind_eq_some_iff.mp executed
    cases ended
    obtain ⟨bodyProduced, produced⟩ := takeTop_produced produced bodyTaken
    obtain ⟨declsProduced, produced⟩ := takeTop_produced produced declsTaken
    exact List.forall_mem_cons.mpr ⟨.letIn declsProduced bodyProduced, produced⟩
  next name init stack =>
    cases executed
    obtain ⟨initProduced, produced⟩ := List.forall_mem_cons.mp produced
    exact List.forall_mem_cons.mpr ⟨.variableDecl initProduced, produced⟩
  next name params body stack =>
    obtain ⟨⟨paramExprs, stack⟩, taken, executed⟩ := Option.bind_eq_some_iff.mp executed
    obtain ⟨decls, declared, ended⟩ := Option.bind_eq_some_iff.mp executed
    cases ended
    obtain ⟨bodyProduced, produced⟩ := List.forall_mem_cons.mp produced
    obtain ⟨paramsProduced, produced⟩ := takeTop_produced produced taken
    -- The constructor takes declarations, and only what initializes them has to be produced.
    have initsProduced := declarations_produced paramsProduced declared
    exact List.forall_mem_cons.mpr ⟨.functionDecl initsProduced bodyProduced, produced⟩
  next name args stack =>
    obtain ⟨⟨argExprs, stack⟩, taken, ended⟩ := Option.bind_eq_some_iff.mp executed
    cases ended
    obtain ⟨argsProduced, produced⟩ := takeTop_produced produced taken
    exact List.forall_mem_cons.mpr ⟨.funCall argsProduced, produced⟩
  next body condition stack =>
    cases executed
    simp only [List.forall_mem_cons] at produced ⊢
    obtain ⟨bodyProduced, conditionProduced, produced⟩ := produced
    exact ⟨.whileLoop conditionProduced bodyProduced, produced⟩
  next counter body high low stack =>
    cases executed
    simp only [List.forall_mem_cons] at produced ⊢
    obtain ⟨bodyProduced, highProduced, lowProduced, produced⟩ := produced
    exact ⟨.forLoop lowProduced highProduced bodyProduced, produced⟩
  next target value stack =>
    cases executed
    obtain ⟨valueProduced, produced⟩ := List.forall_mem_cons.mp produced
    exact List.forall_mem_cons.mpr ⟨.assign valueProduced, produced⟩
  next expr stack =>
    cases executed
    obtain ⟨exprProduced, -⟩ := List.forall_mem_cons.mp produced
    exact List.forall_mem_cons.mpr ⟨exprProduced, produced⟩
  next first second stack =>
    cases executed
    simp only [List.forall_mem_cons] at produced ⊢
    obtain ⟨firstProduced, secondProduced, produced⟩ := produced
    exact ⟨secondProduced, firstProduced, produced⟩
  next count body =>
    exact iterate_keeps (fun kept stepped => executeAll_produced body constructs kept stepped)
      produced executed
  next => cases executed

theorem executeAll_produced (program : List Instruction) (constructs : ConstructAll program)
    {stack rest : List Expr} (produced : ∀ expr ∈ stack, expr.Produced)
    (executed : executeAll program stack = some rest) : ∀ expr ∈ rest, expr.Produced := by
  match program with
  | [] =>
      cases executed
      exact produced
  | instruction :: program =>
      rw [executeAll] at executed
      split at executed
      next stepped =>
        exact executeAll_produced program constructs.2
          (execute_produced instruction constructs.1 produced stepped) executed
      next => cases executed

end

end Instruction

theorem produced_of_assemble {program : List Instruction} {expr : Expr}
    (constructs : Instruction.ConstructAll program) (assembled : assemble program = some expr) :
    expr.Produced := by
  rw [assemble] at assembled
  split at assembled
  next executed =>
    cases assembled
    exact Instruction.executeAll_produced program constructs
      (fun _ mem => absurd mem List.not_mem_nil) executed expr List.mem_cons_self
  next => cases assembled

end TigerTree
