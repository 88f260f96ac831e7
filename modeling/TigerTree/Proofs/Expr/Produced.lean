import TigerTree.Expr.Construct
import TigerTree.Proofs.Evaluation.Normalized

set_option autoImplicit false

/-!
Where trees come from.

A tree is read from a source, or it is put together by constructors, from parts that come from
either. Both put the operators in normal form: a source gives no more of an operator than its
symbol, and the constructor of operations normalizes what it is given. So such a tree is read back
from its encoding as it was, and it never fails at a known symbol.
-/

namespace TigerTree

namespace Json

def Rule.Satisfiable (rule : Rule) : Prop := ∃ written, rule written

/-- A field can be given or left out. -/
def Field.Possible (field : Field) : Prop := field.rule.Satisfiable ∨ field.implied

variable {rule : Rule} {name : String} {implied : Prop}

@[simp]
theorem Field.possible_required : (required name rule).Possible ↔ rule.Satisfiable :=
  or_iff_left id

@[simp]
theorem Field.possible_optional :
    (Field.optional name rule implied).Possible ↔ rule.Satisfiable ∨ implied := Iff.rfl

theorem Field.possible_of_inOrder {fields : List Field} {items : List Written}
    (inOrder : InOrder fields items) : ∀ field ∈ fields, field.Possible := by
  induction fields generalizing items with
  | nil => simp
  | cons field fields inductionHypothesis =>
      cases items with
      | nil =>
          intro field mem
          exact .inr (inOrder_nil_iff.mp inOrder field mem)
      | cons item items =>
          obtain ⟨given, inOrder⟩ := inOrder
          exact List.forall_mem_cons.mpr ⟨.inl ⟨item, given⟩, inductionHypothesis inOrder⟩

theorem possible_of_record {fields : List Field} (satisfiable : (Rule.record fields).Satisfiable) :
    ∀ field ∈ fields, field.Possible := by
  obtain ⟨written, obeys⟩ := satisfiable
  cases written with
  | object members =>
      obtain ⟨named, _, among⟩ := obeys
      intro field mem
      rcases among field mem with ⟨value, _, given⟩ | ⟨implied, _⟩
      · exact .inl ⟨value, given⟩
      · exact .inr implied
  | array items => exact Field.possible_of_inOrder obeys
  | _ => exact obeys.elim

theorem satisfiable_of_node {kind : NodeKind} (satisfiable : (Rule.node kind rule).Satisfiable) :
    rule.Satisfiable := by
  obtain ⟨written, obeys⟩ := satisfiable
  obtain ⟨_, value, _, _, obeys⟩ := Decode.exists_of_node obeys
  exact ⟨value, obeys⟩

theorem possible_of_node {kind : NodeKind} {fields : List Field}
    (satisfiable : (Rule.node kind (Rule.record fields)).Satisfiable) :
    ∀ field ∈ fields, field.Possible :=
  possible_of_record (satisfiable_of_node satisfiable)

theorem satisfiable_of_array {rules : List Rule} (satisfiable : (Rule.array rules).Satisfiable) :
    ∀ rule ∈ rules, rule.Satisfiable := by
  obtain ⟨written, obeys⟩ := satisfiable
  cases written with
  | array items =>
      change List.Forall₂ _ rules items at obeys
      induction obeys with
      | nil => simp
      | cons given _ inductionHypothesis =>
          exact List.forall_mem_cons.mpr ⟨⟨_, given⟩, inductionHypothesis⟩
  | _ => exact obeys.elim

theorem satisfiable_of_optional (satisfiable : (Rule.optional (some rule)).Satisfiable) :
    rule.Satisfiable := by
  obtain ⟨written, _, obeys⟩ := satisfiable
  exact ⟨written, obeys⟩

theorem not_hides_of_operator {op : BinaryOp} (satisfiable : (Rule.operator op).Satisfiable) :
    ¬ op.Hides := by
  obtain ⟨written, obeys⟩ := satisfiable
  cases written with
  | text pieces =>
      obtain ⟨symbol, _, rfl⟩ := obeys
      exact BinaryOp.not_hides_ofSymbol symbol
  | _ => exact obeys.elim

end Json

namespace Expr

open Json (Rule possible_of_record possible_of_node satisfiable_of_node satisfiable_of_array
  satisfiable_of_optional not_hides_of_operator)

mutual

theorem not_hides_of_satisfiable : (expr : Expr) → (Rule.ofExpr expr).Satisfiable →
    ∀ op ∈ expr.operators, ¬ op.Hides
  | integerLiteral _, _ | stringLiteral _, _ | identifier _, _ | breakOut, _ => by
      simp [operators]
  | binaryOperator op left right, satisfiable => by
      have possible := possible_of_node satisfiable
      simp only [List.forall_mem_cons, Json.Field.possible_required] at possible
      obtain ⟨operator, leftSatisfiable, rightSatisfiable, -⟩ := possible
      rw [operators, List.forall_mem_cons, List.forall_mem_append]
      exact ⟨not_hides_of_operator operator, not_hides_of_satisfiable left leftSatisfiable,
        not_hides_of_satisfiable right rightSatisfiable⟩
  | sequence exprs, satisfiable => by
      have possible := possible_of_node satisfiable
      simp only [List.forall_mem_cons, Json.Field.possible_required] at possible
      rw [operators]
      exact not_hides_of_satisfiable_all exprs (satisfiable_of_array possible.1)
  | ifThenElse condition thenPart elsePart, satisfiable => by
      have possible := possible_of_node satisfiable
      simp only [List.forall_mem_cons, Json.Field.possible_required] at possible
      obtain ⟨conditionSatisfiable, thenSatisfiable, elseSatisfiable, -⟩ := possible
      rw [operators, List.forall_mem_append, List.forall_mem_append]
      exact ⟨not_hides_of_satisfiable condition conditionSatisfiable,
        not_hides_of_satisfiable thenPart thenSatisfiable,
        not_hides_of_satisfiable elsePart elseSatisfiable⟩
  | letIn decls body, satisfiable => by
      have possible := possible_of_node satisfiable
      simp only [List.forall_mem_cons, Json.Field.possible_required] at possible
      obtain ⟨declsSatisfiable, bodySatisfiable, -⟩ := possible
      have bodyPossible := possible_of_record bodySatisfiable
      simp only [List.forall_mem_cons, Json.Field.possible_required] at bodyPossible
      rw [operators, List.forall_mem_append]
      exact ⟨not_hides_of_satisfiable_all decls (satisfiable_of_array declsSatisfiable),
        not_hides_of_satisfiable_all body (satisfiable_of_array bodyPossible.1)⟩
  | varDecl decl, satisfiable => by
      rw [operators]
      exact not_hides_of_satisfiable_decl decl (satisfiable_of_node satisfiable)
  | funDecl name params typeName body, satisfiable => by
      have possible := possible_of_node satisfiable
      simp only [List.forall_mem_cons, Json.Field.possible_required,
        Json.Field.possible_optional] at possible
      obtain ⟨-, paramsPossible, -, bodySatisfiable, -⟩ := possible
      rw [operators, List.forall_mem_append]
      refine ⟨?_, not_hides_of_satisfiable body bodySatisfiable⟩
      rcases paramsPossible with paramsSatisfiable | rfl
      · exact not_hides_of_satisfiable_decls params (satisfiable_of_array paramsSatisfiable)
      · simp [operatorsDecls]
  | funCall name args, satisfiable => by
      have possible := possible_of_node satisfiable
      simp only [List.forall_mem_cons, Json.Field.possible_required,
        Json.Field.possible_optional] at possible
      obtain ⟨-, argsPossible, -⟩ := possible
      rw [operators]
      rcases argsPossible with argsSatisfiable | rfl
      · exact not_hides_of_satisfiable_all args (satisfiable_of_array argsSatisfiable)
      · simp [operatorsAll]
  | whileLoop condition body, satisfiable => by
      have possible := possible_of_node satisfiable
      simp only [List.forall_mem_cons, Json.Field.possible_required] at possible
      obtain ⟨conditionSatisfiable, bodySatisfiable, -⟩ := possible
      rw [operators, List.forall_mem_append]
      exact ⟨not_hides_of_satisfiable condition conditionSatisfiable,
        not_hides_of_satisfiable body bodySatisfiable⟩
  | forLoop counter low high body, satisfiable => by
      have possible := possible_of_node satisfiable
      simp only [List.forall_mem_cons, Json.Field.possible_required] at possible
      obtain ⟨-, lowSatisfiable, highSatisfiable, bodySatisfiable, -⟩ := possible
      rw [operators, List.forall_mem_append, List.forall_mem_append]
      exact ⟨not_hides_of_satisfiable low lowSatisfiable,
        not_hides_of_satisfiable high highSatisfiable,
        not_hides_of_satisfiable body bodySatisfiable⟩
  | assign target value, satisfiable => by
      have possible := possible_of_node satisfiable
      simp only [List.forall_mem_cons, Json.Field.possible_required] at possible
      rw [operators]
      exact not_hides_of_satisfiable value possible.2.1

theorem not_hides_of_satisfiable_all : (exprs : List Expr) →
    (∀ rule ∈ Rule.ofExprs exprs, rule.Satisfiable) → ∀ op ∈ operatorsAll exprs, ¬ op.Hides
  | [], _ => by simp [operatorsAll]
  | expr :: exprs, satisfiable => by
      rw [Rule.ofExprs, List.forall_mem_cons] at satisfiable
      rw [operatorsAll, List.forall_mem_append]
      exact ⟨not_hides_of_satisfiable expr satisfiable.1,
        not_hides_of_satisfiable_all exprs satisfiable.2⟩

theorem not_hides_of_satisfiable_decl : (decl : VarDecl Expr) → (Rule.ofDecl decl).Satisfiable →
    ∀ op ∈ operatorsDecl decl, ¬ op.Hides
  | ⟨_, _, none⟩, _ => by simp [operatorsDecl, operatorsInit]
  | ⟨name, typeName, some init⟩, satisfiable => by
      have possible := possible_of_record satisfiable
      simp only [List.forall_mem_cons, Json.Field.possible_required,
        Json.Field.possible_optional, Rule.ofInit, reduceCtorEq, or_false] at possible
      rw [operatorsDecl, operatorsInit]
      exact not_hides_of_satisfiable init (satisfiable_of_optional possible.2.2.1)

theorem not_hides_of_satisfiable_decls : (decls : List (VarDecl Expr)) →
    (∀ rule ∈ Rule.ofDecls decls, rule.Satisfiable) → ∀ op ∈ operatorsDecls decls, ¬ op.Hides
  | [], _ => by simp [operatorsDecls]
  | decl :: decls, satisfiable => by
      rw [Rule.ofDecls, List.forall_mem_cons] at satisfiable
      rw [operatorsDecls, List.forall_mem_append]
      exact ⟨not_hides_of_satisfiable_decl decl satisfiable.1,
        not_hides_of_satisfiable_decls decls satisfiable.2⟩

end

theorem not_hides_of_decode {source : String} {expr : Expr} (decoded : decode source = .ok expr) :
    ∀ op ∈ expr.operators, ¬ op.Hides := by
  obtain ⟨_, written, _, _, _, _, obeys⟩ := decode_sound decoded
  exact expr.not_hides_of_satisfiable ⟨written, obeys⟩

/-- A tree comes from a source or from constructors. An operation may be given any operator, and
the parameters of a function may have a type and an initial value or none. -/
inductive Produced : Expr → Prop where
  | decoded {source expr} : decode source = .ok expr → Produced expr
  | integerLiteral {value} : Produced (.integerLiteral value)
  | stringLiteral {value} : Produced (.stringLiteral value)
  | binary {op left right} : Produced left → Produced right → Produced (.binary op left right)
  | sequence {exprs} : (∀ expr ∈ exprs, Produced expr) → Produced (.sequence exprs)
  | ifThenElse {condition thenPart elsePart} :
      Produced condition → Produced thenPart → Produced elsePart →
      Produced (.ifThenElse condition thenPart elsePart)
  | identifier {name} : Produced (.identifier name)
  | letIn {decls body} :
      (∀ expr ∈ decls, Produced expr) → (∀ expr ∈ body, Produced expr) →
      Produced (.letIn decls body)
  | variableDecl {name init} : Produced init → Produced (.variableDecl name init)
  | functionDecl {name params body} :
      (∀ param ∈ params, ∀ init ∈ VarDecl.init param, Produced init) → Produced body →
      Produced (.functionDecl name params body)
  | funCall {name args} : (∀ expr ∈ args, Produced expr) → Produced (.funCall name args)
  | whileLoop {condition body} :
      Produced condition → Produced body → Produced (.whileLoop condition body)
  | forLoop {counter low high body} :
      Produced low → Produced high → Produced body → Produced (.forLoop counter low high body)
  | breakOut : Produced .breakOut
  | assign {target value} : Produced value → Produced (.assign target value)

theorem not_hides_of_forall {exprs : List Expr}
    (normal : ∀ expr ∈ exprs, ∀ op ∈ expr.operators, ¬ op.Hides) :
    ∀ op ∈ operatorsAll exprs, ¬ op.Hides := by
  intro op mem
  obtain ⟨expr, exprMem, mem⟩ := mem_operatorsAll_iff.mp mem
  exact normal expr exprMem op mem

theorem Produced.not_hides {expr : Expr} (produced : expr.Produced) :
    ∀ op ∈ expr.operators, ¬ op.Hides := by
  induction produced with
  | decoded decoded => exact not_hides_of_decode decoded
  | integerLiteral | stringLiteral | identifier | breakOut => simp [operators]
  | binary _ _ leftNormal rightNormal =>
      rw [Expr.binary, operators, List.forall_mem_cons, List.forall_mem_append]
      exact ⟨BinaryOp.not_hides_normalized _, leftNormal, rightNormal⟩
  | sequence _ normal | funCall _ normal => exact not_hides_of_forall normal
  | ifThenElse _ _ _ conditionNormal thenNormal elseNormal =>
      rw [operators, List.forall_mem_append, List.forall_mem_append]
      exact ⟨conditionNormal, thenNormal, elseNormal⟩
  | letIn _ _ declsNormal bodyNormal =>
      rw [operators, List.forall_mem_append]
      exact ⟨not_hides_of_forall declsNormal, not_hides_of_forall bodyNormal⟩
  | variableDecl _ normal | assign _ normal => exact normal
  | functionDecl _ _ paramsNormal bodyNormal =>
      rw [Expr.functionDecl, operators, List.forall_mem_append]
      refine ⟨?_, bodyNormal⟩
      intro op mem
      obtain ⟨param, paramMem, init, initMem, mem⟩ := mem_operatorsDecls_iff.mp mem
      exact paramsNormal param paramMem init initMem op mem
  | whileLoop _ _ conditionNormal bodyNormal =>
      rw [operators, List.forall_mem_append]
      exact ⟨conditionNormal, bodyNormal⟩
  | forLoop _ _ _ lowNormal highNormal bodyNormal =>
      rw [operators, List.forall_mem_append, List.forall_mem_append]
      exact ⟨lowNormal, highNormal, bodyNormal⟩

end Expr

/-- The encoding of the tree that a source spells. -/
def reencode (source : String) : Except DecodeError String := (decode source).map Expr.encode

namespace Expr

variable {expr : Expr}

theorem Produced.normalized_eq (produced : expr.Produced) : expr.normalized = expr :=
  expr.normalized_eq_self_iff.mpr produced.not_hides

theorem Produced.decode_encode_eq (produced : expr.Produced) : decode expr.encode = .ok expr := by
  rw [decode_encode_normalized, produced.normalized_eq]

theorem Produced.symbol_not_known (produced : expr.Produced) {op : BinaryOp}
    (failed : (evaluate expr).result = .error (.unknownOperator op)) :
    op.symbol ∉ BinaryOp.known.map BinaryOp.symbol := by
  intro known
  obtain ⟨_, _, _, symbol, _, _, rfl, _⟩ := exists_raisesAt failed
  exact not_stopsAtHidden_of_normalized produced.normalized_eq ⟨_, ⟨symbol, known, rfl⟩, failed⟩

end Expr

/-- All operators of a tree that comes from sources and constructors are in normal form. It is read
back from its encoding as it was, so to encode a source again changes nothing any more, and it does
not fail at a known symbol. -/
theorem produced_normal :
    (∀ expr : Expr, expr.Produced →
      (∀ op ∈ expr.operators, op.normalized = op) ∧ decode expr.encode = .ok expr ∧
        ∀ op, (evaluate expr).result = .error (.unknownOperator op) →
          op.symbol ∉ BinaryOp.known.map BinaryOp.symbol) ∧
      ∀ source, (reencode source).bind reencode = reencode source := by
  constructor
  · intro expr produced
    refine ⟨?_, produced.decode_encode_eq, fun _ failed => produced.symbol_not_known failed⟩
    intro op mem
    exact op.normalized_eq_self_iff.mpr (produced.not_hides op mem)
  · intro source
    unfold reencode
    cases decoded : decode source with
    | ok expr =>
        have again := (Expr.Produced.decoded decoded).decode_encode_eq
        simp [Except.map, Except.bind, again]
    | error error => rfl

theorem produced_normal_function :
    (∀ op ∈ (Expr.functionDecl "f" [⟨"x", some "int", none⟩,
        ⟨"y", none, some (.binary (.other "+") (.integerLiteral 1) (.integerLiteral 2))⟩]
          (.identifier "x")).operators, op.normalized = op) ∧
    decode (Expr.functionDecl "f" [⟨"x", some "int", none⟩,
        ⟨"y", none, some (.binary (.other "+") (.integerLiteral 1) (.integerLiteral 2))⟩]
          (.identifier "x")).encode =
      .ok (.functionDecl "f" [⟨"x", some "int", none⟩,
        ⟨"y", none, some (.binary (.other "+") (.integerLiteral 1) (.integerLiteral 2))⟩]
          (.identifier "x")) := by
  have produced : (Expr.functionDecl "f" [⟨"x", some "int", none⟩,
      ⟨"y", none, some (.binary (.other "+") (.integerLiteral 1) (.integerLiteral 2))⟩]
        (.identifier "x")).Produced := by
    refine .functionDecl ?_ .identifier
    simp only [List.forall_mem_cons, Option.mem_some_iff, forall_eq']
    exact ⟨nofun, .binary .integerLiteral .integerLiteral, nofun⟩
  obtain ⟨normal, decoded, -⟩ := produced_normal.1 _ produced
  exact ⟨normal, decoded⟩

end TigerTree
