import TigerTree.Json.Encoding
import TigerTree.Proofs.Decode.Tree
import TigerTree.Proofs.Expr.Normalized
import TigerTree.Proofs.Json.Writing

set_option autoImplicit false

/-!
Encoded trees, read back.

The encoding of a tree is a value that the rule of the normalized tree allows, so it is decoded to
that tree. Normalizing a tree does not change its encoding.
-/

namespace TigerTree

open Json (Named Rule Written membersWritten itemsWritten)

namespace Json

theorem named_membersWritten (members : List (String × Json)) :
    Named (membersWritten members) (members.map fun member => (member.1, member.2.toWritten)) := by
  induction members with
  | nil => exact .nil
  | cons member members inductionHypothesis =>
      exact .cons ⟨denotes_pieces member.1, rfl⟩ inductionHypothesis

/-- A key that occurs once is that of one member. -/
theorem filter_eq_singleton {α : Type} {members : List (String × α)}
    (distinct : (members.map Prod.fst).Nodup) {member : String × α} (mem : member ∈ members) :
    members.filter (fun other => other.1 = member.1) = [member] := by
  induction members with
  | nil => simp at mem
  | cons first members inductionHypothesis =>
      rw [List.map_cons, List.nodup_cons] at distinct
      obtain ⟨fresh, distinct⟩ := distinct
      rcases List.mem_cons.mp mem with rfl | mem
      · have noOther : members.filter (fun other => other.1 = member.1) = [] := by
          rw [List.filter_eq_nil_iff]
          intro other otherMem same
          exact fresh (List.mem_map.mpr ⟨other, otherMem, of_decide_eq_true same⟩)
        simp [noOther]
      · have different : first.1 ≠ member.1 := fun same =>
          fresh (same ▸ List.mem_map_of_mem mem)
        simp [different, inductionHypothesis distinct mem]

/-- A member has the name of a field and holds what the field has to be. -/
def Gives (field : Field) (member : String × Json) : Prop :=
  field.name = member.1 ∧ field.rule member.2.toWritten

theorem exists_of_gives {fields : List Field} {members : List (String × Json)}
    (given : List.Forall₂ Gives fields members) :
    ∀ field ∈ fields, ∃ member ∈ members, Gives field member := by
  induction given with
  | nil => simp
  | cons gives _ inductionHypothesis =>
      rw [List.forall_mem_cons]
      refine ⟨⟨_, List.mem_cons_self, gives⟩, ?_⟩
      intro field mem
      obtain ⟨member, memberMem, gives⟩ := inductionHypothesis field mem
      exact ⟨member, List.mem_cons_of_mem _ memberMem, gives⟩

/-- An object with one member for each field of a record is such a record. -/
theorem record_written {fields : List Field} {members : List (String × Json)}
    (distinct : (members.map Prod.fst).Nodup) (given : List.Forall₂ Gives fields members) :
    Rule.record fields (object members).toWritten := by
  refine ⟨_, named_membersWritten members, ?_⟩
  intro field mem
  left
  obtain ⟨⟨name, value⟩, member, rfl, rule⟩ := exists_of_gives given field mem
  refine ⟨value.toWritten, ?_, rule⟩
  have written := List.mem_map_of_mem (f := fun member => (member.1, toWritten member.2)) member
  have sameNames : (members.map fun member => (member.1, toWritten member.2)).map Prod.fst =
      members.map Prod.fst := by
    rw [List.map_map]
    rfl
  exact filter_eq_singleton (sameNames ▸ distinct) written

theorem node_written {kind : NodeKind} {fields : List Field} {members : List (String × Json)}
    (record : Rule.record fields (object members).toWritten) :
    Rule.node kind (Rule.record fields) (node kind members).toWritten :=
  ⟨denotes_pieces kind.name, record⟩

theorem int32_written (value : Int32) : Rule.int32 value (number value.toInt).toWritten := by
  refine Decode.int32_rule.mpr ⟨?_, ?_⟩
  · intro negative
    have := of_decide_eq_true negative
    omega
  · split
    next negative =>
      have := of_decide_eq_true negative
      omega
    next positive =>
      rw [decide_eq_true_eq] at positive
      omega

theorem text_written (value : String) : Rule.text value (text value).toWritten :=
  denotes_pieces value

theorem operator_written (op : BinaryOp) :
    Rule.operator op.normalized (text op.symbol).toWritten :=
  ⟨op.symbol, denotes_pieces op.symbol, op.ofSymbol_symbol.symm⟩

theorem optionalText_written (value : Option String) :
    Rule.optional (value.map Rule.text) (ofOptionalText value).toWritten := by
  cases value with
  | none => rfl
  | some value => exact ⟨nofun, text_written value⟩

theorem Rule.ne_null_of_ofExpr {expr : Expr} {written : Written} (rule : Rule.ofExpr expr written) :
    written ≠ .null := by
  rintro rfl
  cases expr <;> exact rule

mutual

theorem ofExpr_written : (expr : Expr) → Rule.ofExpr expr.normalized (ofExpr expr).toWritten
  | .integerLiteral value =>
      node_written (record_written (by simp) (.cons ⟨rfl, int32_written value⟩ .nil))
  | .stringLiteral value =>
      node_written (record_written (by simp) (.cons ⟨rfl, text_written value⟩ .nil))
  | .binaryOperator op left right =>
      node_written (record_written (by simp)
        (.cons ⟨rfl, operator_written op⟩
          (.cons ⟨rfl, ofExpr_written left⟩ (.cons ⟨rfl, ofExpr_written right⟩ .nil))))
  | .sequence exprs =>
      node_written (record_written (by simp) (.cons ⟨rfl, ofExprs_written exprs⟩ .nil))
  | .ifThenElse condition thenPart elsePart =>
      node_written (record_written (by simp)
        (.cons ⟨rfl, ofExpr_written condition⟩
          (.cons ⟨rfl, ofExpr_written thenPart⟩ (.cons ⟨rfl, ofExpr_written elsePart⟩ .nil))))
  | .identifier name =>
      node_written (record_written (by simp) (.cons ⟨rfl, text_written name⟩ .nil))
  | .letIn decls body =>
      node_written (record_written (by simp)
        (.cons ⟨rfl, ofExprs_written decls⟩
          (.cons ⟨rfl, record_written (by simp) (.cons ⟨rfl, ofExprs_written body⟩ .nil)⟩ .nil)))
  | .varDecl decl => ⟨denotes_pieces NodeKind.varDecl.name, ofDecl_written decl⟩
  | .funDecl name params typeName body =>
      node_written (record_written (by simp)
        (.cons ⟨rfl, text_written name⟩
          (.cons ⟨rfl, ofDecls_written params⟩
            (.cons ⟨rfl, optionalText_written typeName⟩ (.cons ⟨rfl, ofExpr_written body⟩ .nil)))))
  | .funCall name args =>
      node_written (record_written (by simp)
        (.cons ⟨rfl, text_written name⟩ (.cons ⟨rfl, ofExprs_written args⟩ .nil)))
  | .whileLoop condition body =>
      node_written (record_written (by simp)
        (.cons ⟨rfl, ofExpr_written condition⟩ (.cons ⟨rfl, ofExpr_written body⟩ .nil)))
  | .forLoop counter low high body =>
      node_written (record_written (by simp)
        (.cons ⟨rfl, text_written counter⟩
          (.cons ⟨rfl, ofExpr_written low⟩
            (.cons ⟨rfl, ofExpr_written high⟩ (.cons ⟨rfl, ofExpr_written body⟩ .nil)))))
  | .breakOut => ⟨denotes_pieces NodeKind.breakOut.name, trivial⟩
  | .assign target value =>
      node_written (record_written (by simp)
        (.cons ⟨rfl, record_written (by simp) (.cons ⟨rfl, text_written target⟩ .nil)⟩
          (.cons ⟨rfl, ofExpr_written value⟩ .nil)))

theorem ofExprs_written : (exprs : List Expr) →
    List.Forall₂ (fun rule item => rule item) (Rule.ofExprs (Expr.normalizedAll exprs))
      (itemsWritten (ofExprs exprs))
  | [] => .nil
  | expr :: exprs => .cons (ofExpr_written expr) (ofExprs_written exprs)

theorem ofInit_written : (init : Option Expr) →
    Rule.optional (Rule.ofInit (Expr.normalizedInit init)) (ofInit init).toWritten
  | none => rfl
  | some expr => ⟨Rule.ne_null_of_ofExpr (ofExpr_written expr), ofExpr_written expr⟩

theorem ofDecl_written : (decl : VarDecl Expr) →
    Rule.ofDecl (Expr.normalizedDecl decl) (ofDecl decl).toWritten
  | ⟨name, typeName, init⟩ =>
      record_written (by simp)
        (.cons ⟨rfl, text_written name⟩
          (.cons ⟨rfl, optionalText_written typeName⟩ (.cons ⟨rfl, ofInit_written init⟩ .nil)))

theorem ofDecls_written : (decls : List (VarDecl Expr)) →
    List.Forall₂ (fun rule item => rule item) (Rule.ofDecls (Expr.normalizedDecls decls))
      (itemsWritten (ofDecls decls))
  | [] => .nil
  | decl :: decls => .cons (ofDecl_written decl) (ofDecls_written decls)

end

mutual

theorem ofExpr_normalized : (expr : Expr) → ofExpr expr.normalized = ofExpr expr
  | .integerLiteral _ | .stringLiteral _ | .identifier _ | .breakOut => rfl
  | .binaryOperator op left right => by
      simp only [Expr.normalized, ofExpr, op.symbol_normalized, ofExpr_normalized left,
        ofExpr_normalized right]
  | .sequence exprs => by simp only [Expr.normalized, ofExpr, ofExprs_normalized exprs]
  | .ifThenElse condition thenPart elsePart => by
      simp only [Expr.normalized, ofExpr, ofExpr_normalized condition, ofExpr_normalized thenPart,
        ofExpr_normalized elsePart]
  | .letIn decls body => by
      simp only [Expr.normalized, ofExpr, ofExprs_normalized decls, ofExprs_normalized body]
  | .varDecl decl => by simp only [Expr.normalized, ofExpr, ofDecl_normalized decl]
  | .funDecl _ params _ body => by
      simp only [Expr.normalized, ofExpr, ofDecls_normalized params, ofExpr_normalized body]
  | .funCall _ args => by simp only [Expr.normalized, ofExpr, ofExprs_normalized args]
  | .whileLoop condition body => by
      simp only [Expr.normalized, ofExpr, ofExpr_normalized condition, ofExpr_normalized body]
  | .forLoop _ low high body => by
      simp only [Expr.normalized, ofExpr, ofExpr_normalized low, ofExpr_normalized high,
        ofExpr_normalized body]
  | .assign _ value => by simp only [Expr.normalized, ofExpr, ofExpr_normalized value]

theorem ofExprs_normalized : (exprs : List Expr) →
    ofExprs (Expr.normalizedAll exprs) = ofExprs exprs
  | [] => rfl
  | expr :: exprs => by
      simp only [Expr.normalizedAll, ofExprs, ofExpr_normalized expr, ofExprs_normalized exprs]

theorem ofInit_normalized : (init : Option Expr) →
    ofInit (Expr.normalizedInit init) = ofInit init
  | none => rfl
  | some expr => by simp only [Expr.normalizedInit, ofInit, ofExpr_normalized expr]

theorem ofDecl_normalized : (decl : VarDecl Expr) →
    ofDecl (Expr.normalizedDecl decl) = ofDecl decl
  | ⟨_, _, init⟩ => by simp only [Expr.normalizedDecl, ofDecl, ofInit_normalized init]

theorem ofDecls_normalized : (decls : List (VarDecl Expr)) →
    ofDecls (Expr.normalizedDecls decls) = ofDecls decls
  | [] => rfl
  | decl :: decls => by
      simp only [Expr.normalizedDecls, ofDecls, ofDecl_normalized decl, ofDecls_normalized decls]

end

end Json

namespace Expr

theorem encode_normalized (expr : Expr) : expr.normalized.encode = expr.encode := by
  rw [encode, encode, Json.ofExpr_normalized]

theorem normalized_spelledIn_encode (expr : Expr) : expr.normalized.SpelledIn expr.encode := by
  refine ⟨_, _, [], .done, ?_, .done, Json.ofExpr_written expr⟩
  rw [encode, Json.compact, String.toList_ofList]
  exact Json.value_write [] _

end Expr

theorem decode_encode_normalized (expr : Expr) : decode expr.encode = .ok expr.normalized :=
  decode_complete expr.normalized_spelledIn_encode

/-- A tree is encoded and read back with its operators in normal form. It comes back as it was if
no operator hides a known symbol, and no two trees in normal form are encoded alike. -/
theorem decode_encode (expr : Expr) :
    decode expr.encode = .ok expr.normalized ∧
      (decode expr.encode = .ok expr ↔ ∀ op ∈ expr.operators, ¬ op.Hides) ∧
      ∀ other : Expr, expr.encode = other.encode ↔ expr.normalized = other.normalized := by
  refine ⟨decode_encode_normalized expr, ?_, ?_⟩
  · rw [decode_encode_normalized, Except.ok.injEq, expr.normalized_eq_self_iff]
  · intro other
    constructor
    · intro same
      have decoded := decode_encode_normalized expr
      rw [same, decode_encode_normalized, Except.ok.injEq] at decoded
      exact decoded.symm
    · intro same
      rw [← expr.encode_normalized, same, other.encode_normalized]

end TigerTree
