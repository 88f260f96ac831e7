import Mathlib.Data.List.Nodup
import TigerTree.Proofs.Decode.RoundTrip

set_option autoImplicit false

/-!
How payloads are encoded.

The encoding of a tree holds the payload of its kind, and the shape of the payload says what the
values in it look like. Any value that encodes a content of a shape can be read from that shape,
also in front of other text.
-/

namespace TigerTree

open Json (Gives Rule)

mutual

/-- The value encodes some content of the shape. -/
inductive Shape.Encoding : Shape → Json → Prop where
  | int32 (content : Int32) : Shape.Encoding .int32 (.number content.toInt)
  | text (content : String) : Shape.Encoding .text (.text content)
  | operator (symbol : String) : Shape.Encoding .operator (.text symbol)
  | tree (expr : Expr) : Shape.Encoding .tree (.ofExpr expr)
  | null {expectation : String} : Shape.Encoding (.null expectation) .null
  | list {element : Shape} {items : List Json} :
      (∀ item ∈ items, Shape.Encoding element item) → Shape.Encoding (.list element) (.array items)
  | absent {content : Shape} : Shape.Encoding (.optional content) .null
  | present {content : Shape} {value : Json} :
      Shape.Encoding content value → Shape.Encoding (.optional content) value
  | record {name : String} {fields : Fields} {members : List (String × Json)} :
      Fields.Encoding fields members → Shape.Encoding (.record name fields) (.object members)

inductive Fields.Encoding : Fields → List (String × Json) → Prop where
  | nil : Fields.Encoding .nil []
  | cons {name : String} {shape : Shape} {presence : Presence} {others : Fields} {value : Json}
      {members : List (String × Json)} :
      Shape.Encoding shape value → Fields.Encoding others members →
      Fields.Encoding (.cons name shape presence others) ((name, value) :: members)

end

theorem Fields.Encoding.names_eq {fields : Fields} {members : List (String × Json)}
    (encoding : fields.Encoding members) : members.map Prod.fst = fields.names :=
  match encoding with
  | .nil => rfl
  | .cons _ encoding => congrArg (_ :: ·) encoding.names_eq

theorem Fields.Distinct.nodup_names {fields : Fields} (distinct : fields.Distinct) :
    fields.names.Nodup := by
  match fields with
  | .nil => exact List.nodup_nil
  | .cons name shape presence others =>
      obtain ⟨fresh, -, distinct⟩ := distinct
      exact List.nodup_cons.mpr ⟨fresh, distinct.nodup_names⟩

theorem Fields.Encoding.nodup {fields : Fields} {members : List (String × Json)}
    (encoding : fields.Encoding members) (distinct : fields.Distinct) :
    (members.map Prod.fst).Nodup :=
  encoding.names_eq ▸ distinct.nodup_names

theorem exists_array_rule {α : Type} {rule : α → Rule} {items : List Json}
    (holds : ∀ item ∈ items, ∃ content, rule content item.toWritten) :
    ∃ contents, Rule.array (List.map rule contents) (Json.array items).toWritten := by
  induction items with
  | nil => exact ⟨[], .nil⟩
  | cons item items inductionHypothesis =>
      rw [List.forall_mem_cons] at holds
      obtain ⟨⟨content, rule⟩, holds⟩ := holds
      obtain ⟨contents, rules⟩ := inductionHypothesis holds
      exact ⟨content :: contents, .cons rule rules⟩

mutual

theorem Shape.Encoding.exists_rule {shape : Shape} {value : Json}
    (encoding : shape.Encoding value) (distinct : shape.Distinct) :
    ∃ content, shape.rule content value.toWritten := by
  match encoding with
  | .int32 content => exact ⟨content, Json.int32_written content⟩
  | .text content => exact ⟨content, Json.text_written content⟩
  | .operator symbol => exact ⟨.ofSymbol symbol, symbol, Json.denotes_pieces symbol, rfl⟩
  | .tree expr => exact ⟨expr.normalized, Json.ofExpr_written expr⟩
  | .null => exact ⟨(), trivial⟩
  | .list encodings =>
      exact exists_array_rule fun item mem => (encodings item mem).exists_rule distinct
  | .absent => exact ⟨none, rfl⟩
  | .present encoding =>
      -- A content that is written as `null` is read as none at all.
      by_cases empty : value.toWritten = .null
      · exact ⟨none, empty⟩
      · obtain ⟨content, rule⟩ := encoding.exists_rule distinct
        exact ⟨some content, empty, rule⟩
  | .record encoding =>
      obtain ⟨contents, given⟩ := encoding.exists_gives distinct
      exact ⟨contents, Json.record_written (encoding.nodup distinct) given⟩

theorem Fields.Encoding.exists_gives {fields : Fields} {members : List (String × Json)}
    (encoding : fields.Encoding members) (distinct : fields.Distinct) :
    ∃ contents, List.Forall₂ Gives (fields.rules contents) members := by
  match encoding with
  | .nil => exact ⟨(), .nil⟩
  | .cons encoding encodings =>
      obtain ⟨-, distinct, othersDistinct⟩ := distinct
      obtain ⟨content, rule⟩ := encoding.exists_rule distinct
      obtain ⟨contents, given⟩ := encodings.exists_gives othersDistinct
      exact ⟨(content, contents), .cons ⟨rfl, rule⟩ given⟩

end

/-- Of members with different keys, the one that has the name of a field gives it. -/
theorem rule_of_gives {fields : List Json.Field} {members : List (String × Json)}
    (distinct : (members.map Prod.fst).Nodup) (given : List.Forall₂ Gives fields members)
    {field : Json.Field} (fieldMem : field ∈ fields) {key : String} {value : Json}
    (mem : (key, value) ∈ members) (named : field.name = key) : field.rule value.toWritten := by
  obtain ⟨member, memberMem, sameName, rule⟩ := Json.exists_of_gives given field fieldMem
  have same := List.inj_on_of_nodup_map distinct memberMem mem (sameName.symm.trans named)
  rwa [same] at rule

namespace Json

theorem encoding_trees (exprs : List Expr) : ∀ item ∈ ofExprs exprs, Shape.tree.Encoding item := by
  induction exprs with
  | nil => simp [ofExprs]
  | cons expr exprs inductionHypothesis =>
      rw [ofExprs, List.forall_mem_cons]
      exact ⟨.tree expr, inductionHypothesis⟩

theorem encoding_optionalText (value : Option String) :
    (Shape.optional .text).Encoding (ofOptionalText value) := by
  cases value with
  | none => exact .absent
  | some value => exact .present (.text value)

theorem encoding_init (init : Option Expr) : (Shape.optional .tree).Encoding (ofInit init) := by
  cases init with
  | none => exact .absent
  | some expr => exact .present (.tree expr)

theorem encoding_decl (decl : VarDecl Expr) : NodeKind.varDeclPayload.Encoding (ofDecl decl) := by
  obtain ⟨name, typeName, init⟩ := decl
  exact .record (.cons (.text name)
    (.cons (encoding_optionalText typeName) (.cons (encoding_init init) .nil)))

theorem encoding_decls (decls : List (VarDecl Expr)) :
    ∀ item ∈ ofDecls decls, NodeKind.varDeclPayload.Encoding item := by
  induction decls with
  | nil => simp [ofDecls]
  | cons decl decls inductionHypothesis =>
      rw [ofDecls, List.forall_mem_cons]
      exact ⟨encoding_decl decl, inductionHypothesis⟩

/-- A tree is encoded as one member, its payload under the name of its kind. -/
theorem exists_payload (expr : Expr) :
    ∃ value, ofExpr expr = object [(expr.kind.name, value)] ∧ expr.kind.payload.Encoding value := by
  cases expr with
  | integerLiteral value => exact ⟨_, rfl, .record (.cons (.int32 value) .nil)⟩
  | stringLiteral value => exact ⟨_, rfl, .record (.cons (.text value) .nil)⟩
  | binaryOperator op left right =>
      exact ⟨_, rfl,
        .record (.cons (.operator op.symbol) (.cons (.tree left) (.cons (.tree right) .nil)))⟩
  | sequence exprs => exact ⟨_, rfl, .record (.cons (.list (encoding_trees exprs)) .nil)⟩
  | ifThenElse condition thenPart elsePart =>
      exact ⟨_, rfl,
        .record (.cons (.tree condition) (.cons (.tree thenPart) (.cons (.tree elsePart) .nil)))⟩
  | identifier name => exact ⟨_, rfl, .record (.cons (.text name) .nil)⟩
  | letIn decls body =>
      exact ⟨_, rfl,
        .record (.cons (.list (encoding_trees decls))
          (.cons (.record (.cons (.list (encoding_trees body)) .nil)) .nil))⟩
  | varDecl decl => exact ⟨_, rfl, encoding_decl decl⟩
  | funDecl name params typeName body =>
      exact ⟨_, rfl,
        .record (.cons (.text name)
          (.cons (.list (encoding_decls params))
            (.cons (encoding_optionalText typeName) (.cons (.tree body) .nil))))⟩
  | funCall name args =>
      exact ⟨_, rfl, .record (.cons (.text name) (.cons (.list (encoding_trees args)) .nil))⟩
  | whileLoop condition body =>
      exact ⟨_, rfl, .record (.cons (.tree condition) (.cons (.tree body) .nil))⟩
  | forLoop counter low high body =>
      exact ⟨_, rfl,
        .record (.cons (.text counter)
          (.cons (.tree low) (.cons (.tree high) (.cons (.tree body) .nil))))⟩
  | breakOut => exact ⟨_, rfl, .null⟩
  | assign target value =>
      exact ⟨_, rfl,
        .record (.cons (.record (.cons (.text target) .nil)) (.cons (.tree value) .nil))⟩

end Json

end TigerTree
