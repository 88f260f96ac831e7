import TigerTree.Decode
import TigerTree.Proofs.Decode.Shape

set_option autoImplicit false

/-!
Trees, and whole sources.

The rule of a payload, worked out from its shape, is the rule that the kind of the node has by
name. With this the reader of trees is sound, and complete as deep as its bound goes. A source is
no deeper than it is long, so a whole source is decoded exactly if it spells a tree.
-/

namespace TigerTree

open Json (Blanks Denotes Piece Pieces Rule Value Written)

theorem Shape.empty?_list {element : Shape} {contents : List element.Content} :
    (list element).empty? = some contents ↔ contents = [] :=
  ⟨fun empty => (Option.some.inj empty).symm, fun empty => congrArg some empty.symm⟩

theorem Shape.empty?_optional {content : Shape} {value : Option content.Content} :
    (optional content).empty? = some value ↔ value = none :=
  ⟨fun empty => (Option.some.inj empty).symm, fun empty => congrArg some empty.symm⟩

namespace Fields

variable {name : String} {shape : Shape} {others : Fields} {contents : others.Content}
  {rule : Rule} {fields : List Json.Field}

theorem rules_required {content : shape.Content} (head : shape.rule content = rule)
    (tail : others.rules contents = fields) :
    (required name shape others).rules (content, contents) = .required name rule :: fields := by
  have implied : (Presence.required.default? shape = some content) = False :=
    eq_false (Option.some_ne_none content).symm
  rw [← head, ← tail, Json.Field.required, ← implied]
  rfl

theorem rules_optional {content : shape.Content} {isEmpty : Prop}
    (empty : shape.empty? = some content ↔ isEmpty) (head : shape.rule content = rule)
    (tail : others.rules contents = fields) :
    (optional name shape others).rules (content, contents) =
      .optional name rule isEmpty :: fields := by
  have implied : (Presence.optional.default? shape = some content) = isEmpty := propext empty
  rw [← head, ← tail, Json.Field.optional, ← implied]
  rfl

end Fields

namespace NodeKind

open Fields (rules_required rules_optional)

theorem rule_recordOf {kind : NodeKind} {fields : Fields} {contents : fields.Content}
    {rules : List Json.Field} (equality : fields.rules contents = rules) :
    (kind.recordOf fields).rule contents = Rule.record rules :=
  congrArg Rule.record equality

theorem rule_trees (exprs : List Expr) :
    (Shape.list .tree).rule exprs = Rule.array (Rule.ofExprs exprs) :=
  congrArg Rule.array (Rule.ofExprs_eq_map exprs).symm

theorem rule_init (init : Option Expr) :
    (Shape.optional .tree).rule init = Rule.optional (Rule.ofInit init) :=
  congrArg Rule.optional (Rule.ofInit_eq_map init).symm

theorem rule_varDeclPayload (content : varDeclPayload.Content) :
    varDeclPayload.rule content = Rule.ofDecl (declaration content) := by
  obtain ⟨name, typeName, init, ⟨⟩⟩ := content
  exact rule_recordOf
    (rules_required rfl
      (rules_optional Shape.empty?_optional rfl
        (rules_optional Shape.empty?_optional (rule_init init) rfl)))

theorem rule_declarations (contents : List varDeclPayload.Content) :
    (Shape.list varDeclPayload).rule contents =
      Rule.array (Rule.ofDecls (contents.map declaration)) := by
  have rules : contents.map varDeclPayload.rule = Rule.ofDecls (contents.map declaration) := by
    rw [Rule.ofDecls_eq_map, List.map_map]
    exact List.map_congr_left fun content _ => rule_varDeclPayload content
  exact congrArg Rule.array rules

/-- The rule of a node is that of its payload under the name of its kind. -/
theorem ofExpr_assemble (kind : NodeKind) (content : kind.payload.Content) :
    Rule.ofExpr (kind.assemble content) = Rule.node kind (kind.payload.rule content) := by
  symm
  match kind, content with
  | .integerLiteral, (value, ()) | .stringLiteral, (value, ()) | .identifier, (name, ()) =>
      exact congrArg (Rule.node _) (rule_recordOf (rules_required rfl rfl))
  | .binaryOperator, (op, left, right, ()) | .ifThenElse, (condition, thenPart, elsePart, ()) =>
      exact congrArg (Rule.node _)
        (rule_recordOf (rules_required rfl (rules_required rfl (rules_required rfl rfl))))
  | .sequence, (exprs, ()) =>
      exact congrArg (Rule.node _) (rule_recordOf (rules_required (rule_trees exprs) rfl))
  | .letIn, (decls, (body, ()), ()) =>
      exact congrArg (Rule.node _)
        (rule_recordOf
          (rules_required (rule_trees decls)
            (rules_required (rule_recordOf (rules_required (rule_trees body) rfl)) rfl)))
  | .varDecl, decl => exact congrArg (Rule.node _) (rule_varDeclPayload decl)
  | .funDecl, (name, params, typeName, body, ()) =>
      exact congrArg (Rule.node _)
        (rule_recordOf
          (rules_required rfl
            (rules_optional (Shape.empty?_list.trans List.map_eq_nil_iff.symm)
              (rule_declarations params)
              (rules_optional Shape.empty?_optional rfl (rules_required rfl rfl)))))
  | .funCall, (name, args, ()) =>
      exact congrArg (Rule.node _)
        (rule_recordOf
          (rules_required rfl (rules_optional Shape.empty?_list (rule_trees args) rfl)))
  | .whileLoop, (condition, body, ()) =>
      exact congrArg (Rule.node _) (rule_recordOf (rules_required rfl (rules_required rfl rfl)))
  | .forLoop, (counter, low, high, body, ()) =>
      exact congrArg (Rule.node _)
        (rule_recordOf
          (rules_required rfl (rules_required rfl (rules_required rfl (rules_required rfl rfl)))))
  | .breakOut, () => rfl
  | .assign, ((target, ()), value, ()) =>
      exact congrArg (Rule.node _)
        (rule_recordOf
          (rules_required (rule_recordOf (rules_required rfl rfl)) (rules_required rfl rfl)))

theorem payload_distinct (kind : NodeKind) : kind.payload.Distinct := by
  cases kind
  all_goals
    simp [payload, recordOf, sequencePayload, varDeclPayload, identifierPayload, Shape.Distinct,
      Fields.Distinct, Fields.names, Fields.required, Fields.optional]

theorem exists_declaration (decl : VarDecl Expr) :
    ∃ content, declaration content = decl :=
  ⟨(decl.name, decl.typeName, decl.init, ()), rfl⟩

/-- Every tree is put together from the payload of its kind. -/
theorem exists_assemble (expr : Expr) :
    ∃ content : expr.kind.payload.Content, expr.kind.assemble content = expr := by
  cases expr with
  | integerLiteral value => exact ⟨(value, ()), rfl⟩
  | stringLiteral value => exact ⟨(value, ()), rfl⟩
  | binaryOperator op left right => exact ⟨(op, left, right, ()), rfl⟩
  | sequence exprs => exact ⟨(exprs, ()), rfl⟩
  | ifThenElse condition thenPart elsePart => exact ⟨(condition, thenPart, elsePart, ()), rfl⟩
  | identifier name => exact ⟨(name, ()), rfl⟩
  | letIn decls body => exact ⟨(decls, (body, ()), ()), rfl⟩
  | varDecl decl =>
      obtain ⟨content, rfl⟩ := exists_declaration decl
      exact ⟨content, rfl⟩
  | funDecl name params typeName body =>
      obtain ⟨contents, rfl⟩ := List.map_surjective_iff.mpr exists_declaration params
      exact ⟨(name, contents, typeName, body, ()), rfl⟩
  | funCall name args => exact ⟨(name, args, ()), rfl⟩
  | whileLoop condition body => exact ⟨(condition, body, ()), rfl⟩
  | forLoop counter low high body => exact ⟨(counter, low, high, body, ()), rfl⟩
  | breakOut => exact ⟨(), rfl⟩
  | assign target value => exact ⟨((target, ()), value, ()), rfl⟩

theorem ofName?_eq_some_iff {name : String} {kind : NodeKind} :
    ofName? name = some kind ↔ kind.name = name := by
  constructor
  · intro found
    simpa using List.find?_some found
  · rintro rfl
    cases kind
    all_goals decide

end NodeKind

namespace Decode

variable {α : Type}

theorem kindName_eq_ok_iff {source rest : List Char} {kind : NodeKind} :
    kindName source = .ok kind rest ↔ readText source = .ok kind.name rest := by
  rw [kindName, Outcome.andThen_eq_ok_iff]
  constructor
  · rintro ⟨name, middle, read, named⟩
    split at named
    next found =>
      cases named
      rw [NodeKind.ofName?_eq_some_iff.mp found, read]
    next => simp at named
  · intro read
    refine ⟨kind.name, rest, read, ?_⟩
    rw [NodeKind.ofName?_eq_some_iff.mpr rfl]

/-- A kind is read from the only key of an object, or from a string. -/
theorem tagged_eq_ok_iff {payload bare : NodeKind → Reader α} {source rest : List Char}
    {value : α} :
    tagged payload bare source = .ok value rest ↔
      (∃ inside quoted kind afterKey start middle, Blanks source ('\x7b' :: inside) ∧
        Blanks inside ('"' :: quoted) ∧ readText quoted = .ok (NodeKind.name kind) afterKey ∧
        Blanks afterKey (':' :: start) ∧ payload kind start = .ok value middle ∧
        Blanks middle ('\x7d' :: rest)) ∨
      ∃ quoted kind afterName, Blanks source ('"' :: quoted) ∧
        readText quoted = .ok (NodeKind.name kind) afterName ∧
        bare kind afterName = .ok value rest := by
  constructor
  · intro read
    unfold tagged at read
    split at read
    next skipped =>
      split at read
      next skipped' =>
        simp only [Outcome.andThen_eq_ok_iff] at read
        obtain ⟨kind, afterKey, named, _, start, colon, content, middle, accepted, closed⟩ := read
        split at closed
        next skipped'' =>
          cases closed
          exact .inl ⟨_, _, kind, afterKey, start, middle, blanks_of_skipBlanks_eq skipped,
            blanks_of_skipBlanks_eq skipped', kindName_eq_ok_iff.mp named,
            colon_eq_ok_iff.mp colon, accepted, blanks_of_skipBlanks_eq skipped''⟩
        next => simp at closed
        next => simp at closed
      next => simp at read
      next => simp at read
      next => simp at read
    next skipped =>
      obtain ⟨kind, afterName, named, accepted⟩ := Outcome.andThen_eq_ok_iff.mp read
      exact .inr ⟨_, kind, afterName, blanks_of_skipBlanks_eq skipped,
        kindName_eq_ok_iff.mp named, accepted⟩
    next => simp at read
    next => simp at read
  · rintro (⟨inside, quoted, kind, afterKey, start, middle, opened, quote, named, colon, accepted,
      closed⟩ | ⟨quoted, kind, afterName, quote, named, accepted⟩)
    · have parted : Decode.colon afterKey = .ok () start := colon_eq_ok_iff.mpr colon
      simp only [tagged, skipBlanks_eq_cons opened (by decide),
        skipBlanks_eq_cons quote (by decide), kindName_eq_ok_iff.mpr named, parted, accepted,
        skipBlanks_eq_cons closed (by decide), Outcome.andThen]
    · simp only [tagged, skipBlanks_eq_cons quote (by decide), kindName_eq_ok_iff.mpr named,
        accepted, Outcome.andThen]

theorem tree_sound (bound depth : Nat) : Sound (tree bound depth) Rule.ofExpr := by
  induction depth with
  | zero =>
      intro source expr rest accepted
      simp [tree, exhausted] at accepted
  | succ depth inductionHypothesis =>
      intro source expr rest accepted
      rw [tree, tagged_eq_ok_iff] at accepted
      obtain ⟨inside, quoted, kind, afterKey, start, middle, opened, quote, named, colon, payload,
        closed⟩ | ⟨_, _, _, _, _, untagged⟩ := accepted
      · obtain ⟨content, read, rfl⟩ := Outcome.map_eq_ok_iff.mp payload
        obtain ⟨written, spelled, rule⟩ :=
          kind.payload.read_sound inductionHypothesis kind.payload_distinct read
        obtain ⟨pieces, key, denotes⟩ := readText_eq_ok_iff.mp named
        refine ⟨.object [(pieces, written)], ?_, ?_⟩
        · rw [skipBlanks_eq_cons opened (by decide)]
          exact .object (.member .opening quote (.pair key colon (blanks_skipBlanks start) spelled)
            (.close closed))
        · rw [NodeKind.ofExpr_assemble]
          exact ⟨denotes, rule⟩
      · cases untagged

theorem exists_of_node {kind : NodeKind} {payload : Rule} {written : Written}
    (rule : Rule.node kind payload written) :
    ∃ key value, written = .object [(key, value)] ∧ Denotes key kind.name.toList ∧
      payload value := by
  unfold Rule.node at rule
  split at rule
  next key value => exact ⟨key, value, rfl, rule⟩
  next => exact rule.elim

/-- An object with one member, piece by piece. -/
theorem exists_of_singleton {source rest : List Char} {key : List Piece} {value : Written}
    (spelled : Value source (.object [(key, value)]) rest) :
    ∃ inside quoted afterKey start front middle, source = '\x7b' :: inside ∧
      Blanks inside ('"' :: quoted) ∧ Pieces quoted key afterKey ∧
      Blanks afterKey (':' :: start) ∧ Blanks start front ∧ Value front value middle ∧
      Blanks middle ('\x7d' :: rest) := by
  cases spelled with
  | object members =>
      cases members with
      | member separator blanks member more =>
          cases separator
          cases member with
          | pair key colon blanks' value =>
              cases more with
              | close closed =>
                  exact ⟨_, _, _, _, _, _, rfl, blanks, key, colon, blanks', value, closed⟩
  | number number => cases number
  | negative number => cases number

theorem tree_complete {bound depth : Nat} (le : depth ≤ bound) :
    CompleteBelow depth (tree bound depth) Rule.ofExpr := by
  induction depth with
  | zero =>
      intro source expr rest written short
      exact absurd short (Nat.not_lt_zero _)
  | succ depth inductionHypothesis =>
      intro source expr rest written short spelled _ rule
      obtain ⟨content, equality⟩ := NodeKind.exists_assemble expr
      rw [← equality, NodeKind.ofExpr_assemble] at rule
      have shorter := length_skipBlanks_le source
      have opened := blanks_skipBlanks source
      generalize skipBlanks source = front at spelled shorter opened
      obtain ⟨key, value, rfl, denotes, rule⟩ := exists_of_node rule
      obtain ⟨inside, quoted, afterKey, start, front', middle, rfl, quote, key', colon, blanks,
        value', closed⟩ := exists_of_singleton spelled
      have consumed := quote.length_le
      have taken := key'.length_lt
      have parted := colon.length_le
      simp only [List.length_cons] at shorter consumed parted
      have ends : EndsAt value middle :=
        endsAt_of_not_continues (continuesNumber_of_blanks closed rfl)
      have read : expr.kind.payload.read bound (tree bound depth) start = .ok content middle := by
        refine expr.kind.payload.read_complete (Nat.le_of_succ_le le)
          (inductionHypothesis (Nat.le_of_succ_le le)) expr.kind.payload_distinct (by omega) ?_
          ends rule
        rwa [skipBlanks_eq_of_value blanks value']
      rw [tree, tagged_eq_ok_iff]
      exact .inl ⟨inside, quoted, expr.kind, afterKey, start, middle, opened, quote,
        readText_eq_ok_iff.mpr ⟨key, key', denotes⟩, colon,
        Outcome.map_eq_ok_iff.mpr ⟨content, read, equality⟩, closed⟩

theorem whole_eq_ok_iff {read : Reader α} {source : List Char} {value : α} :
    whole read source = .ok value ↔ ∃ rest, read source = .ok value rest ∧ Blanks rest [] := by
  unfold whole
  cases read source with
  | ok found rest =>
      simp only [Outcome.andThen, Outcome.ok.injEq]
      cases skipped : skipBlanks rest with
      | nil => simp [skipBlanks_eq_nil_iff.mp skipped]
      | cons char tail =>
          have notBlank : ¬ Blanks rest [] := by
            rw [← skipBlanks_eq_nil_iff, skipped]
            exact List.cons_ne_nil char tail
          simp [notBlank, failNext, failPast]
  | failed cause left => simp [Outcome.andThen]
  | refused cause rest => simp [Outcome.andThen]

end Decode

theorem decode_sound {source : String} {expr : Expr} (decoded : decode source = .ok expr) :
    expr.SpelledIn source := by
  rw [decode, Decode.whole_eq_ok_iff] at decoded
  obtain ⟨rest, accepted, closed⟩ := decoded
  obtain ⟨written, spelled, rule⟩ := Decode.tree_sound _ _ accepted
  exact ⟨_, written, rest, Decode.blanks_skipBlanks _, spelled, closed, rule⟩

theorem decode_complete {source : String} {expr : Expr} (spelledIn : expr.SpelledIn source) :
    decode source = .ok expr := by
  obtain ⟨front, written, rest, opened, spelled, closed, rule⟩ := spelledIn
  have ends : Decode.EndsAt written rest :=
    Decode.endsAt_of_not_continues (Decode.continuesNumber_of_blanks closed rfl)
  rw [decode, Decode.whole_eq_ok_iff]
  refine ⟨rest, ?_, closed⟩
  refine Decode.tree_complete (Nat.le_refl _) (Nat.lt_succ_self _) ?_ ends rule
  rwa [Decode.skipBlanks_eq_of_value opened spelled]

/-- A source is decoded to the tree that it spells, and to no other. -/
theorem decode_eq_ok_iff (source : String) (expr : Expr) :
    decode source = .ok expr ↔ expr.SpelledIn source :=
  ⟨decode_sound, decode_complete⟩

end TigerTree
