import TigerTree.Expr

set_option autoImplicit false

/-!
Shapes: what the payload of a node looks like.

Every kind has a payload shape. All but one are records, whose fields have shapes in turn. A shape
comes with the type of what is read from it, so the parts of a node, once read, fit together
without further checks.
-/

namespace TigerTree

/-- Whether a field has to be given. One that has not is empty when it is left out. -/
inductive Presence where
  | required | optional

mutual

inductive Shape where
  | int32
  | text
  | operator
  | tree
  | null (expectation : String)
  | list (element : Shape)
  | optional (content : Shape)
  | record (name : String) (fields : Fields)

/-- The fields of a record, in order. -/
inductive Fields where
  | nil
  | cons (name : String) (shape : Shape) (presence : Presence) (others : Fields)

end

mutual

/-- What is read from a shape. -/
def Shape.Content : Shape → Type
  | .int32 => Int32
  | .text => String
  | .operator => BinaryOp
  | .tree => Expr
  | .null _ => Unit
  | .list element => List element.Content
  | .optional content => Option content.Content
  | .record _ fields => fields.Content

def Fields.Content : Fields → Type
  | .nil => Unit
  | .cons _ shape _ others => shape.Content × others.Content

end

/-- What has been read so far of the fields of a record. -/
def Fields.Slots : Fields → Type
  | .nil => Unit
  | .cons _ shape _ others => Option shape.Content × others.Slots

def Fields.emptySlots : (fields : Fields) → fields.Slots
  | .nil => ()
  | .cons _ _ _ others => (none, others.emptySlots)

def Fields.length : Fields → Nat
  | .nil => 0
  | .cons _ _ _ others => others.length + 1

/-- The content of a shape that can be empty. -/
def Shape.empty? : (shape : Shape) → Option shape.Content
  | .list _ => some []
  | .optional _ => some none
  | _ => none

/-- The content of a field that is left out, if it may be. -/
def Presence.default? (presence : Presence) (shape : Shape) : Option shape.Content :=
  match presence with
  | required => none
  | optional => shape.empty?

/-- All fields, those left out by their defaults, or the name of the first that is missing. -/
def Fields.complete : (fields : Fields) → fields.Slots → Except String fields.Content
  | .nil, _ => .ok ()
  | .cons name shape presence others, (slot, slots) =>
      match slot.or (presence.default? shape) with
      | some content => (others.complete slots).map fun contents => (content, contents)
      | none => .error name

namespace Fields

def required (name : String) (shape : Shape) (others : Fields) : Fields :=
  cons name shape .required others

def optional (name : String) (shape : Shape) (others : Fields) : Fields :=
  cons name shape .optional others

end Fields

namespace NodeKind

/-- A record that is named for a kind. -/
def recordOf (kind : NodeKind) (fields : Fields) : Shape := .record kind.name fields

def identifierPayload : Shape := identifier.recordOf (.required "name" .text .nil)

def sequencePayload : Shape := sequence.recordOf (.required "exprs" (.list .tree) .nil)

def varDeclPayload : Shape :=
  varDecl.recordOf
    (.required "name" .text
      (.optional "type_name" (.optional .text)
        (.optional "init" (.optional .tree) .nil)))

/-- The shape of what follows the tag of a node. Three kinds also stand in others without a tag. -/
def payload : NodeKind → Shape
  | integerLiteral => recordOf integerLiteral (.required "value" .int32 .nil)
  | stringLiteral => recordOf stringLiteral (.required "value" .text .nil)
  | binaryOperator =>
      recordOf binaryOperator
        (.required "op" .operator (.required "left" .tree (.required "right" .tree .nil)))
  | sequence => sequencePayload
  | ifThenElse =>
      recordOf ifThenElse
        (.required "condition" .tree
          (.required "then_part" .tree (.required "else_part" .tree .nil)))
  | identifier => identifierPayload
  | letIn =>
      recordOf letIn (.required "decls" (.list .tree) (.required "body" sequencePayload .nil))
  | varDecl => varDeclPayload
  | funDecl =>
      recordOf funDecl
        (.required "name" .text
          (.optional "params" (.list varDeclPayload)
            (.optional "type_name" (.optional .text)
              (.required "body" .tree .nil))))
  | funCall =>
      recordOf funCall (.required "name" .text (.optional "args" (.list .tree) .nil))
  | whileLoop =>
      recordOf whileLoop (.required "condition" .tree (.required "body" .tree .nil))
  | forLoop =>
      recordOf forLoop
        (.required "variable" .text
          (.required "low" .tree (.required "high" .tree (.required "body" .tree .nil))))
  | breakOut => .null "unit struct Break"
  | assign => recordOf assign (.required "lhs" identifierPayload (.required "rhs" .tree .nil))

/-- The declaration that an untagged record describes. -/
def declaration : varDeclPayload.Content → VarDecl Expr
  | (name, typeName, init, ()) => ⟨name, typeName, init⟩

/-- The node of a kind with a payload. -/
def assemble : (kind : NodeKind) → kind.payload.Content → Expr
  | integerLiteral, (value, ()) => .integerLiteral value
  | stringLiteral, (value, ()) => .stringLiteral value
  | binaryOperator, (op, left, right, ()) => .binaryOperator op left right
  | sequence, (exprs, ()) => .sequence exprs
  | ifThenElse, (condition, thenPart, elsePart, ()) => .ifThenElse condition thenPart elsePart
  | identifier, (name, ()) => .identifier name
  | letIn, (decls, (body, ()), ()) => .letIn decls body
  | varDecl, decl => .varDecl (declaration decl)
  | funDecl, (name, params, typeName, body, ()) =>
      .funDecl name (params.map declaration) typeName body
  | funCall, (name, args, ()) => .funCall name args
  | whileLoop, (condition, body, ()) => .whileLoop condition body
  | forLoop, (counter, low, high, body, ()) => .forLoop counter low high body
  | breakOut, () => .breakOut
  | assign, ((target, ()), value, ()) => .assign target value

end NodeKind

end TigerTree
