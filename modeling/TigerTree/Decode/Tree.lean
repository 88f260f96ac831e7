import TigerTree.Decode.Bracket
import TigerTree.Decode.Shape

set_option autoImplicit false

/-!
Reading the shapes of payloads, and trees.

A record may be given as an object, with its fields in any order, each at most once, and members
of other names passed over; or as a list of its fields in order. The reader of trees is a
parameter of the reader of shapes, which recurs on the shape alone. The reader of trees then
recurs on a bound: any number above the length of the source is enough.
-/

namespace TigerTree

namespace Decode

/-- A member that no field is named for. -/
def skippedMember (bound : Nat) : Reader Unit := fun source =>
  (colon source).andThen fun _ rest => skipValue bound rest

/-- Reads a record from an object by `put` or from a list by `inOrder`. -/
def record (bound : Nat) (name : String) (fields : Fields)
    (put : String → fields.Slots → Reader fields.Slots) (inOrder : Reader fields.Content) :
    Reader fields.Content := fun source =>
  match skipBlanks source with
  | '\x7b' :: rest =>
      inObject (fun source =>
        (members put bound true fields.emptySlots source).andThen fun slots rest =>
          match fields.complete slots with
          | .ok contents => .ok contents rest
          | .error missing => .refused (.missingField missing) rest) rest
  | '[' :: rest => inList inOrder rest
  | rest => mismatch ("struct " ++ name) rest

end Decode

open Decode

mutual

def Shape.read (bound : Nat) (tree : Reader Expr) : (shape : Shape) → Reader shape.Content
  | .int32 => Decode.int32
  | .text => Decode.text
  | .operator => fun source => (Decode.text source).map BinaryOp.ofSymbol
  | .tree => tree
  | .null expectation => Decode.null expectation
  | .list element => Decode.list bound (element.read bound tree)
  | .optional content => Decode.optional (content.read bound tree)
  | .record name fields =>
      Decode.record bound name fields (fields.put bound tree)
        (fields.inOrder bound tree name fields.length 0)

/-- Reads a member into the field that is named for it, from after its key. -/
def Fields.put (bound : Nat) (tree : Reader Expr) :
    (fields : Fields) → String → fields.Slots → Reader fields.Slots
  | .nil, _, _ => skippedMember bound
  | .cons name shape _ others, key, (slot, slots) => fun source =>
      if key = name then
        if slot.isSome then .refused (.duplicateField name) source
        else
          (colon source).andThen fun _ rest =>
            (shape.read bound tree rest).map fun content => (some content, slots)
      else (others.put bound tree key slots source).map fun slots => (slot, slots)

/-- Reads the fields that are left of a record in a list, `count` having been passed. -/
def Fields.inOrder (bound : Nat) (tree : Reader Expr) (name : String) (total : Nat)
    (count : Nat) : (fields : Fields) → Reader fields.Content
  | .nil => fun source => .ok () source
  | .cons _ shape presence others => fun source =>
      (nextElement (count == 0) source).andThen fun more rest =>
        if more then
          (shape.read bound tree rest).andThen fun content rest =>
            (others.inOrder bound tree name total (count + 1) rest).map fun contents =>
              (content, contents)
        else
          match presence.default? shape with
          | some content =>
              (others.inOrder bound tree name total (count + 1) rest).map fun contents =>
                (content, contents)
          | none => .refused (.tooFewElements count name total) rest

end

namespace Decode

/-- Reads the name of a kind, from after its opening quote. -/
def kindName : Reader NodeKind := fun source =>
  (readText source).andThen fun name rest =>
    match NodeKind.ofName? name with
    | some kind => .ok kind rest
    | none => failAt (.unknownKind name) rest

/-- Reads a kind with its payload in an object of one member, or without one in a string. -/
def tagged {α : Type} (payload bare : NodeKind → Reader α) : Reader α := fun source =>
  match skipBlanks source with
  | '\x7b' :: rest =>
      match skipBlanks rest with
      | '"' :: rest =>
          (kindName rest).andThen fun kind rest =>
          (colon rest).andThen fun _ rest =>
          (payload kind rest).andThen fun value rest =>
            match skipBlanks rest with
            | '\x7d' :: rest => .ok value rest
            | [] => failAt .endInObject []
            | rest => failAt .expectedValue rest
      | [] => failNext .endInObject []
      | '\x7d' :: rest => failNext .expectedValue ('\x7d' :: rest)
      | rest => failNext .keyNotText rest
  | '"' :: rest => (kindName rest).andThen bare
  | [] => failNext .endInValue []
  | rest => failNext .expectedValue rest

/-- Nodes need their payload. -/
def untagged : NodeKind → Reader Expr := fun _ rest =>
  .refused (.unexpected .untaggedKind "newtype variant") rest

def tree (bound : Nat) : Nat → Reader Expr
  | 0, _ => exhausted
  | depth + 1, source =>
      tagged (fun kind rest => (kind.payload.read bound (tree bound depth) rest).map kind.assemble)
        untagged source

/-- A kind alone, written as its name or as an object whose one member is `null`. -/
def kind : Reader NodeKind :=
  tagged (fun kind rest => (null "unit" rest).map fun _ => kind) fun kind rest => .ok kind rest

end Decode

end TigerTree
