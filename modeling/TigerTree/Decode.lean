import TigerTree.Decode.Tree
import TigerTree.Evaluation

set_option autoImplicit false

/-!
Decoding whole sources.

A source holds one value and nothing but blanks around it. A failure names its cause and, except
for one that nothing encloses, the line and column it points to, counted in bytes.
-/

namespace TigerTree

/-- A place in a text: the number of its line, counted from 1, and of the bytes before it in
that line. -/
structure Position where
  line : Nat
  column : Nat
  deriving DecidableEq

/-- The UTF-8 encoding of a text. -/
def utf8Bytes (source : List Char) : List UInt8 := source.flatMap String.utf8EncodeChar

def lineFeed : UInt8 := 10

/-- The place that a number of bytes lead to. -/
def Position.after (bytes : List UInt8) : Position where
  line := bytes.count lineFeed + 1
  column := (bytes.reverse.takeWhile (· != lineFeed)).length

structure DecodeError where
  cause : Decode.Cause
  position : Option Position
  deriving DecidableEq

namespace DecodeError

/-- The cause and where it was met. -/
def detail (error : DecodeError) : String :=
  match error.position with
  | some position =>
      error.cause.message ++ " at line " ++ decimalText position.line ++ " column " ++
        decimalText position.column
  | none => error.cause.message

def message (error : DecodeError) : String := "Malformed expression tree: " ++ error.detail

def code : String := "input::json"

def help : String :=
  "the input must be a JSON-encoded expression, e.g. " ++
    "\x7b\"IntegerLiteral\": \x7b\"value\": 1\x7d\x7d"

end DecodeError

namespace Decode

/-- The outcome of reading a whole source. -/
def whole {α : Type} (read : Reader α) (source : List Char) : Except DecodeError α :=
  let outcome := (read source).andThen fun value rest =>
    match skipBlanks rest with
    | [] => .ok value []
    | rest => failNext .trailingCharacters rest
  match outcome with
  | .ok value _ => .ok value
  | .failed cause left =>
      let bytes := utf8Bytes source
      .error ⟨cause, some (.after (bytes.take (bytes.length - left)))⟩
  | .refused cause _ => .error ⟨cause, none⟩

end Decode

/-- The tree that a source spells. -/
def decode (source : String) : Except DecodeError Expr :=
  let chars := source.toList
  let bound := chars.length + 1
  Decode.whole (Decode.tree bound bound) chars

/-- The kind that a source names. -/
def decodeKind (source : String) : Except DecodeError NodeKind :=
  Decode.whole Decode.kind source.toList

/-- What a source leaves behind: the result of its tree, if it has one, and everything logged on
the way. -/
structure SourceRun where
  result : Except DecodeError (Except EvalError Int32)
  events : List Event

/-- Nothing is logged about a source that is not a tree. -/
def evaluateSource (source : String) : SourceRun :=
  match decode source with
  | .error error => ⟨.error error, []⟩
  | .ok expr =>
      let run := evaluate expr
      ⟨.ok run.result, .decoded expr.kind :: run.events⟩

end TigerTree
