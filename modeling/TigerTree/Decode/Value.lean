import TigerTree.Decode.Number
import TigerTree.Decode.Text

set_option autoImplicit false

/-!
Reading the values that fields of nodes have, and saying what stands in their place otherwise.
-/

namespace TigerTree.Decode

/-- Fails because something else was expected. The value that stands there is read first, up to
the opening bracket of a list or object, and the failure points after what was read. -/
def mismatch {α : Type} (expectation : String) : Reader α
  | [] => failNext .endInValue []
  | 'n' :: rest =>
      (keyword ['u', 'l', 'l'] rest).andThen fun _ rest =>
        failAt (.unexpected .null expectation) rest
  | 't' :: rest =>
      (keyword ['r', 'u', 'e'] rest).andThen fun _ rest =>
        failAt (.unexpected (.boolean true) expectation) rest
  | 'f' :: rest =>
      (keyword ['a', 'l', 's', 'e'] rest).andThen fun _ rest =>
        failAt (.unexpected (.boolean false) expectation) rest
  | '-' :: rest =>
      (readNumber true rest).andThen fun number rest =>
        failAt (.unexpected number.found expectation) rest
  | '"' :: rest =>
      (readText rest).andThen fun text rest => failAt (.unexpected (.text text) expectation) rest
  | '[' :: rest => failAt (.unexpected .list expectation) ('[' :: rest)
  | '\x7b' :: rest => failAt (.unexpected .object expectation) ('\x7b' :: rest)
  | char :: rest =>
      if char.isDigit then
        (readNumber false (char :: rest)).andThen fun number rest =>
          failAt (.unexpected number.found expectation) rest
      else failNext .expectedValue (char :: rest)

def text : Reader String := fun source =>
  match skipBlanks source with
  | '"' :: rest => readText rest
  | rest => mismatch "a string" rest

/-- The only value of a kind without fields. -/
def null (expectation : String) : Reader Unit := fun source =>
  match skipBlanks source with
  | 'n' :: rest => keyword ['u', 'l', 'l'] rest
  | rest => mismatch expectation rest

def isInt32 (value : Int) : Bool := -0x80000000 ≤ value && value < 0x80000000

def asInt32 : Number → Reader Int32
  | .whole value, rest =>
      if isInt32 value then .ok (Int32.ofInt value) rest
      else failAt (.integerOutOfRange value) rest
  | number, rest => failAt (.unexpected number.found "i32") rest

def int32 : Reader Int32 := fun source =>
  match skipBlanks source with
  | '-' :: rest => (readNumber true rest).andThen asInt32
  | rest =>
      if startsWithDigit rest then (readNumber false rest).andThen asInt32
      else mismatch "i32" rest

/-- A value that may be left open by `null`. -/
def optional {α : Type} (read : Reader α) : Reader (Option α) := fun source =>
  match skipBlanks source with
  | 'n' :: rest => (keyword ['u', 'l', 'l'] rest).map fun _ => none
  | rest => (read rest).map some

end TigerTree.Decode
