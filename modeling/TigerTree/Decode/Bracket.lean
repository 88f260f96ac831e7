import TigerTree.Decode.Skip
import TigerTree.Decode.Value

set_option autoImplicit false

/-!
Reading between brackets: the elements of a list and the members of an object.
-/

namespace TigerTree.Decode

/-- Whether another element follows; if not, what is left starts with the closing bracket. -/
def nextElement (first : Bool) : Reader Bool := fun source =>
  match skipBlanks source with
  | [] => failNext .endInList []
  | ']' :: rest => .ok false (']' :: rest)
  | char :: rest =>
      if first then .ok true (char :: rest)
      else if char = ',' then
        match skipBlanks rest with
        | [] => failNext .endInValue []
        | ']' :: rest => failNext .trailingComma (']' :: rest)
        | rest => .ok true rest
      else failNext .expectedCommaOrBracket (char :: rest)

/-- The key of the next member; if there is none, what is left starts with the closing brace. -/
def nextKey (first : Bool) : Reader (Option String) := fun source =>
  match skipBlanks source with
  | [] => failNext .endInObject []
  | '\x7d' :: rest => .ok none ('\x7d' :: rest)
  | char :: rest =>
      if first then
        if char = '"' then (readText rest).map some else failNext .keyNotText (char :: rest)
      else if char = ',' then
        match skipBlanks rest with
        | '"' :: rest => (readText rest).map some
        | '\x7d' :: rest => failNext .trailingComma ('\x7d' :: rest)
        | [] => failNext .endInValue []
        | rest => failNext .keyNotText rest
      else failNext .expectedCommaOrBrace (char :: rest)

def endList : Reader Unit := fun source =>
  match skipBlanks source with
  | ']' :: rest => .ok () rest
  | ',' :: rest =>
      match skipBlanks rest with
      | ']' :: rest => failNext .trailingComma (']' :: rest)
      | rest => failNext .trailingCharacters rest
  | [] => failNext .endInList []
  | rest => failNext .trailingCharacters rest

/-- How far the end of a list is looked for after a refused element. -/
def settleList (source : List Char) : List Char :=
  match skipBlanks source with
  | ']' :: rest => rest
  | ',' :: rest => skipBlanks rest
  | rest => rest

def endObject : Reader Unit := fun source =>
  match skipBlanks source with
  | '\x7d' :: rest => .ok () rest
  | ',' :: rest => failNext .trailingComma (',' :: rest)
  | [] => failNext .endInObject []
  | rest => failNext .trailingCharacters rest

/-- How far the end of an object is looked for after a refused member. -/
def settleObject (source : List Char) : List Char :=
  match skipBlanks source with
  | '\x7d' :: rest => rest
  | rest => rest

def inList {α : Type} (contents : Reader α) : Reader α := fun source =>
  (contents source).close endList settleList

def inObject {α : Type} (contents : Reader α) : Reader α := fun source =>
  (contents source).close endObject settleObject

/-- The elements of a list; `taken` holds those so far, the last one first. -/
def elements {α : Type} (read : Reader α) : Nat → List α → Reader (List α)
  | 0, _, _ => exhausted
  | bound + 1, taken, source =>
      match nextElement taken.isEmpty source with
      | .ok false rest => .ok taken.reverse rest
      | .ok true rest =>
          match read rest with
          | .ok value rest => elements read bound (value :: taken) rest
          | .failed cause left => .failed cause left
          | .refused cause rest => .refused cause rest
      | .failed cause left => .failed cause left
      | .refused cause rest => .refused cause rest

/-- The members of an object, each put by its key among those before it. -/
def members {α : Type} (put : String → α → Reader α) : Nat → Bool → α → Reader α
  | 0, _, _, _ => exhausted
  | bound + 1, first, slots, source =>
      match nextKey first source with
      | .ok none rest => .ok slots rest
      | .ok (some key) rest =>
          match put key slots rest with
          | .ok slots rest => members put bound false slots rest
          | .failed cause left => .failed cause left
          | .refused cause rest => .refused cause rest
      | .failed cause left => .failed cause left
      | .refused cause rest => .refused cause rest

def list {α : Type} (bound : Nat) (read : Reader α) : Reader (List α) := fun source =>
  match skipBlanks source with
  | '[' :: rest => inList (elements read bound []) rest
  | rest => mismatch "a sequence" rest

end TigerTree.Decode
