import TigerTree.Kind
import TigerTree.Text.Decimal
import TigerTree.Text.Quoted

set_option autoImplicit false

/-!
Why a source is not a tree.

Causes fall into three classes: the source ends too early, it is not JSON, or it is JSON that does
not fit the shape of a tree.
-/

namespace TigerTree.Decode

inductive Category where
  | truncated | malformed | mismatched
  deriving DecidableEq

/-- What stands in the source where something else was expected. -/
inductive Found where
  | null
  | boolean (value : Bool)
  | integer (value : Int)
  | real (digits : List Char)
  | text (value : String)
  | list
  | object
  | untaggedKind
  deriving DecidableEq

def Found.message : Found → String
  | null => "null"
  | boolean true => "boolean `true`"
  | boolean false => "boolean `false`"
  | integer value => "integer `" ++ decimalText value ++ "`"
  | real digits => "floating point `" ++ String.ofList digits ++ "`"
  | text value => "string " ++ quoted value
  | list => "sequence"
  | object => "map"
  | untaggedKind => "unit variant"

inductive Cause where
  | endInList
  | endInObject
  | endInText
  | endInValue
  | expectedColon
  | expectedCommaOrBracket
  | expectedCommaOrBrace
  | expectedKeyword
  | expectedValue
  | invalidEscape
  | invalidNumber
  | numberOutOfRange
  | controlCharacter
  | keyNotText
  | unpairedSurrogate
  | brokenPair
  | trailingComma
  | trailingCharacters
  | unexpected (found : Found) (expectation : String)
  | integerOutOfRange (value : Int)
  | unknownKind (name : String)
  | duplicateField (name : String)
  | missingField (name : String)
  /-- A list in place of a record ends after `count` of its `total` fields. -/
  | tooFewElements (count : Nat) (record : String) (total : Nat)
  deriving DecidableEq

namespace Cause

def category : Cause → Category
  | endInList | endInObject | endInText | endInValue => .truncated
  | unexpected .. | integerOutOfRange _ | unknownKind _ | duplicateField _ | missingField _
  | tooFewElements .. => .mismatched
  | _ => .malformed

/-- The names of all kinds, each between backticks. -/
def kindNames : String :=
  ", ".intercalate (NodeKind.all.map fun kind => "`" ++ kind.name ++ "`")

def message : Cause → String
  | endInList => "EOF while parsing a list"
  | endInObject => "EOF while parsing an object"
  | endInText => "EOF while parsing a string"
  | endInValue => "EOF while parsing a value"
  | expectedColon => "expected `:`"
  | expectedCommaOrBracket => "expected `,` or `]`"
  | expectedCommaOrBrace => "expected `,` or `\x7d`"
  | expectedKeyword => "expected ident"
  | expectedValue => "expected value"
  | invalidEscape => "invalid escape"
  | invalidNumber => "invalid number"
  | numberOutOfRange => "number out of range"
  | controlCharacter => "control character (\\u0000-\\u001F) found while parsing a string"
  | keyNotText => "key must be a string"
  | unpairedSurrogate => "lone leading surrogate in hex escape"
  | brokenPair => "unexpected end of hex escape"
  | trailingComma => "trailing comma"
  | trailingCharacters => "trailing characters"
  | unexpected found expectation =>
      "invalid type: " ++ found.message ++ ", expected " ++ expectation
  | integerOutOfRange value =>
      "invalid value: integer `" ++ decimalText value ++ "`, expected i32"
  | unknownKind name => "unknown variant `" ++ name ++ "`, expected one of " ++ kindNames
  | duplicateField name => "duplicate field `" ++ name ++ "`"
  | missingField name => "missing field `" ++ name ++ "`"
  | tooFewElements count record total =>
      "invalid length " ++ decimalText count ++ ", expected struct " ++ record ++ " with " ++
        decimalText total ++ (if total = 1 then " element" else " elements")

end Cause

end TigerTree.Decode
