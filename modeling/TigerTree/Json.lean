import TigerTree.Text.Decimal

set_option autoImplicit false

/-!
JSON values and their compact text.

Texts are written in front of what follows them: `write value rest` is the text of `value`
followed by `rest`, so a deep value is written in one pass. Numbers are whole, since trees hold
no others.
-/

namespace TigerTree

inductive Json where
  | null
  | number (value : Int)
  | text (value : String)
  | array (items : List Json)
  | object (members : List (String × Json))

namespace Json

def hexDigit (value : Nat) : Char := Nat.digitChar (value % 16)

/-- A character inside a JSON string. Only quotes, backslashes and control characters are
escaped, by a letter where there is one. -/
def escaped (char : Char) : List Char :=
  if char = '"' then ['\\', '"']
  else if char = '\\' then ['\\', '\\']
  else if char = '\x08' then ['\\', 'b']
  else if char = '\x0c' then ['\\', 'f']
  else if char = '\n' then ['\\', 'n']
  else if char = '\r' then ['\\', 'r']
  else if char = '\t' then ['\\', 't']
  else if char.toNat < 32 then
    ['\\', 'u', '0', '0', hexDigit (char.toNat / 16), hexDigit char.toNat]
  else [char]

def writeChars (chars rest : List Char) : List Char :=
  chars.foldr (fun char rest => escaped char ++ rest) rest

def writeText (text : String) (rest : List Char) : List Char :=
  '"' :: writeChars text.toList ('"' :: rest)

mutual

def write : Json → List Char → List Char
  | null, rest => 'n' :: 'u' :: 'l' :: 'l' :: rest
  | number value, rest => decimal value ++ rest
  | text value, rest => writeText value rest
  | array items, rest => '[' :: writeItems true items (']' :: rest)
  | object members, rest => '\x7b' :: writeMembers true members ('\x7d' :: rest)

/-- The items of an array, a comma before each but the first. -/
def writeItems : Bool → List Json → List Char → List Char
  | _, [], rest => rest
  | true, item :: items, rest => write item (writeItems false items rest)
  | false, item :: items, rest => ',' :: write item (writeItems false items rest)

def writeMembers : Bool → List (String × Json) → List Char → List Char
  | _, [], rest => rest
  | true, (key, value) :: members, rest =>
      writeText key (':' :: write value (writeMembers false members rest))
  | false, (key, value) :: members, rest =>
      ',' :: writeText key (':' :: write value (writeMembers false members rest))

end

def compact (value : Json) : String := String.ofList (value.write [])

end Json

end TigerTree
