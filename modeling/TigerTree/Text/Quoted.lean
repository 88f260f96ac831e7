import TigerTree.Text.Invisible

set_option autoImplicit false

/-!
Text in double quotes in which every character can be seen.
-/

namespace TigerTree

/-- A character inside quoted text. Single quotes stand for themselves; what cannot be shown is
given by its code point in braces. -/
def shown (char : Char) : List Char :=
  if char = '"' then ['\\', '"']
  else if char = '\\' then ['\\', '\\']
  else if char = '\t' then ['\\', 't']
  else if char = '\r' then ['\\', 'r']
  else if char = '\n' then ['\\', 'n']
  else if char = '\x00' then ['\\', '0']
  else if isInvisible char then
    '\\' :: 'u' :: '\x7b' :: (Nat.toDigits 16 char.toNat ++ ['\x7d'])
  else [char]

/-- Quoted text in front of the rest of a text. -/
def writeQuoted (text : String) (rest : List Char) : List Char :=
  '"' :: text.toList.foldr (fun char rest => shown char ++ rest) ('"' :: rest)

def quoted (text : String) : String := String.ofList (writeQuoted text [])

end TigerTree
