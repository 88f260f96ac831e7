import TigerTree.Decode.Outcome

set_option autoImplicit false

/-!
Reading JSON strings, from after the opening quote.
-/

namespace TigerTree.Decode

def hexValue? (char : Char) : Option Nat :=
  if '0' ≤ char ∧ char ≤ '9' then some (char.toNat - '0'.toNat)
  else if 'a' ≤ char ∧ char ≤ 'f' then some (char.toNat - 'a'.toNat + 10)
  else if 'A' ≤ char ∧ char ≤ 'F' then some (char.toNat - 'A'.toNat + 10)
  else none

/-- The number that four hexadecimal digits stand for. -/
def hexNumber? (a b c d : Char) : Option Nat := do
  return (((← hexValue? a) * 16 + (← hexValue? b)) * 16 + (← hexValue? c)) * 16 + (← hexValue? d)

/-- Four bytes are taken before they are looked at. -/
def codeUnit : Reader Nat := fun source =>
  let broken : Outcome Nat :=
    if byteLength source < 4 then failAt .endInText [] else failPast .invalidEscape source 4
  match source with
  | a :: b :: c :: d :: rest =>
      match hexNumber? a b c d with
      | some unit => .ok unit rest
      | none => broken
  | _ => broken

def isLeading (unit : Nat) : Bool := 0xD800 ≤ unit && unit ≤ 0xDBFF

def isTrailing (unit : Nat) : Bool := 0xDC00 ≤ unit && unit ≤ 0xDFFF

/-- Reads one character that has to be there. -/
def exactly (expected : Char) (cause : Cause) : Reader Unit := fun source =>
  match source with
  | [] => failAt .endInText []
  | char :: rest => if char = expected then .ok () rest else failNext cause (char :: rest)

/-- A character and the number of characters that spell it after a backslash. -/
structure Spelled where
  char : Char
  length : Nat

/-- The character named by a code unit, or by a pair of them beyond the first plane, from after
the letter `u`. -/
def unicodeEscape : Reader Spelled := fun source =>
  (codeUnit source).andThen fun unit rest =>
    if isTrailing unit then failAt .unpairedSurrogate rest
    else if isLeading unit then
      (exactly '\\' .brokenPair rest).andThen fun _ rest =>
      (exactly 'u' .brokenPair rest).andThen fun _ rest =>
      (codeUnit rest).andThen fun second rest =>
        if isTrailing second then
          .ok ⟨Char.ofNat (0x10000 + (unit - 0xD800) * 0x400 + (second - 0xDC00)), 11⟩ rest
        else failAt .unpairedSurrogate rest
    else .ok ⟨Char.ofNat unit, 5⟩ rest

/-- The character that a letter after a backslash stands for. -/
def shortEscape? (letter : Char) : Option Char :=
  match letter with
  | '"' => some '"'
  | '\\' => some '\\'
  | '/' => some '/'
  | 'b' => some '\x08'
  | 'f' => some '\x0c'
  | 'n' => some '\n'
  | 'r' => some '\r'
  | 't' => some '\t'
  | _ => none

/-- The rest of an escape after its backslash. -/
def escape : Reader Spelled
  | [] => failAt .endInText []
  | letter :: rest =>
      match shortEscape? letter with
      | some char => .ok ⟨char, 1⟩ rest
      | none =>
          if letter = 'u' then unicodeEscape rest else failNext .invalidEscape (letter :: rest)

/-- Reads up to the closing quote. `taken` holds the characters so far, the last one first, and
the next `covered` characters of the source belong to an escape that has been read. -/
def readChars (taken : List Char) (covered : Nat) : List Char → Outcome String
  | [] => failAt .endInText []
  | char :: rest =>
      match covered with
      | covered + 1 => readChars taken covered rest
      | 0 =>
          if char = '"' then .ok (String.ofList taken.reverse) rest
          else if char = '\\' then
            match escape rest with
            | .ok spelled _ => readChars (spelled.char :: taken) spelled.length rest
            | .failed cause left => .failed cause left
            | .refused cause after => .refused cause after
          else if char.toNat < 32 then failNext .controlCharacter (char :: rest)
          else readChars (char :: taken) 0 rest

def readText : Reader String := readChars [] 0

end TigerTree.Decode
