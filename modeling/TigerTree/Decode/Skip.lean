import TigerTree.Decode.Number
import TigerTree.Decode.Text

set_option autoImplicit false

/-!
Passing over JSON values that nothing depends on.

Such a value has to be well formed, but less is asked of it than of a value that is kept: numbers
are never out of range, and escapes need not pair up. A bound on the work is passed down; any
number above the length of the source is enough.
-/

namespace TigerTree.Decode

/-- The answer of a reader whose bound is used up, which a sufficient bound never is. -/
def exhausted {α : Type} : Outcome α := failAt .endInValue []

/-- Passes over the rest of an escape after its backslash, and says how long it is. -/
def skipEscape : Reader Nat
  | [] => failAt .endInText []
  | letter :: rest =>
      match shortEscape? letter with
      | some _ => .ok 1 rest
      | none =>
          if letter = 'u' then (codeUnit rest).map fun _ => 5
          else failNext .invalidEscape (letter :: rest)

/-- Passes over a string, from after its opening quote. The next `covered` characters belong to an
escape that has been read. -/
def skipChars (covered : Nat) : List Char → Outcome Unit
  | [] => failAt .endInText []
  | char :: rest =>
      match covered with
      | covered + 1 => skipChars covered rest
      | 0 =>
          if char = '"' then .ok () rest
          else if char = '\\' then
            match skipEscape rest with
            | .ok length _ => skipChars length rest
            | .failed cause left => .failed cause left
            | .refused cause after => .refused cause after
          else if char.toNat < 32 then failAt .controlCharacter (char :: rest)
          else skipChars 0 rest

def skipText : Reader Unit := skipChars 0

/-- Passes over an exponent, from after its letter. -/
def skipExponent : Reader Unit := fun source =>
  let source : List Char :=
    match source with
    | '+' :: rest | '-' :: rest => rest
    | rest => rest
  if startsWithDigit source then .ok () (skipDigits source) else failNext .invalidNumber source

def skipAfterFraction : Reader Unit
  | 'e' :: rest | 'E' :: rest => skipExponent rest
  | rest => .ok () rest

def skipAfterDigits : Reader Unit
  | '.' :: rest =>
      if startsWithDigit rest then skipAfterFraction (skipDigits rest)
      else failNext .invalidNumber rest
  | rest => skipAfterFraction rest

/-- Passes over a number, from after its sign. -/
def skipNumber : Reader Unit
  | [] => failNext .invalidNumber []
  | char :: rest =>
      if char = '0' then
        if startsWithDigit rest then failNext .invalidNumber rest else skipAfterDigits rest
      else if char.isDigit then skipAfterDigits (skipDigits rest)
      else failNext .invalidNumber (char :: rest)

/-- The next step inside brackets: an item follows, or the closing bracket has been passed. -/
def skipSeparator (closing : Char) (atEnd missing : Cause) (first : Bool) : Reader Bool :=
  fun source =>
    match skipBlanks source with
    | [] => failNext atEnd []
    | char :: rest =>
        if char = closing then .ok false rest
        else if first then .ok true (char :: rest)
        else if char = ',' then .ok true rest
        else failNext missing (char :: rest)

/-- Passes over the items of a list, from after its opening bracket. -/
def skipItems (skip : Reader Unit) : Nat → Bool → Reader Unit
  | 0, _, _ => exhausted
  | bound + 1, first, source =>
      match skipSeparator ']' .endInList .expectedCommaOrBracket first source with
      | .ok false rest => .ok () rest
      | .ok true rest =>
          match skip rest with
          | .ok _ rest => skipItems skip bound false rest
          | .failed cause left => .failed cause left
          | .refused cause rest => .refused cause rest
      | .failed cause left => .failed cause left
      | .refused cause rest => .refused cause rest

def skipMember (skip : Reader Unit) : Reader Unit := fun source =>
  match skipBlanks source with
  | '"' :: rest =>
      (skipText rest).andThen fun _ rest => (colon rest).andThen fun _ rest => skip rest
  | [] => failNext .endInObject []
  | rest => failNext .keyNotText rest

/-- Passes over the members of an object, from after its opening brace. -/
def skipMembers (skip : Reader Unit) : Nat → Bool → Reader Unit
  | 0, _, _ => exhausted
  | bound + 1, first, source =>
      match skipSeparator '\x7d' .endInObject .expectedCommaOrBrace first source with
      | .ok false rest => .ok () rest
      | .ok true rest =>
          match skipMember skip rest with
          | .ok _ rest => skipMembers skip bound false rest
          | .failed cause left => .failed cause left
          | .refused cause rest => .refused cause rest
      | .failed cause left => .failed cause left
      | .refused cause rest => .refused cause rest

def skipValue : Nat → Reader Unit
  | 0, _ => exhausted
  | bound + 1, source =>
      match skipBlanks source with
      | [] => failNext .endInValue []
      | 'n' :: rest => keyword ['u', 'l', 'l'] rest
      | 't' :: rest => keyword ['r', 'u', 'e'] rest
      | 'f' :: rest => keyword ['a', 'l', 's', 'e'] rest
      | '"' :: rest => skipText rest
      | '-' :: rest => skipNumber rest
      | '[' :: rest => skipItems (skipValue bound) bound true rest
      | '\x7b' :: rest => skipMembers (skipValue bound) bound true rest
      | char :: rest =>
          if char.isDigit then skipNumber (char :: rest)
          else failNext .expectedValue (char :: rest)

end TigerTree.Decode
