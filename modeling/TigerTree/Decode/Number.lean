import TigerTree.Binary64.Shortest
import TigerTree.Decode.Outcome

set_option autoImplicit false

/-!
Reading JSON numbers, from after their sign.

A number is whole if it has neither fraction nor exponent and fits 64 bits, signed or unsigned;
the value of any other number is rounded. Digits beyond 64 bits are only counted. What follows a
number is left to whoever reads on.
-/

namespace TigerTree.Decode

inductive Number where
  | whole (value : Int)
  | real (negative : Bool) (magnitude : Binary64)

/-- The number as it is named where something else was expected. -/
def Number.found : Number → Found
  | whole value => .integer value
  | real negative magnitude =>
      .real (if negative then '-' :: magnitude.write else magnitude.write)

def digitValue (digit : Char) : Nat := digit.toNat - '0'.toNat

def greatestSignificand : Nat := 0xFFFFFFFFFFFFFFFF

def greatestExponent : Nat := 0x7FFFFFFF

/-- Appends digits to a number while it stays within a limit, and counts them. -/
def extend (limit : Nat) (number : Nat) (count : Nat) : List Char → Nat × Nat × List Char
  | [] => (number, count, [])
  | char :: rest =>
      if char.isDigit ∧ number * 10 + digitValue char ≤ limit then
        extend limit (number * 10 + digitValue char) (count + 1) rest
      else (number, count, char :: rest)

def skipDigits (source : List Char) : List Char := source.dropWhile Char.isDigit

def startsWithDigit : List Char → Bool
  | [] => false
  | char :: _ => char.isDigit

/-- The value of a significand and an exponent, out of range if it is too large. -/
def realNumber (negative : Bool) (significand : Nat) (exponent : Int) : Reader Number := fun rest =>
  match (Binary64.nearest significand 1).bind fun value => value.scaled exponent with
  | some magnitude => .ok (.real negative magnitude) rest
  | none => failAt .numberOutOfRange rest

/-- The exponent, from after its letter. One that is itself too large decides the value alone. -/
def readExponent (negative : Bool) (significand : Nat) (exponent : Int) : Reader Number :=
  fun source =>
    let (down, source) : Bool × List Char :=
      match source with
      | '+' :: rest => (false, rest)
      | '-' :: rest => (true, rest)
      | rest => (false, rest)
    match source with
    | [] => failAt .endInValue []
    | char :: rest =>
        if char.isDigit then
          let (shift, _, rest) := extend greatestExponent (digitValue char) 0 rest
          if startsWithDigit rest then
            if down || significand == 0 then
              .ok (.real negative ⟨0, 0⟩) (skipDigits rest)
            else failAt .numberOutOfRange (rest.drop 1)
          else
            realNumber negative significand
              (if down then exponent - shift else exponent + shift) rest
        else failNext .invalidNumber (char :: rest)

/-- The part of a number that may follow its fraction. -/
def readAfterFraction (negative : Bool) (significand : Nat) (exponent : Int) : Reader Number
  | 'e' :: rest | 'E' :: rest => readExponent negative significand exponent rest
  | rest => realNumber negative significand exponent rest

/-- The fraction, from after its point. -/
def readFraction (negative : Bool) (significand : Nat) (exponent : Int) : Reader Number :=
  fun source =>
    if startsWithDigit source then
      let (significand, count, rest) := extend greatestSignificand significand 0 source
      readAfterFraction negative significand (exponent - count) (skipDigits rest)
    else if source.isEmpty then failNext .endInValue source
    else failNext .invalidNumber source

/-- A number without fraction and exponent. There is no negative zero among whole numbers. -/
def wholeNumber (negative : Bool) (significand : Nat) : Reader Number := fun rest =>
  if negative then
    if 0 < significand ∧ significand ≤ 0x8000000000000000 then .ok (.whole (-significand)) rest
    else (realNumber true significand 0 rest)
  else .ok (.whole significand) rest

/-- What may follow the digits before the point, `excess` of which are not in the significand. -/
def readAfterDigits (negative : Bool) (significand excess : Nat) : Reader Number
  | '.' :: rest => readFraction negative significand excess rest
  | 'e' :: rest | 'E' :: rest => readExponent negative significand excess rest
  | rest =>
      if excess = 0 then wholeNumber negative significand rest
      else realNumber negative significand excess rest

def readNumber (negative : Bool) : Reader Number
  | [] => failAt .endInValue []
  | char :: rest =>
      if char = '0' then
        if startsWithDigit rest then failNext .invalidNumber rest
        else readAfterDigits negative 0 0 rest
      else if char.isDigit then
        let (significand, _, rest) := extend greatestSignificand (digitValue char) 0 rest
        let excess := rest.takeWhile Char.isDigit
        readAfterDigits negative significand excess.length (skipDigits rest)
      else failNext .invalidNumber (char :: rest)

end TigerTree.Decode
