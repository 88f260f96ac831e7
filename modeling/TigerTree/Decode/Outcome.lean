import TigerTree.Decode.Cause

set_option autoImplicit false

/-!
Readers: functions that take a value from the front of a source.

A place in a source is given by the number of bytes from it to the end of the source, so a reader
needs to know nothing about what it has already passed. A reader that meets broken JSON fails at
once and with its place. One that finds a value of the wrong shape may refuse it without a place;
the record or list around it then gives the failure the place where its own reading stopped.
-/

namespace TigerTree.Decode

inductive Outcome (α : Type) where
  | ok (value : α) (rest : List Char)
  | failed (cause : Cause) (left : Nat)
  | refused (cause : Cause) (rest : List Char)

abbrev Reader (α : Type) := List Char → Outcome α

/-- The length of a text in UTF-8. -/
def byteLength (chars : List Char) : Nat :=
  chars.foldl (fun total char => total + char.utf8Size) 0

@[simp]
theorem byteLength_nil : byteLength [] = 0 := rfl

@[simp]
theorem byteLength_cons (char : Char) (rest : List Char) :
    byteLength (char :: rest) = char.utf8Size + byteLength rest := by
  rw [byteLength, List.foldl_cons, Nat.zero_add, ← Nat.add_zero char.utf8Size]
  apply List.foldl_hom (char.utf8Size + ·)
  exact fun total next => Nat.add_assoc _ total _

@[simp]
theorem byteLength_append (front back : List Char) :
    byteLength (front ++ back) = byteLength front + byteLength back := by
  induction front with
  | nil => simp
  | cons char front inductionHypothesis => simp [inductionHypothesis, Nat.add_assoc]

/-- A failure at the front of what is left. -/
def failAt {α : Type} (cause : Cause) (rest : List Char) : Outcome α :=
  .failed cause (byteLength rest)

/-- A failure that points a number of bytes past the front of what is left, at most to the end. -/
def failPast {α : Type} (cause : Cause) (rest : List Char) (bytes : Nat) : Outcome α :=
  .failed cause (byteLength rest - bytes)

/-- A failure that points past the next byte. -/
def failNext {α : Type} (cause : Cause) (rest : List Char) : Outcome α := failPast cause rest 1

namespace Outcome

variable {α β : Type}

@[inline]
def andThen (outcome : Outcome α) (next : α → Reader β) : Outcome β :=
  match outcome with
  | ok value rest => next value rest
  | failed cause left => failed cause left
  | refused cause rest => refused cause rest

@[inline]
def map (f : α → β) (outcome : Outcome α) : Outcome β :=
  match outcome with
  | ok value rest => ok (f value) rest
  | failed cause left => failed cause left
  | refused cause rest => refused cause rest

/-- Closes the brackets around a value. A refusal inside is placed after the brackets, or as near
to them as can be reached. -/
def close (finish : Reader Unit) (settle : List Char → List Char) : Outcome α → Outcome α
  | ok value rest => (finish rest).map fun _ => value
  | failed cause left => failed cause left
  | refused cause rest => failAt cause (settle rest)

@[simp]
theorem andThen_eq_ok_iff {outcome : Outcome α} {next : α → Reader β} {value : β}
    {rest : List Char} :
    outcome.andThen next = ok value rest ↔
      ∃ first middle, outcome = ok first middle ∧ next first middle = ok value rest := by
  cases outcome <;> grind [andThen]

@[simp]
theorem map_eq_ok_iff {outcome : Outcome α} {f : α → β} {value : β} {rest : List Char} :
    outcome.map f = ok value rest ↔ ∃ first, outcome = ok first rest ∧ f first = value := by
  cases outcome <;> grind [map]

@[simp]
theorem failAt_ne_ok {cause : Cause} {source rest : List Char} {value : α} :
    failAt cause source ≠ ok value rest := nofun

@[simp]
theorem failPast_ne_ok {cause : Cause} {source rest : List Char} {bytes : Nat} {value : α} :
    failPast cause source bytes ≠ ok value rest := nofun

@[simp]
theorem failNext_ne_ok {cause : Cause} {source rest : List Char} {value : α} :
    failNext cause source ≠ ok value rest := nofun

end Outcome

def isBlank (char : Char) : Bool :=
  char == ' ' || char == '\n' || char == '\t' || char == '\r'

/-- What is left after blanks. -/
def skipBlanks (source : List Char) : List Char := source.dropWhile isBlank

/-- Reads the letters of a keyword, one after the other. -/
def keyword : List Char → Reader Unit
  | [], source => .ok () source
  | _ :: _, [] => failAt .endInValue []
  | expected :: more, char :: rest =>
      if char = expected then keyword more rest else failNext .expectedKeyword (char :: rest)

def colon : Reader Unit := fun source =>
  match skipBlanks source with
  | ':' :: rest => .ok () rest
  | [] => failNext .endInObject []
  | rest => failNext .expectedColon rest

end TigerTree.Decode
