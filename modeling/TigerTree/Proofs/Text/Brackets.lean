import TigerTree.Proofs.Text.Lines
import TigerTree.Proofs.Text.Quoted

set_option autoImplicit false

/-!
The brackets that are open at each place of a text, and lines that are indented by them.

A text is read character by character. Brackets in quotes are text, and so are quotes after a
backslash there.
-/

namespace TigerTree

inductive Bracket where
  | brace | parenthesis | square
  deriving DecidableEq

namespace Bracket

def opening : Bracket → Char
  | brace => '\x7b'
  | parenthesis => '('
  | square => '['

def closing : Bracket → Char
  | brace => '\x7d'
  | parenthesis => ')'
  | square => ']'

/-- The characters that are read as brackets or quotes. -/
def marks : List Char := ['"', '\x7b', '\x7d', '(', ')', '[', ']']

/-- The bracket that a character opens. -/
def opened? (char : Char) : Option Bracket := [brace, parenthesis, square].find? (·.opening == char)

/-- The open brackets after a character that may close the innermost of them. -/
def close (char : Char) : List Bracket → List Bracket
  | [] => []
  | bracket :: opened => if char = bracket.closing then opened else bracket :: opened

theorem opening_ne (bracket : Bracket) {char : Char} (plain : char ∉ marks) :
    bracket.opening ≠ char := by
  rintro rfl
  cases bracket <;> exact plain (by decide)

theorem closing_ne (bracket : Bracket) {char : Char} (plain : char ∉ marks) :
    bracket.closing ≠ char := by
  rintro rfl
  cases bracket <;> exact plain (by decide)

theorem opened?_of_not_mem {char : Char} (plain : char ∉ marks) : opened? char = none := by
  rw [opened?, List.find?_eq_none]
  intro bracket _ same
  exact bracket.opening_ne plain (beq_iff_eq.mp same)

theorem close_of_ne {char : Char} (different : ∀ bracket : Bracket, char ≠ bracket.closing)
    (opened : List Bracket) : close char opened = opened := by
  cases opened with
  | nil => rfl
  | cons bracket opened => exact if_neg (different bracket)

theorem close_of_not_mem {char : Char} (plain : char ∉ marks) (opened : List Bracket) :
    close char opened = opened :=
  close_of_ne (fun bracket => (bracket.closing_ne plain).symm) opened

end Bracket

/-- Where a reader is: outside of quotes, inside, or there after a backslash. -/
inductive Place where
  | outside | inside | escaped

/-- The place of a reader and the brackets that are open there, the innermost first. -/
structure Reading where
  place : Place
  opened : List Bracket

namespace Reading

def read : Reading → Char → Reading
  | ⟨.outside, opened⟩, char =>
      if char = '"' then ⟨.inside, opened⟩
      else
        match Bracket.opened? char with
        | some bracket => ⟨.outside, bracket :: opened⟩
        | none => ⟨.outside, Bracket.close char opened⟩
  | ⟨.inside, opened⟩, char =>
      if char = '"' then ⟨.outside, opened⟩
      else if char = '\\' then ⟨.escaped, opened⟩
      else ⟨.inside, opened⟩
  | ⟨.escaped, opened⟩, _ => ⟨.inside, opened⟩

/-- What a reader has read of a text. -/
def ofText (text : List Char) : Reading := text.foldl read ⟨.outside, []⟩

/-- The brackets open at a line. One that the line starts by closing is not among them. -/
def openedAt (reading : Reading) (line : List Char) : List Bracket :=
  match reading.place, line.find? (· != ' ') with
  | .outside, some char => Bracket.close char reading.opened
  | _, _ => reading.opened

variable (bracket : Bracket) (opened : List Bracket)

theorem read_opening :
    read ⟨.outside, opened⟩ bracket.opening = ⟨.outside, bracket :: opened⟩ := by
  cases bracket <;> rfl

theorem read_closing :
    read ⟨.outside, bracket :: opened⟩ bracket.closing = ⟨.outside, opened⟩ := by
  cases bracket <;> rfl

theorem read_plain {char : Char} (plain : char ∉ Bracket.marks) :
    read ⟨.outside, opened⟩ char = ⟨.outside, opened⟩ := by
  have notQuote : char ≠ '"' := by
    rintro rfl
    exact plain (by decide)
  rw [read, if_neg notQuote, Bracket.opened?_of_not_mem plain, Bracket.close_of_not_mem plain]

end Reading

/-- The number of blanks that a line starts with. -/
def indentation (line : List Char) : Nat := (line.takeWhile (· == ' ')).length

theorem indentation_blanks (count : Nat) {char : Char} (solid : char ≠ ' ') (text : List Char) :
    indentation (List.replicate count ' ' ++ char :: text) = count := by
  rw [indentation, List.takeWhile_append_of_pos (by simp),
    List.takeWhile_cons_of_neg (by simpa using solid), List.append_nil, List.length_replicate]

theorem indentation_append (line text : List Char) :
    indentation (line ++ '\n' :: text) = indentation line := by
  induction line with
  | nil => rfl
  | cons char line inductionHypothesis =>
      simp only [indentation, List.cons_append, List.takeWhile_cons] at inductionHypothesis ⊢
      split
      · rw [List.length_cons, List.length_cons, inductionHypothesis]
      · rfl

namespace Reading

/-- The line that starts here has four blanks for each open bracket. -/
def Indents (reading : Reading) (line : List Char) : Prop :=
  indentation line = 4 * (reading.openedAt line).length

theorem openedAt_solid (opened : List Bracket) {char : Char} (solid : char ≠ ' ')
    (line : List Char) :
    openedAt ⟨.outside, opened⟩ (char :: line) = Bracket.close char opened := by
  rw [openedAt, List.find?_cons_of_pos (by simpa using solid)]

theorem openedAt_blanks (reading : Reading) (count : Nat) (line : List Char) :
    reading.openedAt (List.replicate count ' ' ++ line) = reading.openedAt line := by
  have blanks : (List.replicate count ' ').find? (· != ' ') = none := by
    rw [List.find?_replicate]
    simp
  rw [openedAt, openedAt, List.find?_append, blanks, Option.none_or]

theorem openedAt_append (reading : Reading) (line text : List Char) :
    reading.openedAt (line ++ '\n' :: text) = reading.openedAt line := by
  obtain ⟨place, opened⟩ := reading
  have lineFeed : ('\n' :: text).find? (· != ' ') = some '\n' := rfl
  rw [openedAt, openedAt, List.find?_append, lineFeed]
  cases line.find? (· != ' ') with
  | some char => rfl
  | none =>
      -- The line is blank, so the line break after it comes first, which closes nothing.
      cases place with
      | outside => exact Bracket.close_of_not_mem (by decide) opened
      | inside | escaped => rfl

theorem indents_append_iff {reading : Reading} {line text : List Char} :
    reading.Indents (line ++ '\n' :: text) ↔ reading.Indents line := by
  rw [Indents, Indents, indentation_append, openedAt_append]

/-- Every line after the first has four blanks for each open bracket. -/
def Aligned : Reading → List Char → Prop
  | _, [] => True
  | reading, char :: text =>
      (char = '\n' → (reading.read char).Indents text) ∧ (reading.read char).Aligned text

namespace Aligned

variable {reading : Reading} {opened : List Bracket} {text : List Char}

theorem cons {char : Char} (within : char ≠ '\n') (aligned : (reading.read char).Aligned text) :
    reading.Aligned (char :: text) :=
  ⟨fun lineFeed => absurd lineFeed within, aligned⟩

theorem cons_plain {char : Char} (plain : char ∉ '\n' :: Bracket.marks)
    (aligned : Aligned ⟨.outside, opened⟩ text) : Aligned ⟨.outside, opened⟩ (char :: text) := by
  rw [List.mem_cons, not_or] at plain
  refine .cons plain.1 ?_
  rwa [read_plain opened plain.2]

theorem append_plain {chars : List Char} (plain : ∀ char ∈ chars, char ∉ '\n' :: Bracket.marks)
    (aligned : Aligned ⟨.outside, opened⟩ text) : Aligned ⟨.outside, opened⟩ (chars ++ text) := by
  induction chars with
  | nil => exact aligned
  | cons char chars inductionHypothesis =>
      rw [List.forall_mem_cons] at plain
      exact .cons_plain plain.1 (inductionHypothesis plain.2)

/-- The start of a line between two others. -/
theorem indents {front : List Char} (aligned : reading.Aligned (front ++ '\n' :: text)) :
    ((front ++ ['\n']).foldl read reading).Indents text := by
  induction front generalizing reading with
  | nil => exact aligned.1 rfl
  | cons char front inductionHypothesis => exact inductionHypothesis aligned.2

/-- The start of any line. -/
theorem indents_line (aligned : reading.Aligned text) (first : reading.Indents text)
    {earlier later : List (List Char)} {line : List Char}
    (split : linesOf text = earlier ++ line :: later) :
    ((earlier.flatMap (· ++ ['\n'])).foldl read reading).Indents line := by
  rw [eq_of_linesOf_eq split] at first aligned
  have started : ((earlier.flatMap (· ++ ['\n'])).foldl read reading).Indents
      (['\n'].intercalate (line :: later)) := by
    rcases earlier.eq_nil_or_concat' with rfl | ⟨others, last, rfl⟩
    · exact first
    · simp only [List.flatMap_append, List.flatMap_cons, List.flatMap_nil, List.append_nil,
        List.append_assoc] at aligned ⊢
      rw [← List.append_assoc] at aligned ⊢
      exact aligned.indents
  cases later with
  | nil => rwa [List.intercalate_singleton] at started
  | cons next later =>
      rw [List.intercalate_cons_cons, List.append_assoc] at started
      exact indents_append_iff.mp started

end Aligned

end Reading

end TigerTree
