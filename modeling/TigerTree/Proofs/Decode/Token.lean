import TigerTree.Decode.Outcome
import TigerTree.Proofs.Json.Grammar

set_option autoImplicit false

/-!
Blanks, keywords and colons, as they are read and as the grammar has them.

The reader passes over all blanks at once. A blank never starts another token, so this is the only
way in which the grammar can pass over them.
-/

namespace TigerTree.Decode

open Json (Blanks Member Piece Value Whole Written)

theorem isBlank_iff {char : Char} : isBlank char = true ↔ char ∈ Json.blankChars := by
  simp [isBlank, Json.blankChars, or_assoc]

theorem blanks_skipBlanks (source : List Char) : Blanks source (skipBlanks source) := by
  induction source with
  | nil => exact .done
  | cons char source inductionHypothesis =>
      by_cases blank : isBlank char = true
      · rw [skipBlanks, List.dropWhile_cons_of_pos blank]
        exact .blank (isBlank_iff.mp blank) inductionHypothesis
      · rw [skipBlanks, List.dropWhile_cons_of_neg blank]
        exact .done

theorem skipBlanks_of_blanks {source rest : List Char} (blanks : Blanks source rest) :
    skipBlanks source = skipBlanks rest := by
  induction blanks with
  | done => rfl
  | blank blank _ inductionHypothesis =>
      rw [skipBlanks, List.dropWhile_cons_of_pos (isBlank_iff.mpr blank)]
      exact inductionHypothesis

theorem skipBlanks_cons {char : Char} {rest : List Char} (solid : isBlank char = false) :
    skipBlanks (char :: rest) = char :: rest :=
  List.dropWhile_cons_of_neg (by simp [solid])

theorem skipBlanks_eq_cons {source rest : List Char} {char : Char}
    (blanks : Blanks source (char :: rest)) (solid : isBlank char = false) :
    skipBlanks source = char :: rest := by
  rw [skipBlanks_of_blanks blanks, skipBlanks_cons solid]

@[simp]
theorem skipBlanks_skipBlanks (source : List Char) :
    skipBlanks (skipBlanks source) = skipBlanks source :=
  (skipBlanks_of_blanks (blanks_skipBlanks source)).symm

theorem blanks_of_skipBlanks_eq {source rest : List Char} (skipped : skipBlanks source = rest) :
    Blanks source rest :=
  skipped ▸ blanks_skipBlanks source

theorem skipBlanks_eq_nil_iff {source : List Char} : skipBlanks source = [] ↔ Blanks source [] :=
  ⟨blanks_of_skipBlanks_eq, skipBlanks_of_blanks⟩

@[simp]
theorem keyword_eq_ok_iff {letters source rest : List Char} {value : Unit} :
    keyword letters source = .ok value rest ↔ source = letters ++ rest := by
  induction letters generalizing source with
  | nil => simp [keyword]
  | cons letter letters inductionHypothesis =>
      cases source with
      | nil => simp [keyword]
      | cons char source =>
          by_cases same : char = letter
          · simp [keyword, same, inductionHypothesis]
          · simp [keyword, same]

theorem colon_of_blanks {source rest : List Char} (blanks : Blanks source (':' :: rest)) :
    colon source = .ok () rest := by
  simp only [colon, skipBlanks_eq_cons blanks (by decide)]

theorem colon_eq_ok_iff {source rest : List Char} {value : Unit} :
    colon source = .ok value rest ↔ Blanks source (':' :: rest) := by
  constructor
  · intro read
    unfold colon at read
    split at read
    next rest' skipped =>
      cases read
      exact blanks_of_skipBlanks_eq skipped
    next => simp at read
    next => simp at read
  · exact colon_of_blanks

/-- The characters that a value can start with. -/
def opensValue (char : Char) : Bool :=
  char ∈ ['n', 't', 'f', '"', '-', '[', '\x7b'] || char.isDigit

theorem opensValue_ne {char : Char} (opens : opensValue char = true) (other : Char)
    (closed : opensValue other = false) : char ≠ other := by
  rintro rfl
  simp [closed] at opens

theorem digit_ne {char : Char} (digit : char.isDigit = true) (other : Char)
    (noDigit : other.isDigit = false) : char ≠ other := by
  rintro rfl
  simp [noDigit] at digit

theorem solid_of_opensValue {char : Char} (opens : opensValue char = true) :
    isBlank char = false := by
  have space := opensValue_ne opens ' ' (by decide)
  have lineFeed := opensValue_ne opens '\n' (by decide)
  have tab := opensValue_ne opens '\t' (by decide)
  have carriageReturn := opensValue_ne opens '\r' (by decide)
  simp [isBlank, space, lineFeed, tab, carriageReturn]

theorem whole_opens {source rest : List Char} {magnitude : Nat}
    (whole : Whole source magnitude rest) :
    ∃ char tail, source = char :: tail ∧ char.isDigit = true := by
  cases whole with
  | zero => exact ⟨_, _, rfl, by decide⟩
  | digits digit => exact ⟨_, _, rfl, digit⟩

theorem number_opens {negative : Bool} {source rest : List Char} {value : Written}
    (number : Json.Number negative source value rest) :
    ∃ char tail, source = char :: tail ∧ char.isDigit = true := by
  cases number with
  | integer whole => exact whole_opens whole
  | real whole => exact whole_opens whole

theorem value_opens {source rest : List Char} {value : Written}
    (spelled : Value source value rest) :
    ∃ char tail, source = char :: tail ∧ opensValue char = true := by
  cases spelled with
  | number number =>
      obtain ⟨char, tail, equality, digit⟩ := number_opens number
      exact ⟨char, tail, equality, by simp [opensValue, digit]⟩
  | _ => exact ⟨_, _, rfl, by decide⟩

theorem member_opens {source rest : List Char} {member : List Piece × Written}
    (spelled : Member source member rest) : ∃ tail, source = '"' :: tail := by
  cases spelled
  exact ⟨_, rfl⟩

/-- Blanks are passed over up to the value that follows them. -/
theorem skipBlanks_eq_of_value {source front rest : List Char} {value : Written}
    (blanks : Blanks source front) (spelled : Value front value rest) :
    skipBlanks source = front := by
  obtain ⟨char, tail, rfl, opens⟩ := value_opens spelled
  exact skipBlanks_eq_cons blanks (solid_of_opensValue opens)

/-- Whether a number could go on with what follows it. -/
def continuesNumber : List Char → Bool
  | [] => false
  | char :: _ => char.isDigit || char == '.' || char == 'e' || char == 'E'

/-- The reader takes as much of a number as it can, so a number ends where it cannot go on. -/
def EndsAt : Written → List Char → Prop
  | .integer .., rest | .real, rest => continuesNumber rest = false
  | _, _ => True

theorem stops_of_endsAt {negative : Bool} {source rest : List Char} {value : Written}
    (number : Json.Number negative source value rest) (ends : EndsAt value rest) :
    continuesNumber rest = false := by
  cases number <;> exact ends

theorem endsAt_of_not_continues {value : Written} {rest : List Char}
    (stops : continuesNumber rest = false) : EndsAt value rest := by
  cases value with
  | integer negative magnitude => exact stops
  | real => exact stops
  | _ => trivial

end TigerTree.Decode
