import TigerTree.Json
import TigerTree.Proofs.Json.Grammar

set_option autoImplicit false

/-!
Written text follows the grammar.

What `Json.write` puts in front of a rest is a phrase of the grammar in front of that rest, for
the value with its strings piece by piece and its numbers by sign and magnitude.
-/

namespace TigerTree.Json

/-- A character is written as a code unit if it takes six characters, and otherwise plainly or by
a letter. -/
def piece (char : Char) : Piece :=
  if (escaped char).length = 6 then .unit char.toNat else .char char

def pieces (text : String) : List Piece := text.toList.map piece

mutual

def toWritten : Json → Written
  | null => .null
  | number value => .integer (value < 0) value.natAbs
  | text value => .text (pieces value)
  | array items => .array (itemsWritten items)
  | object members => .object (membersWritten members)

def itemsWritten : List Json → List Written
  | [] => []
  | item :: items => item.toWritten :: itemsWritten items

def membersWritten : List (String × Json) → List (List Piece × Written)
  | [] => []
  | (key, value) :: members => (pieces key, value.toWritten) :: membersWritten members

end

theorem codeUnit_control {number : Nat} (small : number < 32) (rest : List Char) :
    CodeUnit ('0' :: '0' :: hexDigit (number / 16) :: hexDigit number :: rest) number rest := by
  have zero : HexDigit (Nat.digitChar 0) 0 := .lower (by decide)
  have high : HexDigit (hexDigit (number / 16)) (number / 16 % 16) :=
    .lower (Nat.mod_lt _ (by decide))
  have low : HexDigit (hexDigit number) (number % 16) := .lower (Nat.mod_lt _ (by decide))
  have sum : ((0 * 16 + 0) * 16 + number / 16 % 16) * 16 + number % 16 = number := by omega
  have unit : CodeUnit ('0' :: '0' :: hexDigit (number / 16) :: hexDigit number :: rest) _ rest :=
    .digits zero zero high low
  rwa [sum] at unit

/-- A character is written by a letter, by a code unit, or plainly. -/
theorem escaped_cases (char : Char) :
    (∃ letter, Escapes letter char ∧ escaped char = ['\\', letter]) ∨
      (char.toNat < 32 ∧
        escaped char = ['\\', 'u', '0', '0', hexDigit (char.toNat / 16), hexDigit char.toNat]) ∨
      (char ≠ '"' ∧ char ≠ '\\' ∧ 32 ≤ char.toNat ∧ escaped char = [char]) := by
  unfold escaped
  split
  next quote =>
    subst quote
    exact .inl ⟨_, .quote, rfl⟩
  split
  next backslash =>
    subst backslash
    exact .inl ⟨_, .backslash, rfl⟩
  split
  next backspace =>
    subst backspace
    exact .inl ⟨_, .backspace, rfl⟩
  split
  next formFeed =>
    subst formFeed
    exact .inl ⟨_, .formFeed, rfl⟩
  split
  next lineFeed =>
    subst lineFeed
    exact .inl ⟨_, .lineFeed, rfl⟩
  split
  next carriageReturn =>
    subst carriageReturn
    exact .inl ⟨_, .carriageReturn, rfl⟩
  split
  next tab =>
    subst tab
    exact .inl ⟨_, .tab, rfl⟩
  next notQuote notBackslash _ _ _ _ _ =>
    split
    next control => exact .inr (.inl ⟨control, rfl⟩)
    next plain => exact .inr (.inr ⟨notQuote, notBackslash, Nat.le_of_not_lt plain, rfl⟩)

theorem pieces_escaped {source rest : List Char} {pieces : List Piece}
    (spelled : Pieces source pieces rest) (char : Char) :
    Pieces (escaped char ++ source) (piece char :: pieces) rest := by
  rcases escaped_cases char with ⟨letter, named, written⟩ | ⟨control, written⟩ |
    ⟨notQuote, notBackslash, plain, written⟩
  all_goals rw [piece, written]
  · exact .letter named spelled
  · exact .unit (codeUnit_control control source) spelled
  · exact .plain notQuote notBackslash plain spelled

theorem pieces_writeChars (chars rest : List Char) :
    Pieces (writeChars chars ('"' :: rest)) (chars.map piece) rest := by
  induction chars with
  | nil => exact .close
  | cons char chars inductionHypothesis => exact pieces_escaped inductionHypothesis char

/-- No character is half of a pair. -/
theorem denotes_piece {pieces : List Piece} {chars : List Char} (denotes : Denotes pieces chars)
    (char : Char) : Denotes (piece char :: pieces) (char :: chars) := by
  unfold piece
  split
  next =>
    have single : ¬ (0xD800 ≤ char.toNat ∧ char.toNat ≤ 0xDFFF) := by
      have valid : char.toNat.isValidChar := char.valid
      rw [Nat.isValidChar] at valid
      omega
    have unit := Denotes.unit single denotes
    rwa [Char.ofNat_toNat] at unit
  next => exact .char denotes

theorem denotes_pieces (text : String) : Denotes (pieces text) text.toList := by
  unfold pieces
  induction text.toList with
  | nil => exact .nil
  | cons char chars inductionHypothesis => exact denotes_piece inductionHypothesis char

/-- The digits of a positive number start with another digit than zero. -/
theorem toDigits_eq_cons {number : Nat} (positive : number ≠ 0) :
    ∃ first others, Nat.toDigits 10 number = first :: others ∧ first ≠ '0' := by
  induction number using Nat.strongRecOn with
  | ind number inductionHypothesis =>
      by_cases single : number < 10
      · rw [Nat.toDigits_of_lt_base single]
        refine ⟨number.digitChar, [], rfl, ?_⟩
        have notZero : ∀ digit < 10, digit ≠ 0 → digit.digitChar ≠ '0' := by decide
        exact notZero number single positive
      · have large : 10 ≤ number := Nat.le_of_not_lt single
        obtain ⟨first, others, equality, notZero⟩ :=
          inductionHypothesis (number / 10) (by omega) (by omega)
        refine ⟨first, others ++ [(number % 10).digitChar], ?_, notZero⟩
        rw [Nat.toDigits_of_base_le (by decide) large, equality, List.cons_append]

theorem whole_toDigits (number : Nat) (rest : List Char) :
    Whole (Nat.toDigits 10 number ++ rest) number rest := by
  by_cases positive : number = 0
  · subst positive
    exact .zero
  · obtain ⟨first, others, equality, notZero⟩ := toDigits_eq_cons positive
    have isDigits : ∀ digit ∈ first :: others, digit.isDigit := by
      intro digit mem
      rw [← equality] at mem
      exact Nat.isDigit_of_mem_toDigits (by decide) (by decide) mem
    rw [List.forall_mem_cons] at isDigits
    have whole : Whole (first :: (others ++ rest)) _ rest :=
      .digits isDigits.1 notZero isDigits.2
    rwa [← equality, Nat.ofDigitChars_ten_toDigits, ← List.cons_append, ← equality] at whole

theorem value_decimal (value : Int) (rest : List Char) :
    Value (decimal value ++ rest) (.integer (value < 0) value.natAbs) rest := by
  unfold decimal
  split
  next negative =>
    rw [decide_eq_true negative]
    exact .negative (.integer (whole_toDigits value.natAbs rest))
  next positive =>
    rw [decide_eq_false positive]
    exact .number (.integer (whole_toDigits value.natAbs rest))

mutual

theorem value_write (rest : List Char) : (value : Json) →
    Value (value.write rest) value.toWritten rest
  | null => .null
  | number value => value_decimal value rest
  | text value => .text (pieces_writeChars value.toList rest)
  | array items => .array (items_write rest true items)
  | object members => .object (members_write rest true members)

theorem items_write (rest : List Char) : (first : Bool) → (items : List Json) →
    Items first (writeItems first items (']' :: rest)) (itemsWritten items) rest
  | true, [] | false, [] => .close .done
  | true, item :: items => .item .opening .done (value_write _ item) (items_write rest false items)
  | false, item :: items =>
      .item (.comma .done) .done (value_write _ item) (items_write rest false items)

theorem members_write (rest : List Char) : (first : Bool) → (members : List (String × Json)) →
    Members first (writeMembers first members ('\x7d' :: rest)) (membersWritten members) rest
  | true, [] | false, [] => .close .done
  | true, (key, value) :: members =>
      .member .opening .done
        (.pair (pieces_writeChars key.toList _) .done .done (value_write _ value))
        (members_write rest false members)
  | false, (key, value) :: members =>
      .member (.comma .done) .done
        (.pair (pieces_writeChars key.toList _) .done .done (value_write _ value))
        (members_write rest false members)

end

end TigerTree.Json
