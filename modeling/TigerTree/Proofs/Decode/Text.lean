import TigerTree.Decode.Skip
import TigerTree.Proofs.Decode.Token

set_option autoImplicit false

/-!
Strings, read and passed over.

A string is passed over exactly if the grammar has it, and read exactly if its pieces stand for a
text as well.
-/

namespace TigerTree.Decode

open Json (CodeUnit Denotes Escapes HexDigit Piece Pieces)

theorem shortEscape?_eq_some_iff {letter char : Char} :
    shortEscape? letter = some char ↔ Escapes letter char := by
  constructor
  · intro named
    unfold shortEscape? at named
    split at named
    all_goals cases named
    all_goals constructor
  · rintro ⟨⟩ <;> rfl

theorem shortEscape?_u : shortEscape? 'u' = none := rfl

theorem toNat_lt_of_hexValue? {char : Char} {value : Nat} (named : hexValue? char = some value) :
    char.toNat < 128 := by
  unfold hexValue? at named
  split at named
  next range => exact Nat.lt_of_le_of_lt range.2 (by decide)
  next =>
    split at named
    next range => exact Nat.lt_of_le_of_lt range.2 (by decide)
    next =>
      split at named
      next range => exact Nat.lt_of_le_of_lt range.2 (by decide)
      next => cases named

theorem hexValue?_eq_some_iff {char : Char} {value : Nat} :
    hexValue? char = some value ↔ HexDigit char value := by
  have table : ∀ number < 128, ∀ value ∈ hexValue? (Char.ofNat number),
      value < 16 ∧ (Char.ofNat number = Nat.digitChar value ∨
        Char.ofNat number = (Nat.digitChar value).toUpper) := by decide
  have back : ∀ value < 16, hexValue? (Nat.digitChar value) = some value ∧
      hexValue? (Nat.digitChar value).toUpper = some value := by decide
  constructor
  · intro named
    have row := table char.toNat (toNat_lt_of_hexValue? named) value
    rw [Char.ofNat_toNat] at row
    rcases row named with ⟨bound, rfl | rfl⟩
    · exact .lower bound
    · exact .upper bound
  · rintro (bound | bound)
    · exact (back value bound).1
    · exact (back value bound).2

theorem hexNumber?_eq_some_iff {a b c d : Char} {number : Nat} :
    hexNumber? a b c d = some number ↔
      ∃ i j k l, HexDigit a i ∧ HexDigit b j ∧ HexDigit c k ∧ HexDigit d l ∧
        number = ((i * 16 + j) * 16 + k) * 16 + l := by
  simp only [hexNumber?, Option.bind_eq_bind, Option.bind_eq_some_iff, Option.pure_def,
    Option.some.injEq, hexValue?_eq_some_iff]
  constructor
  · rintro ⟨i, first, j, second, k, third, l, fourth, rfl⟩
    exact ⟨i, j, k, l, first, second, third, fourth, rfl⟩
  · rintro ⟨i, j, k, l, first, second, third, fourth, rfl⟩
    exact ⟨i, first, j, second, k, third, l, fourth, rfl⟩

theorem codeUnit_eq_ok_iff {source rest : List Char} {number : Nat} :
    codeUnit source = .ok number rest ↔ CodeUnit source number rest := by
  constructor
  · intro read
    unfold codeUnit at read
    -- How a broken unit fails depends on the number of bytes that are left.
    by_cases short : byteLength source < 4
    all_goals
      simp only [short, if_true, if_false] at read
      split at read
      next a b c d rest' =>
        split at read
        next number' named =>
          cases read
          obtain ⟨i, j, k, l, first, second, third, fourth, rfl⟩ := hexNumber?_eq_some_iff.mp named
          exact .digits first second third fourth
        next => simp at read
      next => simp at read
  · rintro ⟨first, second, third, fourth⟩
    have named := hexNumber?_eq_some_iff.mpr ⟨_, _, _, _, first, second, third, fourth, rfl⟩
    simp only [codeUnit, named]

theorem codeUnit_eq_drop {source rest : List Char} {number : Nat}
    (unit : CodeUnit source number rest) : rest = source.drop 4 := by
  cases unit
  rfl

@[simp]
theorem exactly_eq_ok_iff {expected : Char} {cause : Cause} {source rest : List Char}
    {value : Unit} :
    exactly expected cause source = .ok value rest ↔ source = expected :: rest := by
  cases source with
  | nil => simp [exactly]
  | cons char source =>
      by_cases same : char = expected
      · simp [exactly, same]
      · simp [exactly, same]

theorem isLeading_iff {unit : Nat} : isLeading unit = true ↔ 0xD800 ≤ unit ∧ unit ≤ 0xDBFF := by
  simp [isLeading]

theorem isTrailing_iff {unit : Nat} : isTrailing unit = true ↔ 0xDC00 ≤ unit ∧ unit ≤ 0xDFFF := by
  simp [isTrailing]

/-- An escape adds one or two pieces in front of the rest of its string, and one character. -/
structure SpellsEscape (source : List Char) (spelled : Spelled) (rest : List Char)
    (pieces : List Piece) : Prop where
  rest_eq : rest = source.drop spelled.length
  pieces_append : ∀ {more after}, Pieces rest more after →
    Pieces ('\\' :: source) (pieces ++ more) after
  denotes_append : ∀ {more chars}, Denotes more chars →
    Denotes (pieces ++ more) (spelled.char :: chars)

theorem unicodeEscape_sound {source rest : List Char} {spelled : Spelled}
    (read : unicodeEscape source = .ok spelled rest) :
    ∃ pieces, SpellsEscape ('u' :: source) spelled rest pieces := by
  simp only [unicodeEscape, Outcome.andThen_eq_ok_iff, codeUnit_eq_ok_iff] at read
  obtain ⟨unit, middle, first, read⟩ := read
  have firstDrop := codeUnit_eq_drop first
  split at read
  next => simp at read
  next notTrailing =>
    rw [isTrailing_iff] at notTrailing
    split at read
    next isLeading =>
      simp only [Outcome.andThen_eq_ok_iff, exactly_eq_ok_iff, codeUnit_eq_ok_iff] at read
      obtain ⟨-, _, rfl, -, start, rfl, second, middle, secondUnit, read⟩ := read
      have secondDrop := codeUnit_eq_drop secondUnit
      split at read
      next isTrailing =>
        rw [Outcome.ok.injEq] at read
        obtain ⟨rfl, rfl⟩ := read
        rw [isLeading_iff] at isLeading
        rw [isTrailing_iff] at isTrailing
        refine ⟨[.unit unit, .unit second], ?_, fun more => .unit first (.unit secondUnit more), ?_⟩
        · have dropped := congrArg (List.drop 6) firstDrop
          simpa [secondDrop] using dropped
        · intro more chars denotes
          simp only [List.cons_append, List.nil_append]
          exact .pair isLeading.1 isLeading.2 isTrailing.1 isTrailing.2 denotes
      next => simp at read
    next notLeading =>
      rw [isLeading_iff] at notLeading
      cases read
      exact ⟨[.unit unit], by simpa using firstDrop, fun more => .unit first more,
        fun more => .unit (by omega) more⟩

theorem escape_sound {source rest : List Char} {spelled : Spelled}
    (read : escape source = .ok spelled rest) :
    ∃ pieces, SpellsEscape source spelled rest pieces := by
  unfold escape at read
  split at read
  next => simp at read
  next letter rest' =>
    split at read
    next char named =>
      cases read
      exact ⟨[.char char], rfl, fun more => .letter (shortEscape?_eq_some_iff.mp named) more,
        fun more => .char more⟩
    next =>
      split at read
      next isUnit =>
        subst isUnit
        exact unicodeEscape_sound read
      next => simp at read

theorem escape_letter {letter char : Char} {rest : List Char} (named : Escapes letter char) :
    escape (letter :: rest) = .ok ⟨char, 1⟩ rest := by
  simp only [escape, shortEscape?_eq_some_iff.mpr named]

theorem escape_unit {source rest : List Char} {unit : Nat} (spelled : CodeUnit source unit rest)
    (single : ¬ (0xD800 ≤ unit ∧ unit ≤ 0xDFFF)) :
    escape ('u' :: source) = .ok ⟨Char.ofNat unit, 5⟩ rest := by
  have notTrailing : isTrailing unit = false := by
    rw [← Bool.not_eq_true, isTrailing_iff]
    omega
  have notLeading : isLeading unit = false := by
    rw [← Bool.not_eq_true, isLeading_iff]
    omega
  simp [escape, shortEscape?_u, unicodeEscape, codeUnit_eq_ok_iff.mpr spelled, Outcome.andThen,
    notTrailing, notLeading]

theorem escape_pair {source middle rest : List Char} {leading trailing : Nat}
    (first : CodeUnit source leading ('\\' :: 'u' :: middle))
    (second : CodeUnit middle trailing rest)
    (isLeading' : 0xD800 ≤ leading ∧ leading ≤ 0xDBFF)
    (isTrailing' : 0xDC00 ≤ trailing ∧ trailing ≤ 0xDFFF) :
    escape ('u' :: source) =
      .ok ⟨Char.ofNat (0x10000 + (leading - 0xD800) * 0x400 + (trailing - 0xDC00)), 11⟩ rest := by
  have notTrailing : isTrailing leading = false := by
    rw [← Bool.not_eq_true, isTrailing_iff]
    omega
  simp [escape, shortEscape?_u, unicodeEscape, codeUnit_eq_ok_iff.mpr first,
    codeUnit_eq_ok_iff.mpr second, Outcome.andThen, exactly, notTrailing,
    isLeading_iff.mpr isLeading', isTrailing_iff.mpr isTrailing']

/-- What belongs to an escape that has been read is passed over. -/
theorem readChars_covered (taken : List Char) (covered : Nat) (source : List Char) :
    readChars taken covered source = readChars taken 0 (source.drop covered) := by
  induction covered generalizing source with
  | zero => rfl
  | succ covered inductionHypothesis =>
      cases source with
      | nil => rfl
      | cons char source =>
          rw [List.drop_succ_cons, ← inductionHypothesis]
          rfl

theorem readChars_escape {taken source rest : List Char} {spelled : Spelled}
    (read : escape source = .ok spelled rest) :
    readChars taken 0 ('\\' :: source) = readChars (spelled.char :: taken) 0 rest := by
  obtain ⟨pieces, spells⟩ := escape_sound read
  rw [spells.rest_eq, ← readChars_covered, readChars]
  simp [read]

theorem readChars_sound {taken source rest : List Char} {value : String}
    (read : readChars taken 0 source = .ok value rest) :
    ∃ pieces chars, Pieces source pieces rest ∧ Denotes pieces chars ∧
      value = String.ofList (taken.reverse ++ chars) := by
  induction length : source.length using Nat.strongRecOn generalizing source taken with
  | ind length inductionHypothesis =>
      subst length
      cases source with
      | nil => simp [readChars] at read
      | cons char source =>
          by_cases quote : char = '"'
          · simp only [readChars, quote, if_true] at read
            cases read
            subst quote
            exact ⟨[], [], .close, .nil, by simp⟩
          by_cases backslash : char = '\\'
          · subst backslash
            cases result : escape source with
            | ok spelled middle =>
                rw [readChars_escape result] at read
                obtain ⟨escaped, spells⟩ := escape_sound result
                have shorter : middle.length < ('\\' :: source).length := by
                  rw [spells.rest_eq, List.length_drop, List.length_cons]
                  omega
                obtain ⟨pieces, chars, more, denotes, equality⟩ :=
                  inductionHypothesis _ shorter read rfl
                exact ⟨escaped ++ pieces, spelled.char :: chars, spells.pieces_append more,
                  spells.denotes_append denotes, by simpa using equality⟩
            | failed cause left => simp [readChars, result] at read
            | refused cause after => simp [readChars, result] at read
          by_cases control : char.toNat < 32
          · simp [readChars, quote, backslash, control] at read
          · simp only [readChars, quote, backslash, control, if_false] at read
            obtain ⟨pieces, chars, more, denotes, equality⟩ :=
              inductionHypothesis _ (Nat.lt_succ_self _) read rfl
            exact ⟨.char char :: pieces, char :: chars,
              .plain quote backslash (Nat.not_lt.mp control) more, .char denotes,
              by simpa using equality⟩

theorem readChars_complete {taken source rest chars : List Char} {pieces : List Piece}
    (denotes : Denotes pieces chars) (spelled : Pieces source pieces rest) :
    readChars taken 0 source = .ok (String.ofList (taken.reverse ++ chars)) rest := by
  induction denotes generalizing source taken with
  | nil =>
      cases spelled
      simp [readChars]
  | char _ inductionHypothesis =>
      cases spelled with
      | plain quote backslash control more =>
          simp only [readChars, quote, backslash, Nat.not_lt.mpr control, if_false]
          rw [inductionHypothesis more]
          simp
      | letter named more =>
          rw [readChars_escape (escape_letter named), inductionHypothesis more]
          simp
  | unit single _ inductionHypothesis =>
      cases spelled with
      | unit unit more =>
          rw [readChars_escape (escape_unit unit single), inductionHypothesis more]
          simp
  | pair low high low' high' _ inductionHypothesis =>
      cases spelled with
      | unit first more =>
          cases more with
          | unit second more =>
              rw [readChars_escape (escape_pair first second ⟨low, high⟩ ⟨low', high'⟩),
                inductionHypothesis more]
              simp

theorem readText_eq_ok_iff {source rest : List Char} {value : String} :
    readText source = .ok value rest ↔
      ∃ pieces, Pieces source pieces rest ∧ Denotes pieces value.toList := by
  constructor
  · intro read
    obtain ⟨pieces, chars, spelled, denotes, rfl⟩ := readChars_sound read
    exact ⟨pieces, spelled, by simpa using denotes⟩
  · rintro ⟨pieces, spelled, denotes⟩
    rw [readText, readChars_complete denotes spelled]
    simp

theorem skipEscape_eq_ok {source rest : List Char} {length : Nat}
    (read : skipEscape source = .ok length rest) :
    rest = source.drop length ∧
      ∃ piece, ∀ {more after}, Pieces rest more after →
        Pieces ('\\' :: source) (piece :: more) after := by
  unfold skipEscape at read
  split at read
  next => simp at read
  next letter rest' =>
    split at read
    next char named =>
      cases read
      exact ⟨rfl, .char char, fun more => .letter (shortEscape?_eq_some_iff.mp named) more⟩
    next =>
      split at read
      next isUnit =>
        simp only [Outcome.map_eq_ok_iff, codeUnit_eq_ok_iff] at read
        obtain ⟨unit, spelled, rfl⟩ := read
        subst isUnit
        exact ⟨codeUnit_eq_drop spelled, .unit unit, fun more => .unit spelled more⟩
      next => simp at read

theorem skipChars_covered (covered : Nat) (source : List Char) :
    skipChars covered source = skipChars 0 (source.drop covered) := by
  induction covered generalizing source with
  | zero => rfl
  | succ covered inductionHypothesis =>
      cases source with
      | nil => rfl
      | cons char source =>
          rw [List.drop_succ_cons, ← inductionHypothesis]
          rfl

theorem skipChars_escape {source rest : List Char} {length : Nat}
    (read : skipEscape source = .ok length rest) :
    skipChars 0 ('\\' :: source) = skipChars 0 rest := by
  rw [(skipEscape_eq_ok read).1, ← skipChars_covered, skipChars]
  simp [read]

theorem skipText_sound {source rest : List Char} {value : Unit}
    (read : skipText source = .ok value rest) : ∃ pieces, Pieces source pieces rest := by
  unfold skipText at read
  induction length : source.length using Nat.strongRecOn generalizing source with
  | ind length inductionHypothesis =>
      subst length
      cases source with
      | nil => simp [skipChars] at read
      | cons char source =>
          by_cases quote : char = '"'
          · simp only [skipChars, quote, if_true] at read
            cases read
            subst quote
            exact ⟨[], .close⟩
          by_cases backslash : char = '\\'
          · subst backslash
            cases result : skipEscape source with
            | ok length middle =>
                rw [skipChars_escape result] at read
                obtain ⟨dropped, piece, spells⟩ := skipEscape_eq_ok result
                have shorter : middle.length < ('\\' :: source).length := by
                  rw [dropped, List.length_drop, List.length_cons]
                  omega
                obtain ⟨pieces, more⟩ := inductionHypothesis _ shorter read rfl
                exact ⟨piece :: pieces, spells more⟩
            | failed cause left => simp [skipChars, result] at read
            | refused cause after => simp [skipChars, result] at read
          by_cases control : char.toNat < 32
          · simp [skipChars, quote, backslash, control] at read
          · simp only [skipChars, quote, backslash, control, if_false] at read
            obtain ⟨pieces, more⟩ := inductionHypothesis _ (Nat.lt_succ_self _) read rfl
            exact ⟨.char char :: pieces, .plain quote backslash (Nat.not_lt.mp control) more⟩

theorem skipText_complete {source rest : List Char} {pieces : List Piece}
    (spelled : Pieces source pieces rest) : skipText source = .ok () rest := by
  unfold skipText
  induction spelled with
  | close => simp [skipChars]
  | plain quote backslash control _ inductionHypothesis =>
      simp only [skipChars, quote, backslash, Nat.not_lt.mpr control, if_false]
      exact inductionHypothesis
  | @letter letter char source pieces rest named _ inductionHypothesis =>
      have read : skipEscape (letter :: source) = .ok 1 source := by
        simp only [skipEscape, shortEscape?_eq_some_iff.mpr named]
      rw [skipChars_escape read]
      exact inductionHypothesis
  | @unit source number middle pieces rest unit _ inductionHypothesis =>
      have read : skipEscape ('u' :: source) = .ok 5 middle := by
        simp [skipEscape, shortEscape?_u, codeUnit_eq_ok_iff.mpr unit, Outcome.map]
      rw [skipChars_escape read]
      exact inductionHypothesis

end TigerTree.Decode
