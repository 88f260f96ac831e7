import TigerTree.Decode.Bracket
import TigerTree.Proofs.Decode.Token
import TigerTree.Proofs.Json.Spelling

set_option autoImplicit false

/-!
Numbers, read and passed over.

A number that is kept has to be an integer of 32 bits. The reader of numbers knows more numbers
than that, but none of the others comes out whole.
-/

namespace TigerTree.Decode

open Json (Digits Exponent Refinement Rule Sign Whole Written)

theorem startsWithDigit_iff {source : List Char} :
    startsWithDigit source = true ↔ ∃ char rest, source = char :: rest ∧ char.isDigit = true := by
  cases source <;> simp [startsWithDigit]

theorem startsWithDigit_of_stops {rest : List Char} (stops : continuesNumber rest = false) :
    startsWithDigit rest = false := by
  cases rest with
  | nil => rfl
  | cons char rest =>
      simp only [continuesNumber, Bool.or_eq_false_iff] at stops
      simpa [startsWithDigit] using stops.1.1.1

theorem skipDigits_eq_self {rest : List Char} (stops : startsWithDigit rest = false) :
    skipDigits rest = rest := by
  cases rest with
  | nil => rfl
  | cons char rest => exact List.dropWhile_cons_of_neg (by simpa [startsWithDigit] using stops)

theorem skipDigits_append {digits rest : List Char} (isDigits : ∀ digit ∈ digits, digit.isDigit)
    (stops : startsWithDigit rest = false) : skipDigits (digits ++ rest) = rest := by
  rw [skipDigits, List.dropWhile_append_of_pos isDigits]
  exact skipDigits_eq_self stops

theorem takeWhile_isDigit {rest : List Char} (stops : startsWithDigit rest = false) :
    rest.takeWhile Char.isDigit = [] := by
  cases rest with
  | nil => rfl
  | cons char rest => exact List.takeWhile_cons_of_neg (by simpa [startsWithDigit] using stops)

theorem digits_skipDigits {source : List Char} (starts : startsWithDigit source = true) :
    Digits source (skipDigits source) := by
  have split := List.takeWhile_append_dropWhile (p := Char.isDigit) (l := source)
  have isDigits : ∀ digit ∈ source.takeWhile Char.isDigit, digit.isDigit := by
    intro digit member
    exact List.all_eq_true.mp List.all_takeWhile digit member
  obtain ⟨char, rest, rfl, digit⟩ := startsWithDigit_iff.mp starts
  have present : (char :: rest).takeWhile Char.isDigit ≠ [] := by simp [digit]
  have digits : Digits (_ ++ skipDigits (char :: rest)) _ := .digits present isDigits
  rwa [skipDigits, split] at digits

theorem startsWithDigit_of_digits {source rest : List Char} (digits : Digits source rest) :
    startsWithDigit source = true := by
  obtain ⟨present, isDigits⟩ := digits
  obtain ⟨digit, others, rfl⟩ := List.exists_cons_of_ne_nil present
  simpa [startsWithDigit] using isDigits digit (by simp)

theorem skipDigits_of_digits {source rest : List Char} (digits : Digits source rest)
    (stops : startsWithDigit rest = false) : skipDigits source = rest := by
  obtain ⟨-, isDigits⟩ := digits
  exact skipDigits_append isDigits stops

/-- The digits that `extend` takes are the digits of the number it returns. -/
theorem extend_spec (limit number count : Nat) (source : List Char) :
    ∃ digits, source = digits ++ (extend limit number count source).2.2 ∧
      (∀ digit ∈ digits, digit.isDigit) ∧
      (extend limit number count source).1 = Nat.ofDigitChars 10 digits number := by
  induction source generalizing number count with
  | nil => exact ⟨[], rfl, by simp, by simp [extend]⟩
  | cons char source inductionHypothesis =>
      by_cases fits : char.isDigit ∧ number * 10 + digitValue char ≤ limit
      · obtain ⟨digits, equality, isDigits, total⟩ :=
          inductionHypothesis (number * 10 + digitValue char) (count + 1)
        refine ⟨char :: digits, ?_, ?_, ?_⟩
        · simp only [extend, fits, and_self, if_true, List.cons_append]
          rw [← equality]
        · simpa [fits.1] using isDigits
        · simp only [extend, fits, and_self, if_true]
          rw [total, Nat.ofDigitChars_cons, digitValue, Nat.mul_comm]
      · simp only [extend, fits, if_false]
        exact ⟨[], rfl, by simp, by simp⟩

theorem le_ofDigitChars {digits : List Char} {number : Nat} :
    number ≤ Nat.ofDigitChars 10 digits number := by
  induction digits generalizing number with
  | nil => simp
  | cons digit digits inductionHypothesis =>
      rw [Nat.ofDigitChars_cons]
      exact Nat.le_trans (by omega) inductionHypothesis

/-- Digits that stay within the limit are taken to the last. -/
theorem extend_append {limit : Nat} {digits rest : List Char} {number count : Nat}
    (isDigits : ∀ digit ∈ digits, digit.isDigit) (stops : startsWithDigit rest = false)
    (bounded : Nat.ofDigitChars 10 digits number ≤ limit) :
    extend limit number count (digits ++ rest) =
      (Nat.ofDigitChars 10 digits number, count + digits.length, rest) := by
  induction digits generalizing number count with
  | nil =>
      cases rest with
      | nil => simp [extend]
      | cons char rest =>
          have noDigit : char.isDigit = false := by simpa [startsWithDigit] using stops
          simp [extend, noDigit]
  | cons digit digits inductionHypothesis =>
      rw [Nat.ofDigitChars_cons] at bounded
      have isDigit := isDigits digit (by simp)
      have step : number * 10 + digitValue digit = 10 * number + (digit.toNat - '0'.toNat) := by
        rw [digitValue, Nat.mul_comm]
      have fits : number * 10 + digitValue digit ≤ limit := by
        rw [step]
        exact Nat.le_trans le_ofDigitChars bounded
      simp only [List.cons_append, extend, isDigit, fits, and_self, if_true]
      rw [inductionHypothesis (fun digit member => isDigits digit (by simp [member]))
        (by rwa [step]), step, Nat.ofDigitChars_cons]
      simp only [List.length_cons, Prod.mk.injEq, and_true, true_and]
      omega

theorem realNumber_ne_whole {negative : Bool} {significand : Nat} {exponent value : Int}
    {source rest : List Char} :
    realNumber negative significand exponent source ≠ .ok (.whole value) rest := by
  unfold realNumber
  split <;> simp

theorem readExponent_ne_whole {negative : Bool} {significand : Nat} {exponent value : Int}
    {source rest : List Char} :
    readExponent negative significand exponent source ≠ .ok (.whole value) rest := by
  unfold readExponent
  dsimp only
  split
  · simp
  · split
    · split
      · repeat' split
        all_goals simp
      · exact realNumber_ne_whole
    · simp

theorem readFraction_ne_whole {negative : Bool} {significand : Nat} {exponent value : Int}
    {source rest : List Char} :
    readFraction negative significand exponent source ≠ .ok (.whole value) rest := by
  unfold readFraction
  split
  · dsimp only
    unfold readAfterFraction
    split
    · exact readExponent_ne_whole
    · exact readExponent_ne_whole
    · exact realNumber_ne_whole
  · split <;> simp

/-- A whole number is the value of its digits, and a negative one is not zero. -/
theorem wholeNumber_eq_whole {negative : Bool} {significand : Nat} {source rest : List Char}
    {value : Int} (read : wholeNumber negative significand source = .ok (.whole value) rest) :
    rest = source ∧ (negative = true → significand ≠ 0) ∧
      value = if negative then -(significand : Int) else significand := by
  cases negative with
  | false =>
      simp only [wholeNumber, Bool.false_eq_true, if_false, Outcome.ok.injEq,
        Number.whole.injEq] at read
      obtain ⟨rfl, rfl⟩ := read
      simp
  | true =>
      simp only [wholeNumber, if_true] at read
      split at read
      next fits =>
        simp only [Outcome.ok.injEq, Number.whole.injEq] at read
        obtain ⟨rfl, rfl⟩ := read
        simp
        omega
      next => exact absurd read realNumber_ne_whole

theorem readAfterDigits_eq_whole {negative : Bool} {significand excess : Nat}
    {source rest : List Char} {value : Int}
    (read : readAfterDigits negative significand excess source = .ok (.whole value) rest) :
    excess = 0 ∧ wholeNumber negative significand source = .ok (.whole value) rest := by
  unfold readAfterDigits at read
  split at read
  next => exact absurd read readFraction_ne_whole
  next => exact absurd read readExponent_ne_whole
  next => exact absurd read readExponent_ne_whole
  next =>
    split at read
    next none => exact ⟨none, read⟩
    next => exact absurd read realNumber_ne_whole

/-- A number that comes out whole is an integer of the grammar. -/
theorem readNumber_eq_whole {negative : Bool} {source rest : List Char} {value : Int}
    (read : readNumber negative source = .ok (.whole value) rest) :
    ∃ magnitude, Whole source magnitude rest ∧ (negative = true → magnitude ≠ 0) ∧
      value = if negative then -(magnitude : Int) else magnitude := by
  unfold readNumber at read
  split at read
  next => simp at read
  next char source =>
    split at read
    next zero =>
      subst zero
      split at read
      next => simp at read
      next =>
        obtain ⟨rfl, facts⟩ := wholeNumber_eq_whole (readAfterDigits_eq_whole read).2
        exact ⟨0, .zero, facts⟩
    next nonzero =>
      split at read
      next digit =>
        obtain ⟨digits, equality, isDigits, total⟩ :=
          extend_spec greatestSignificand (digitValue char) 0 source
        generalize extend greatestSignificand (digitValue char) 0 source = taken at *
        obtain ⟨noExcess, whole⟩ := readAfterDigits_eq_whole read
        have stops : startsWithDigit taken.2.2 = false := by
          rw [← Bool.not_eq_true, startsWithDigit_iff]
          rintro ⟨next, others, remaining, isDigit⟩
          simp [remaining, isDigit] at noExcess
        rw [skipDigits_eq_self stops] at whole
        obtain ⟨rfl, facts⟩ := wholeNumber_eq_whole whole
        have spelled : Whole (char :: (digits ++ taken.2.2)) _ _ := .digits digit nonzero isDigits
        rw [← equality, Nat.ofDigitChars_cons, Nat.mul_zero, Nat.zero_add] at spelled
        rw [total] at facts
        exact ⟨_, spelled, facts⟩
      next => simp at read

theorem readAfterDigits_of_stops {negative : Bool} {significand : Nat} {rest : List Char}
    (stops : continuesNumber rest = false) :
    readAfterDigits negative significand 0 rest = wholeNumber negative significand rest := by
  cases rest with
  | nil => simp [readAfterDigits]
  | cons char rest =>
      simp only [continuesNumber, Bool.or_eq_false_iff, beq_eq_false_iff_ne] at stops
      obtain ⟨⟨⟨-, noPoint⟩, noLower⟩, noUpper⟩ := stops
      unfold readAfterDigits
      split
      next equality => exact absurd (List.cons.inj equality).1 noPoint
      next equality => exact absurd (List.cons.inj equality).1 noLower
      next equality => exact absurd (List.cons.inj equality).1 noUpper
      next => simp

/-- An integer that fits 64 bits is read to its end. -/
theorem readNumber_of_whole {negative : Bool} {source rest : List Char} {magnitude : Nat}
    (spelled : Whole source magnitude rest) (stops : continuesNumber rest = false)
    (bounded : magnitude ≤ greatestSignificand) :
    readNumber negative source = wholeNumber negative magnitude rest := by
  have noDigit := startsWithDigit_of_stops stops
  cases spelled with
  | zero => simp [readNumber, noDigit, readAfterDigits_of_stops stops]
  | @digits first others rest digit nonzero isDigits =>
      rw [Nat.ofDigitChars_cons, Nat.mul_zero, Nat.zero_add] at bounded ⊢
      simp only [readNumber, nonzero, digit, if_false, if_true]
      rw [show digitValue first = first.toNat - '0'.toNat from rfl,
        extend_append isDigits noDigit bounded]
      simp only [takeWhile_isDigit noDigit, skipDigits_eq_self noDigit, List.length_nil]
      exact readAfterDigits_of_stops stops

theorem digits_of_skipDigits {source rest : List Char} {value : Unit}
    (read : (if startsWithDigit source then Outcome.ok () (skipDigits source)
      else failNext .invalidNumber source) = .ok value rest) : Digits source rest := by
  split at read
  next starts =>
    cases read
    exact digits_skipDigits starts
  next => simp at read

theorem skipExponent_sound {letter : Char} {source rest : List Char} {value : Unit}
    (isLetter : letter = 'e' ∨ letter = 'E') (read : skipExponent source = .ok value rest) :
    Exponent (letter :: source) rest := by
  unfold skipExponent at read
  dsimp only at read
  split at read
  next => exact .exponent isLetter .plus (digits_of_skipDigits read)
  next => exact .exponent isLetter .minus (digits_of_skipDigits read)
  next => exact .exponent isLetter .absent (digits_of_skipDigits read)

theorem skipExponent_complete {letter : Char} {source rest : List Char}
    (exponent : Exponent (letter :: source) rest) (stops : startsWithDigit rest = false) :
    (letter = 'e' ∨ letter = 'E') ∧ skipExponent source = .ok () rest := by
  obtain ⟨isLetter, sign, digits⟩ := exponent
  refine ⟨isLetter, ?_⟩
  have starts := startsWithDigit_of_digits digits
  have skipped := skipDigits_of_digits digits stops
  cases sign with
  | absent =>
      obtain ⟨char, others, rfl, digit⟩ := startsWithDigit_iff.mp starts
      have noPlus := digit_ne digit '+' (by decide)
      have noMinus := digit_ne digit '-' (by decide)
      simp [skipExponent, noPlus, noMinus, starts, skipped]
  | plus => simp [skipExponent, starts, skipped]
  | minus => simp [skipExponent, starts, skipped]

theorem startsWithDigit_of_exponent {source rest : List Char} (exponent : Exponent source rest) :
    startsWithDigit source = false := by
  rcases exponent with ⟨rfl | rfl, -, -⟩
  · rfl
  · rfl

theorem startsWithDigit_of_refinement {source rest : List Char}
    (refinement : Refinement source rest) : startsWithDigit source = false := by
  cases refinement with
  | fraction | both => rfl
  | exponent exponent => exact startsWithDigit_of_exponent exponent

theorem skipAfterFraction_sound {source rest : List Char} {value : Unit}
    (read : skipAfterFraction source = .ok value rest) :
    rest = source ∨ Exponent source rest := by
  unfold skipAfterFraction at read
  split at read
  next => exact .inr (skipExponent_sound (.inl rfl) read)
  next => exact .inr (skipExponent_sound (.inr rfl) read)
  next =>
    cases read
    exact .inl rfl

theorem skipAfterFraction_of_exponent {source rest : List Char} (exponent : Exponent source rest)
    (stops : startsWithDigit rest = false) : skipAfterFraction source = .ok () rest := by
  cases source with
  | nil => cases exponent
  | cons letter source =>
      rcases skipExponent_complete exponent stops with ⟨rfl | rfl, read⟩
      · exact read
      · exact read

theorem skipAfterFraction_of_stops {rest : List Char} (stops : continuesNumber rest = false) :
    skipAfterFraction rest = .ok () rest := by
  cases rest with
  | nil => rfl
  | cons char rest =>
      simp only [continuesNumber, Bool.or_eq_false_iff, beq_eq_false_iff_ne] at stops
      unfold skipAfterFraction
      split
      next equality => exact absurd (List.cons.inj equality).1 stops.1.2
      next equality => exact absurd (List.cons.inj equality).1 stops.2
      next => rfl

theorem skipAfterDigits_sound {source rest : List Char} {value : Unit}
    (read : skipAfterDigits source = .ok value rest) :
    rest = source ∨ Refinement source rest := by
  unfold skipAfterDigits at read
  split at read
  next source =>
    split at read
    next starts =>
      have digits := digits_skipDigits starts
      rcases skipAfterFraction_sound read with rfl | exponent
      · exact .inr (.fraction digits)
      · exact .inr (.both digits exponent)
    next => simp at read
  next =>
    rcases skipAfterFraction_sound read with rfl | exponent
    · exact .inl rfl
    · exact .inr (.exponent exponent)

theorem skipAfterDigits_of_refinement {source rest : List Char}
    (refinement : Refinement source rest) (stops : continuesNumber rest = false) :
    skipAfterDigits source = .ok () rest := by
  have noDigit := startsWithDigit_of_stops stops
  cases refinement with
  | fraction digits =>
      simp only [skipAfterDigits, startsWithDigit_of_digits digits, if_true,
        skipDigits_of_digits digits noDigit]
      exact skipAfterFraction_of_stops stops
  | exponent exponent =>
      have read := skipAfterFraction_of_exponent exponent noDigit
      unfold skipAfterDigits
      split
      next =>
        rcases exponent with ⟨letter | letter, -, -⟩
        all_goals cases letter
      next => exact read
  | both digits exponent =>
      simp only [skipAfterDigits, startsWithDigit_of_digits digits, if_true,
        skipDigits_of_digits digits (startsWithDigit_of_exponent exponent)]
      exact skipAfterFraction_of_exponent exponent noDigit

theorem skipAfterDigits_of_stops {rest : List Char} (stops : continuesNumber rest = false) :
    skipAfterDigits rest = .ok () rest := by
  have read := skipAfterFraction_of_stops stops
  cases rest with
  | nil => rfl
  | cons char rest =>
      simp only [continuesNumber, Bool.or_eq_false_iff, beq_eq_false_iff_ne] at stops
      unfold skipAfterDigits
      split
      next equality => exact absurd (List.cons.inj equality).1 stops.1.1.2
      next => exact read

theorem number_of_skipAfterDigits {negative : Bool} {source middle rest : List Char}
    {magnitude : Nat} {value : Unit} (whole : Whole source magnitude middle)
    (read : skipAfterDigits middle = .ok value rest) :
    ∃ written, Json.Number negative source written rest := by
  rcases skipAfterDigits_sound read with rfl | refinement
  · exact ⟨_, .integer whole⟩
  · exact ⟨_, .real whole refinement⟩

theorem skipNumber_sound {negative : Bool} {source rest : List Char} {value : Unit}
    (read : skipNumber source = .ok value rest) :
    ∃ written, Json.Number negative source written rest := by
  unfold skipNumber at read
  split at read
  next => simp at read
  next char source =>
    split at read
    next zero =>
      subst zero
      split at read
      next => simp at read
      next => exact number_of_skipAfterDigits .zero read
    next nonzero =>
      split at read
      next digit =>
        have split := List.takeWhile_append_dropWhile (p := Char.isDigit) (l := source)
        have isDigits : ∀ digit ∈ source.takeWhile Char.isDigit, digit.isDigit := by
          intro digit member
          exact List.all_eq_true.mp List.all_takeWhile digit member
        have whole : Whole (char :: (_ ++ skipDigits source)) _ _ := .digits digit nonzero isDigits
        rw [skipDigits, split] at whole
        exact number_of_skipAfterDigits whole read
      next => simp at read

theorem skipNumber_of_whole {source middle : List Char} {magnitude : Nat}
    (whole : Whole source magnitude middle) (stops : startsWithDigit middle = false) :
    skipNumber source = skipAfterDigits middle := by
  cases whole with
  | zero => simp [skipNumber, stops]
  | digits digit nonzero isDigits =>
      simp [skipNumber, digit, nonzero, skipDigits_append isDigits stops]

theorem skipNumber_complete {negative : Bool} {source rest : List Char} {written : Written}
    (number : Json.Number negative source written rest) (stops : continuesNumber rest = false) :
    skipNumber source = .ok () rest := by
  cases number with
  | integer whole =>
      rw [skipNumber_of_whole whole (startsWithDigit_of_stops stops)]
      exact skipAfterDigits_of_stops stops
  | real whole refinement =>
      rw [skipNumber_of_whole whole (startsWithDigit_of_refinement refinement)]
      exact skipAfterDigits_of_refinement refinement stops

end TigerTree.Decode
