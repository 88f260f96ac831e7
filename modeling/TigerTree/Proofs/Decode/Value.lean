import TigerTree.Proofs.Decode.Skip

set_option autoImplicit false

/-!
Values that fields are made of: integers, strings, operators, `null`, and values that may be left
open.
-/

namespace TigerTree.Decode

open Json (Rule Value Whole Written)

variable {α : Type}

/-- Where something else is expected, nothing is accepted. -/
@[simp]
theorem mismatch_ne_ok {expectation : String} {source rest : List Char} {value : α} :
    mismatch expectation source ≠ .ok value rest := by
  unfold mismatch
  repeat' split
  all_goals simp

theorem text_sound : Sound text Rule.text := by
  intro source value rest read
  unfold text at read
  split at read
  next quoted skipped =>
    obtain ⟨pieces, spelled, denotes⟩ := readText_eq_ok_iff.mp read
    exact ⟨.text pieces, by rw [skipped]; exact .text spelled, denotes⟩
  next => simp at read

theorem text_complete (bound : Nat) : CompleteBelow bound text Rule.text := by
  intro source value rest written _ spelled _ rule
  generalize skipped : skipBlanks source = front at spelled
  cases written with
  | text pieces =>
      cases spelled with
      | text spelled =>
          simp only [text, skipped]
          apply readText_eq_ok_iff.mpr
          exact ⟨pieces, spelled, rule⟩
      | number number => cases number
      | negative number => cases number
  | _ => exact rule.elim

theorem operator_sound : Sound (fun source => (text source).map .ofSymbol) Rule.operator := by
  intro source op rest read
  obtain ⟨symbol, readSymbol, rfl⟩ := Outcome.map_eq_ok_iff.mp read
  obtain ⟨written, spelled, rule⟩ := text_sound readSymbol
  refine ⟨written, spelled, ?_⟩
  cases written with
  | text pieces => exact ⟨symbol, rule, rfl⟩
  | _ => exact rule.elim

theorem operator_complete (bound : Nat) :
    CompleteBelow bound (fun source => (text source).map .ofSymbol) Rule.operator := by
  intro source op rest written short spelled ends rule
  cases written with
  | text pieces =>
      obtain ⟨symbol, denotes, rfl⟩ := rule
      have accepted := text_complete bound short spelled ends denotes
      apply Outcome.map_eq_ok_iff.mpr
      exact ⟨symbol, accepted, rfl⟩
  | _ => exact rule.elim

theorem null_sound {expectation : String} : Sound (null expectation) fun _ => Rule.null := by
  intro source value rest read
  unfold null at read
  split at read
  next skipped =>
    rw [keyword_eq_ok_iff] at read
    exact ⟨.null, by rw [skipped, read]; exact .null, trivial⟩
  next => simp at read

theorem null_complete (bound : Nat) {expectation : String} :
    CompleteBelow bound (null expectation) fun _ => Rule.null := by
  intro source value rest written _ spelled _ rule
  generalize skipped : skipBlanks source = front at spelled
  cases written with
  | null =>
      cases spelled with
      | null => simp [null, skipped]
      | number number => cases number
      | negative number => cases number
  | _ => exact rule.elim

theorem optional_sound {read : Reader α} {rule : α → Rule} (sound : Sound read rule) :
    Sound (optional read) fun value => Rule.optional (value.map rule) := by
  intro source value rest accepted
  unfold optional at accepted
  split at accepted
  next skipped =>
    obtain ⟨_, letters, rfl⟩ := Outcome.map_eq_ok_iff.mp accepted
    rw [keyword_eq_ok_iff] at letters
    exact ⟨.null, by rw [skipped, letters]; exact .null, rfl⟩
  next notNull =>
    obtain ⟨content, readContent, rfl⟩ := Outcome.map_eq_ok_iff.mp accepted
    obtain ⟨written, spelled, holds⟩ := sound readContent
    rw [skipBlanks_skipBlanks] at spelled
    refine ⟨written, spelled, ?_, holds⟩
    rintro rfl
    generalize skipped : skipBlanks source = front at spelled notNull
    cases spelled with
    | null => exact notNull _ rfl
    | number number => cases number
    | negative number => cases number

theorem optional_complete {bound : Nat} {read : Reader α} {rule : α → Rule}
    (complete : CompleteBelow bound read rule) :
    CompleteBelow bound (optional read) fun value => Rule.optional (value.map rule) := by
  intro source value rest written short spelled ends holds
  cases value with
  | none =>
      cases holds
      generalize skipped : skipBlanks source = front at spelled
      cases spelled with
      | null => simp [optional, skipped]
      | number number => cases number
      | negative number => cases number
  | some content =>
      have shorter := length_skipBlanks_le source
      have accepted := complete (Nat.lt_of_le_of_lt shorter short)
        (by rwa [skipBlanks_skipBlanks]) ends holds.2
      unfold optional
      split
      next skipped =>
        rw [skipped] at spelled
        cases spelled with
        | null => exact absurd rfl holds.1
        | number number =>
            obtain ⟨char, tail, equality, digit⟩ := number_opens number
            cases equality
            exact absurd digit (by decide)
      next =>
        apply Outcome.map_eq_ok_iff.mpr
        exact ⟨content, accepted, rfl⟩

theorem isInt32_iff {value : Int} :
    isInt32 value = true ↔ -0x80000000 ≤ value ∧ value < 0x80000000 := by
  simp [isInt32]

theorem asInt32_eq_ok {number : Number} {rest rest' : List Char} {value : Int32}
    (read : asInt32 number rest = .ok value rest') :
    number = .whole value.toInt ∧ rest = rest' := by
  unfold asInt32 at read
  split at read
  next whole =>
    split at read
    next fits =>
      rw [isInt32_iff] at fits
      cases read
      rw [Int32.toInt_ofInt_of_le fits.1 fits.2]
      exact ⟨rfl, rfl⟩
    next => simp at read
  next => simp at read

theorem asInt32_whole {value : Int32} {rest : List Char} :
    asInt32 (.whole value.toInt) rest = .ok value rest := by
  have fits := isInt32_iff.mpr ⟨value.le_toInt, value.toInt_lt⟩
  simp [asInt32, fits]

theorem int32_rule {negative : Bool} {magnitude : Nat} {value : Int32} :
    Rule.int32 value (.integer negative magnitude) ↔
      (negative = true → magnitude ≠ 0) ∧
        value.toInt = if negative then -(magnitude : Int) else magnitude := by
  cases negative <;> simp [Rule.int32]

theorem signed_sound {negative : Bool} {source rest : List Char} {value : Int32}
    (read : (readNumber negative source).andThen asInt32 = .ok value rest) :
    ∃ magnitude, Whole source magnitude rest ∧ Rule.int32 value (.integer negative magnitude) := by
  obtain ⟨number, middle, readNumber, fits⟩ := Outcome.andThen_eq_ok_iff.mp read
  obtain ⟨rfl, rfl⟩ := asInt32_eq_ok fits
  obtain ⟨magnitude, whole, facts⟩ := readNumber_eq_whole readNumber
  exact ⟨magnitude, whole, int32_rule.mpr facts⟩

theorem signed_complete {negative : Bool} {source rest : List Char} {magnitude : Nat}
    {value : Int32} (whole : Whole source magnitude rest) (stops : continuesNumber rest = false)
    (rule : Rule.int32 value (.integer negative magnitude)) :
    (readNumber negative source).andThen asInt32 = .ok value rest := by
  have low := value.le_toInt
  have high := value.toInt_lt
  obtain ⟨nonzero, equality⟩ := int32_rule.mp rule
  have bounded : magnitude ≤ 2 ^ 31 := by
    cases negative
    all_goals
      simp only [Bool.false_eq_true, if_true, if_false] at equality
      omega
  have read : readNumber negative source = .ok (.whole value.toInt) rest := by
    rw [readNumber_of_whole whole stops (Nat.le_trans bounded (by decide)), equality]
    cases negative with
    | false => simp only [wholeNumber, Bool.false_eq_true, if_false]
    | true =>
        have positive := Nat.pos_of_ne_zero (nonzero rfl)
        have fits : magnitude ≤ 0x8000000000000000 := Nat.le_trans bounded (by decide)
        simp only [wholeNumber, if_true, if_pos (And.intro positive fits)]
  apply Outcome.andThen_eq_ok_iff.mpr
  exact ⟨_, _, read, asInt32_whole⟩

theorem int32_sound : Sound int32 Rule.int32 := by
  intro source value rest read
  unfold int32 at read
  split at read
  next skipped =>
    obtain ⟨magnitude, whole, rule⟩ := signed_sound read
    exact ⟨.integer true magnitude, by rw [skipped]; exact .negative (.integer whole), rule⟩
  next =>
    split at read
    next =>
      obtain ⟨magnitude, whole, rule⟩ := signed_sound read
      exact ⟨.integer false magnitude, .number (.integer whole), rule⟩
    next => simp at read

theorem int32_complete (bound : Nat) : CompleteBelow bound int32 Rule.int32 := by
  intro source value rest written _ spelled ends rule
  generalize skipped : skipBlanks source = front at spelled
  cases written with
  | integer negative magnitude =>
      cases spelled with
      | number number =>
          cases number with
          | integer whole =>
              obtain ⟨char, tail, rfl, digit⟩ := whole_opens whole
              have noMinus := digit_ne digit '-' (by decide)
              have starts : startsWithDigit (char :: tail) = true := digit
              simp only [int32, skipped]
              split
              next equality => exact absurd (List.cons.inj equality).1 noMinus
              next =>
                rw [if_pos starts]
                exact signed_complete whole ends rule
      | negative number =>
          cases number with
          | integer whole =>
              simp only [int32, skipped]
              exact signed_complete whole ends rule
  | _ => exact rule.elim

end TigerTree.Decode
