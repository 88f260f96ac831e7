import TigerTree.Proofs.Decode.Token
import TigerTree.Decode.Bracket

set_option autoImplicit false

/-!
Where readers leave off.

A reader never leaves more of a source than it was given, and a failure points to a place in what
it was given, its end included. The readers of tokens and of whole brackets always give a failure
its place. Only in between can a value be refused without one.
-/

namespace TigerTree.Decode

theorem byteLength_le_of_suffix {rest source : List Char} (suffix : rest <:+ source) :
    byteLength rest ≤ byteLength source := by
  obtain ⟨passed, rfl⟩ := suffix
  simp

section Limits

variable {source rest : List Char} {char : Char} {limit : Nat}

theorem tail_le (le : byteLength (char :: rest) ≤ limit) : byteLength rest ≤ limit :=
  Nat.le_trans (byteLength_le_of_suffix (List.suffix_cons char rest)) le

theorem skipBlanks_le (le : byteLength source ≤ limit) : byteLength (skipBlanks source) ≤ limit :=
  Nat.le_trans (byteLength_le_of_suffix (List.dropWhile_suffix _)) le

theorem skipDigits_le (le : byteLength source ≤ limit) : byteLength (skipDigits source) ≤ limit :=
  Nat.le_trans (byteLength_le_of_suffix (List.dropWhile_suffix _)) le

theorem drop_le {count : Nat} (le : byteLength source ≤ limit) :
    byteLength (source.drop count) ≤ limit :=
  Nat.le_trans (byteLength_le_of_suffix (List.drop_suffix count source)) le

end Limits

namespace Outcome

variable {α β : Type} {limit : Nat} {outcome : Outcome α}

/-- A value or a failure that is not more than `limit` bytes in front of the end. -/
inductive Placed (limit : Nat) : Outcome α → Prop where
  | ok {value : α} {rest : List Char} : byteLength rest ≤ limit → Placed limit (.ok value rest)
  | failed {cause : Cause} {left : Nat} : left ≤ limit → Placed limit (.failed cause left)

/-- The same, or a refusal there, whose place is still to be given. -/
inductive Reached (limit : Nat) : Outcome α → Prop where
  | ok {value : α} {rest : List Char} : byteLength rest ≤ limit → Reached limit (.ok value rest)
  | failed {cause : Cause} {left : Nat} : left ≤ limit → Reached limit (.failed cause left)
  | refused {cause : Cause} {rest : List Char} :
      byteLength rest ≤ limit → Reached limit (.refused cause rest)

theorem Placed.reached (placed : outcome.Placed limit) : outcome.Reached limit := by
  cases placed with
  | ok le => exact .ok le
  | failed le => exact .failed le

theorem Placed.andThen (placed : outcome.Placed limit) {next : α → Reader β}
    (follows : ∀ value ⦃rest⦄, byteLength rest ≤ limit → (next value rest).Placed limit) :
    (outcome.andThen next).Placed limit := by
  cases placed with
  | ok le => exact follows _ le
  | failed le => exact .failed le

theorem Placed.map (placed : outcome.Placed limit) (f : α → β) :
    (outcome.map f).Placed limit := by
  cases placed with
  | ok le => exact .ok le
  | failed le => exact .failed le

theorem Reached.andThen (reached : outcome.Reached limit) {next : α → Reader β}
    (follows : ∀ value ⦃rest⦄, byteLength rest ≤ limit → (next value rest).Reached limit) :
    (outcome.andThen next).Reached limit := by
  cases reached with
  | ok le => exact follows _ le
  | failed le => exact .failed le
  | refused le => exact .refused le

theorem Reached.map (reached : outcome.Reached limit) (f : α → β) :
    (outcome.map f).Reached limit := by
  cases reached with
  | ok le => exact .ok le
  | failed le => exact .failed le
  | refused le => exact .refused le

end Outcome

open Outcome (Placed Reached)

/-- All that is read from a source has its place there. -/
def Places {α : Type} (read : Reader α) : Prop :=
  ∀ ⦃source limit⦄, byteLength source ≤ limit → (read source).Placed limit

/-- The same, but for what is refused. -/
def Reaches {α : Type} (read : Reader α) : Prop :=
  ∀ ⦃source limit⦄, byteLength source ≤ limit → (read source).Reached limit

variable {α β : Type} {limit : Nat} {source rest : List Char}

theorem Places.reaches {read : Reader α} (places : Places read) : Reaches read :=
  fun _ _ le => (places le).reached

theorem placed_failAt {cause : Cause} (le : byteLength rest ≤ limit) :
    (failAt (α := α) cause rest).Placed limit :=
  .failed le

theorem placed_failPast {cause : Cause} {bytes : Nat} (le : byteLength rest ≤ limit) :
    (failPast (α := α) cause rest bytes).Placed limit :=
  .failed (Nat.le_trans (Nat.sub_le _ _) le)

theorem placed_failNext {cause : Cause} (le : byteLength rest ≤ limit) :
    (failNext (α := α) cause rest).Placed limit :=
  placed_failPast le

theorem places_exhausted : Places fun _ => exhausted (α := α) :=
  fun _ _ _ => placed_failAt (Nat.zero_le _)

theorem places_keyword (letters : List Char) : Places (keyword letters) := by
  induction letters with
  | nil => exact fun _ _ le => .ok le
  | cons letter letters inductionHypothesis =>
      intro source limit le
      cases source with
      | nil => exact placed_failAt le
      | cons char rest =>
          rw [keyword]
          split
          · exact inductionHypothesis (tail_le le)
          · exact placed_failNext le

theorem places_colon : Places colon := by
  intro source limit le
  have le := skipBlanks_le le
  unfold colon
  generalize skipBlanks source = front at le
  split
  · exact .ok (tail_le le)
  · exact placed_failNext le
  · exact placed_failNext le

theorem places_codeUnit : Places codeUnit := by
  intro source limit le
  have broken : (if byteLength source < 4 then failAt .endInText []
      else failPast .invalidEscape source 4 : Outcome Nat).Placed limit := by
    split
    · exact placed_failAt (Nat.zero_le _)
    · exact placed_failPast le
  unfold codeUnit
  dsimp only
  split
  · split
    · exact .ok (tail_le (tail_le (tail_le (tail_le le))))
    · exact broken
  · exact broken

theorem places_exactly (expected : Char) (cause : Cause) : Places (exactly expected cause) := by
  intro source limit le
  unfold exactly
  split
  · exact placed_failAt le
  · split
    · exact .ok (tail_le le)
    · exact placed_failNext le

theorem places_unicodeEscape : Places unicodeEscape := by
  intro source limit le
  refine (places_codeUnit le).andThen fun unit rest le => ?_
  split
  · exact placed_failAt le
  split
  · refine (places_exactly '\\' .brokenPair le).andThen fun _ rest le => ?_
    refine (places_exactly 'u' .brokenPair le).andThen fun _ rest le => ?_
    refine (places_codeUnit le).andThen fun second rest le => ?_
    split
    · exact .ok le
    · exact placed_failAt le
  · exact .ok le

theorem places_escape : Places escape := by
  intro source limit le
  unfold escape
  split
  · exact placed_failAt le
  have behind := tail_le le
  split
  · exact .ok behind
  split
  · exact places_unicodeEscape behind
  · exact placed_failNext le

/-- What belongs to an escape is passed over character by character, so the induction is on the
source and not on its parts. -/
theorem places_readChars (taken : List Char) (covered : Nat) :
    Places (readChars taken covered) := by
  intro source limit le
  induction source generalizing taken covered with
  | nil => exact placed_failAt le
  | cons char rest inductionHypothesis =>
      have behind := tail_le le
      cases covered with
      | succ covered => exact inductionHypothesis taken covered behind
      | zero =>
          rw [readChars]
          split
          · exact .ok behind
          split
          · have escaped := places_escape behind
            generalize escape rest = outcome at escaped
            cases escaped with
            | ok => exact inductionHypothesis _ _ behind
            | failed le => exact .failed le
          split
          · exact placed_failNext le
          · exact inductionHypothesis _ _ behind

theorem places_readText : Places readText := places_readChars [] 0

theorem places_skipEscape : Places skipEscape := by
  intro source limit le
  unfold skipEscape
  split
  · exact placed_failAt le
  have behind := tail_le le
  split
  · exact .ok behind
  split
  · exact (places_codeUnit behind).map _
  · exact placed_failNext le

theorem places_skipChars (covered : Nat) : Places (skipChars covered) := by
  intro source limit le
  induction source generalizing covered with
  | nil => exact placed_failAt le
  | cons char rest inductionHypothesis =>
      have behind := tail_le le
      cases covered with
      | succ covered => exact inductionHypothesis covered behind
      | zero =>
          rw [skipChars]
          split
          · exact .ok behind
          split
          · have escaped := places_skipEscape behind
            generalize skipEscape rest = outcome at escaped
            cases escaped with
            | ok => exact inductionHypothesis _ behind
            | failed le => exact .failed le
          split
          · exact placed_failAt le
          · exact inductionHypothesis _ behind

theorem places_skipText : Places skipText := places_skipChars 0

theorem extend_le (digitLimit number count : Nat) (le : byteLength source ≤ limit) :
    byteLength (extend digitLimit number count source).2.2 ≤ limit := by
  induction source generalizing number count with
  | nil => exact le
  | cons char rest inductionHypothesis =>
      rw [extend]
      split
      · exact inductionHypothesis _ _ (tail_le le)
      · exact le

theorem places_realNumber (negative : Bool) (significand : Nat) (exponent : Int) :
    Places (realNumber negative significand exponent) := by
  intro source limit le
  unfold realNumber
  split
  · exact .ok le
  · exact placed_failAt le

theorem places_readExponent (negative : Bool) (significand : Nat) (exponent : Int) :
    Places (readExponent negative significand exponent) := by
  intro source limit le
  unfold readExponent
  split
  next _ down behind signed =>
    have le : byteLength behind ≤ limit := by
      split at signed
      all_goals cases signed
      · exact tail_le le
      · exact tail_le le
      · exact le
    cases behind with
    | nil => exact placed_failAt le
    | cons char rest =>
        have shifted := extend_le greatestExponent (digitValue char) 0 (tail_le le)
        dsimp only
        split
        · generalize extend greatestExponent (digitValue char) 0 rest = shift at shifted
          split
          · split
            · exact .ok (skipDigits_le shifted)
            · exact placed_failAt (drop_le shifted)
          · exact places_realNumber _ _ _ shifted
        · exact placed_failNext le

theorem places_readAfterFraction (negative : Bool) (significand : Nat) (exponent : Int) :
    Places (readAfterFraction negative significand exponent) := by
  intro source limit le
  unfold readAfterFraction
  split
  · exact places_readExponent _ _ _ (tail_le le)
  · exact places_readExponent _ _ _ (tail_le le)
  · exact places_realNumber _ _ _ le

theorem places_readFraction (negative : Bool) (significand : Nat) (exponent : Int) :
    Places (readFraction negative significand exponent) := by
  intro source limit le
  have extended := extend_le greatestSignificand significand 0 le
  unfold readFraction
  split
  · generalize extend greatestSignificand significand 0 source = extension at extended
    exact places_readAfterFraction _ _ _ (skipDigits_le extended)
  split
  · exact placed_failNext le
  · exact placed_failNext le

theorem places_wholeNumber (negative : Bool) (significand : Nat) :
    Places (wholeNumber negative significand) := by
  intro source limit le
  unfold wholeNumber
  split
  · split
    · exact .ok le
    · exact places_realNumber _ _ _ le
  · exact .ok le

theorem places_readAfterDigits (negative : Bool) (significand excess : Nat) :
    Places (readAfterDigits negative significand excess) := by
  intro source limit le
  unfold readAfterDigits
  split
  · exact places_readFraction _ _ _ (tail_le le)
  · exact places_readExponent _ _ _ (tail_le le)
  · exact places_readExponent _ _ _ (tail_le le)
  split
  · exact places_wholeNumber _ _ le
  · exact places_realNumber _ _ _ le

theorem places_readNumber (negative : Bool) : Places (readNumber negative) := by
  intro source limit le
  cases source with
  | nil => exact placed_failAt le
  | cons char rest =>
      have behind := tail_le le
      have extended := extend_le greatestSignificand (digitValue char) 0 behind
      rw [readNumber]
      split
      · split
        · exact placed_failNext behind
        · exact places_readAfterDigits _ _ _ behind
      split
      · generalize extend greatestSignificand (digitValue char) 0 rest = extension at extended
        exact places_readAfterDigits _ _ _ (skipDigits_le extended)
      · exact placed_failNext le

theorem places_skipExponent : Places skipExponent := by
  intro source limit le
  have unsigned {front : List Char} (le : byteLength front ≤ limit) :
      (if startsWithDigit front then .ok () (skipDigits front)
        else failNext .invalidNumber front : Outcome Unit).Placed limit := by
    split
    · exact .ok (skipDigits_le le)
    · exact placed_failNext le
  unfold skipExponent
  split
  · exact unsigned (tail_le le)
  · exact unsigned (tail_le le)
  · exact unsigned le

theorem places_skipAfterFraction : Places skipAfterFraction := by
  intro source limit le
  unfold skipAfterFraction
  split
  · exact places_skipExponent (tail_le le)
  · exact places_skipExponent (tail_le le)
  · exact .ok le

theorem places_skipAfterDigits : Places skipAfterDigits := by
  intro source limit le
  unfold skipAfterDigits
  split
  · have behind := tail_le le
    split
    · exact places_skipAfterFraction (skipDigits_le behind)
    · exact placed_failNext behind
  · exact places_skipAfterFraction le

theorem places_skipNumber : Places skipNumber := by
  intro source limit le
  cases source with
  | nil => exact placed_failNext le
  | cons char rest =>
      have behind := tail_le le
      rw [skipNumber]
      split
      · split
        · exact placed_failNext behind
        · exact places_skipAfterDigits behind
      split
      · exact places_skipAfterDigits (skipDigits_le behind)
      · exact placed_failNext le

theorem places_skipSeparator (closing : Char) (atEnd missing : Cause) (first : Bool) :
    Places (skipSeparator closing atEnd missing first) := by
  intro source limit le
  have le := skipBlanks_le le
  unfold skipSeparator
  generalize skipBlanks source = front at le
  cases front with
  | nil => exact placed_failNext le
  | cons char rest =>
      have behind := tail_le le
      dsimp only
      split
      · exact .ok behind
      split
      · exact .ok le
      split
      · exact .ok behind
      · exact placed_failNext le

theorem places_skipItems {skip : Reader Unit} (places : Places skip) (bound : Nat) (first : Bool) :
    Places (skipItems skip bound first) := by
  intro source limit le
  induction bound generalizing first source with
  | zero => exact places_exhausted le
  | succ bound inductionHypothesis =>
      have separated := places_skipSeparator ']' .endInList .expectedCommaOrBracket first le
      unfold skipItems
      generalize skipSeparator _ _ _ first source = outcome at separated
      cases separated with
      | failed le => exact .failed le
      | @ok more rest le =>
          cases more with
          | false => exact .ok le
          | true =>
              have item := places le
              dsimp only
              generalize skip rest = outcome at item
              cases item with
              | ok le => exact inductionHypothesis false le
              | failed le => exact .failed le

theorem places_skipMember {skip : Reader Unit} (places : Places skip) :
    Places (skipMember skip) := by
  intro source limit le
  have le := skipBlanks_le le
  unfold skipMember
  generalize skipBlanks source = front at le
  split
  · refine (places_skipText (tail_le le)).andThen fun _ rest le => ?_
    exact (places_colon le).andThen fun _ rest le => places le
  · exact placed_failNext le
  · exact placed_failNext le

theorem places_skipMembers {skip : Reader Unit} (places : Places skip) (bound : Nat)
    (first : Bool) : Places (skipMembers skip bound first) := by
  intro source limit le
  induction bound generalizing first source with
  | zero => exact places_exhausted le
  | succ bound inductionHypothesis =>
      have separated := places_skipSeparator '\x7d' .endInObject .expectedCommaOrBrace first le
      unfold skipMembers
      generalize skipSeparator _ _ _ first source = outcome at separated
      cases separated with
      | failed le => exact .failed le
      | @ok more rest le =>
          cases more with
          | false => exact .ok le
          | true =>
              have member := places_skipMember places le
              dsimp only
              generalize skipMember skip rest = outcome at member
              cases member with
              | ok le => exact inductionHypothesis false le
              | failed le => exact .failed le

theorem places_skipValue (bound : Nat) : Places (skipValue bound) := by
  induction bound with
  | zero => exact places_exhausted
  | succ bound inductionHypothesis =>
      intro source limit le
      have le := skipBlanks_le le
      unfold skipValue
      generalize skipBlanks source = front at le
      split
      · exact placed_failNext le
      · exact places_keyword _ (tail_le le)
      · exact places_keyword _ (tail_le le)
      · exact places_keyword _ (tail_le le)
      · exact places_skipText (tail_le le)
      · exact places_skipNumber (tail_le le)
      · exact places_skipItems inductionHypothesis bound true (tail_le le)
      · exact places_skipMembers inductionHypothesis bound true (tail_le le)
      split
      · exact places_skipNumber le
      · exact placed_failNext le

theorem places_mismatch (expectation : String) : Places (mismatch (α := α) expectation) := by
  intro source limit le
  have named {β : Type} {outcome : Outcome β} (placed : outcome.Placed limit)
      (found : β → Found) :
      (outcome.andThen fun value rest =>
        failAt (α := α) (.unexpected (found value) expectation) rest).Placed limit :=
    placed.andThen fun _ _ le => placed_failAt le
  unfold mismatch
  split
  · exact placed_failNext le
  · exact named (places_keyword _ (tail_le le)) fun _ => .null
  · exact named (places_keyword _ (tail_le le)) fun _ => .boolean true
  · exact named (places_keyword _ (tail_le le)) fun _ => .boolean false
  · exact named (places_readNumber true (tail_le le)) Number.found
  · exact named (places_readText (tail_le le)) Found.text
  · exact placed_failAt le
  · exact placed_failAt le
  split
  · exact named (places_readNumber false le) Number.found
  · exact placed_failNext le

theorem places_text : Places text := by
  intro source limit le
  have le := skipBlanks_le le
  unfold text
  generalize skipBlanks source = front at le
  split
  · exact places_readText (tail_le le)
  · exact places_mismatch _ le

theorem places_null (expectation : String) : Places (null expectation) := by
  intro source limit le
  have le := skipBlanks_le le
  unfold null
  generalize skipBlanks source = front at le
  split
  · exact places_keyword _ (tail_le le)
  · exact places_mismatch _ le

theorem places_asInt32 (number : Number) : Places (asInt32 number) := by
  intro source limit le
  unfold asInt32
  split
  · split
    · exact .ok le
    · exact placed_failAt le
  · exact placed_failAt le

theorem places_int32 : Places int32 := by
  intro source limit le
  have le := skipBlanks_le le
  unfold int32
  generalize skipBlanks source = front at le
  split
  · exact (places_readNumber true (tail_le le)).andThen fun number _ le =>
      places_asInt32 number le
  split
  · exact (places_readNumber false le).andThen fun number _ le =>
      places_asInt32 number le
  · exact places_mismatch _ le

theorem reaches_optional {read : Reader α} (reaches : Reaches read) : Reaches (optional read) := by
  intro source limit le
  have le := skipBlanks_le le
  unfold optional
  generalize skipBlanks source = front at le
  split
  · exact ((places_keyword _ (tail_le le)).map _).reached
  · exact (reaches le).map _

end TigerTree.Decode
