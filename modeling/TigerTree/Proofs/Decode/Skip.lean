import TigerTree.Proofs.Decode.Number
import TigerTree.Proofs.Decode.Text

set_option autoImplicit false

/-!
Values that are passed over.

A reader is sound for a rule if whatever it accepts is spelled at the front of its source, and
complete if it accepts whatever is spelled there. Completeness is asked for below a bound on the
length of the source, since readers that recur get a bound on their work.
-/

namespace TigerTree.Decode

open Json (Blanks Items Member Members Piece Rule Separator Value Written)

section Readers

variable {α : Type}

/-- What a reader accepts is spelled in front of what it leaves. -/
def Sound (read : Reader α) (rule : α → Rule) : Prop :=
  ∀ ⦃source value rest⦄, read source = .ok value rest →
    ∃ written, Value (skipBlanks source) written rest ∧ rule value written

/-- What is spelled at the front of a short source is accepted. -/
def CompleteBelow (bound : Nat) (read : Reader α) (rule : α → Rule) : Prop :=
  ∀ ⦃source value rest written⦄, source.length < bound → Value (skipBlanks source) written rest →
    EndsAt written rest → rule value written → read source = .ok value rest

/-- Any value at all. -/
def anything : Unit → Rule := fun _ _ => True

end Readers

theorem length_skipBlanks_le (source : List Char) : (skipBlanks source).length ≤ source.length :=
  (blanks_skipBlanks source).length_le

theorem continuesNumber_of_blanks {source rest : List Char} (blanks : Blanks source rest)
    (stops : continuesNumber rest = false) : continuesNumber source = false := by
  cases blanks with
  | done => exact stops
  | blank blank =>
      simp only [Json.blankChars, List.mem_cons, List.not_mem_nil, or_false] at blank
      rcases blank with rfl | rfl | rfl | rfl
      all_goals rfl

/-- Nothing that follows an item continues a number. -/
theorem items_stop {source rest : List Char} {items : List Written}
    (spelled : Items false source items rest) : continuesNumber source = false := by
  cases spelled with
  | close blanks => exact continuesNumber_of_blanks blanks rfl
  | item separator =>
      cases separator with
      | comma blanks => exact continuesNumber_of_blanks blanks rfl

theorem members_stop {source rest : List Char} {members : List (List Piece × Written)}
    (spelled : Members false source members rest) : continuesNumber source = false := by
  cases spelled with
  | close blanks => exact continuesNumber_of_blanks blanks rfl
  | member separator =>
      cases separator with
      | comma blanks => exact continuesNumber_of_blanks blanks rfl

theorem skipSeparator_eq_false_iff {closing : Char} {atEnd missing : Cause} {first : Bool}
    {source rest : List Char} (solid : isBlank closing = false) :
    skipSeparator closing atEnd missing first source = .ok false rest ↔
      Blanks source (closing :: rest) := by
  constructor
  · intro read
    unfold skipSeparator at read
    split at read
    next => simp at read
    next char rest' skipped =>
      split at read
      next same =>
        cases read
        subst same
        exact blanks_of_skipBlanks_eq skipped
      next =>
        split at read
        next => simp at read
        next =>
          split at read <;> simp at read
  · intro blanks
    simp [skipSeparator, skipBlanks_eq_cons blanks solid]

theorem skipSeparator_eq_true {closing : Char} {atEnd missing : Cause} {first : Bool}
    {source rest : List Char}
    (read : skipSeparator closing atEnd missing first source = .ok true rest) :
    ∃ start, Separator first source start ∧ skipBlanks start = skipBlanks rest := by
  unfold skipSeparator at read
  split at read
  next => simp at read
  next char rest' skipped =>
    split at read
    next => simp at read
    next =>
      split at read
      next isFirst =>
        cases read
        subst isFirst
        refine ⟨source, .opening, ?_⟩
        exact skipBlanks_of_blanks (blanks_of_skipBlanks_eq skipped)
      next notFirst =>
        split at read
        next comma =>
          cases read
          subst comma
          rw [Bool.not_eq_true] at notFirst
          subst notFirst
          exact ⟨rest, .comma (blanks_of_skipBlanks_eq skipped), rfl⟩
        next => simp at read

theorem skipSeparator_complete (closing : Char) (atEnd missing : Cause) {first : Bool}
    {source start tail : List Char} {char : Char}
    (separator : Separator first source start) (blanks : Blanks start (char :: tail))
    (opens : opensValue char = true) (closes : opensValue closing = false)
    (noComma : closing ≠ ',') :
    ∃ rest, skipSeparator closing atEnd missing first source = .ok true rest ∧
      skipBlanks rest = char :: tail ∧ rest.length ≤ start.length := by
  have solid := solid_of_opensValue opens
  cases separator with
  | opening =>
      refine ⟨char :: tail, ?_, skipBlanks_cons solid, blanks.length_le⟩
      simp [skipSeparator, skipBlanks_eq_cons blanks solid, opensValue_ne opens closing closes]
  | comma comma =>
      refine ⟨start, ?_, skipBlanks_eq_cons blanks solid, Nat.le_refl _⟩
      simp [skipSeparator, skipBlanks_eq_cons comma (by decide), noComma.symm]

theorem skipItems_sound {skip : Reader Unit} (sound : Sound skip anything) {bound : Nat}
    {first : Bool} {source rest : List Char} {value : Unit}
    (read : skipItems skip bound first source = .ok value rest) :
    ∃ items, Items first source items rest := by
  induction bound generalizing first source with
  | zero => simp [skipItems, exhausted] at read
  | succ bound inductionHypothesis =>
      unfold skipItems at read
      split at read
      next rest' separated =>
        cases read
        exact ⟨[], .close ((skipSeparator_eq_false_iff (by decide)).mp separated)⟩
      next start separated =>
        obtain ⟨start', separator, skipped⟩ := skipSeparator_eq_true separated
        split at read
        next middle item =>
          obtain ⟨written, spelled, -⟩ := sound item
          obtain ⟨items, more⟩ := inductionHypothesis read
          rw [← skipped] at spelled
          exact ⟨written :: items, .item separator (blanks_skipBlanks start') spelled more⟩
        next => simp at read
        next => simp at read
      next => simp at read
      next => simp at read

theorem skipItems_complete {skip : Reader Unit} {limit : Nat}
    (complete : CompleteBelow limit skip anything) {bound : Nat} {first : Bool}
    {source rest : List Char} {items : List Written} (short : source.length < bound)
    (within : source.length < limit) (spelled : Items first source items rest) :
    skipItems skip bound first source = .ok () rest := by
  induction bound generalizing first source items with
  | zero => simp at short
  | succ bound inductionHypothesis =>
      cases spelled with
      | close blanks => simp [skipItems, (skipSeparator_eq_false_iff (by decide)).mpr blanks]
      | item separator blanks value more =>
          obtain ⟨char, tail, rfl, opens⟩ := value_opens value
          obtain ⟨start, separated, skipped, shorter⟩ := skipSeparator_complete ']' .endInList
            .expectedCommaOrBracket separator blanks opens (by decide) (by decide)
          have consumed := separator.length_le
          have remaining := value.length_lt
          have covered := blanks.length_le
          have item : skip start = .ok () _ :=
            complete (by omega) (skipped ▸ value) (endsAt_of_not_continues (items_stop more))
              trivial
          simp only [skipItems, separated, item]
          exact inductionHypothesis (by omega) (by omega) more

theorem skipMember_sound {skip : Reader Unit} (sound : Sound skip anything)
    {source rest : List Char} {value : Unit} (read : skipMember skip source = .ok value rest) :
    ∃ member, Member (skipBlanks source) member rest := by
  unfold skipMember at read
  split at read
  next quoted skipped =>
    simp only [Outcome.andThen_eq_ok_iff, colon_eq_ok_iff] at read
    obtain ⟨_, afterKey, key, _, start, colon, item⟩ := read
    obtain ⟨pieces, named⟩ := skipText_sound key
    obtain ⟨written, spelled, -⟩ := sound item
    rw [skipped]
    exact ⟨(pieces, written), .pair named colon (blanks_skipBlanks start) spelled⟩
  next => simp at read
  next => simp at read

theorem skipMember_complete {skip : Reader Unit} {limit : Nat}
    (complete : CompleteBelow limit skip anything) {source rest : List Char}
    {member : List Piece × Written} (within : source.length < limit)
    (spelled : Member (skipBlanks source) member rest) (stops : continuesNumber rest = false) :
    skipMember skip source = .ok () rest := by
  have shorter := length_skipBlanks_le source
  generalize skipped : skipBlanks source = front at spelled shorter
  cases spelled with
  | pair key colon blanks value =>
      have named := key.length_lt
      have parted := colon.length_le
      simp only [List.length_cons] at parted shorter
      simp only [skipMember, skipped, skipText_complete key, Outcome.andThen,
        colon_of_blanks colon]
      exact complete (by omega) ((skipBlanks_eq_of_value blanks value).symm ▸ value)
        (endsAt_of_not_continues stops) trivial

theorem skipMembers_sound {skip : Reader Unit} (sound : Sound skip anything) {bound : Nat}
    {first : Bool} {source rest : List Char} {value : Unit}
    (read : skipMembers skip bound first source = .ok value rest) :
    ∃ members, Members first source members rest := by
  induction bound generalizing first source with
  | zero => simp [skipMembers, exhausted] at read
  | succ bound inductionHypothesis =>
      unfold skipMembers at read
      split at read
      next rest' separated =>
        cases read
        exact ⟨[], .close ((skipSeparator_eq_false_iff (by decide)).mp separated)⟩
      next start separated =>
        obtain ⟨start', separator, skipped⟩ := skipSeparator_eq_true separated
        split at read
        next middle member =>
          obtain ⟨written, spelled⟩ := skipMember_sound sound member
          obtain ⟨members, more⟩ := inductionHypothesis read
          rw [← skipped] at spelled
          exact ⟨written :: members, .member separator (blanks_skipBlanks start') spelled more⟩
        next => simp at read
        next => simp at read
      next => simp at read
      next => simp at read

theorem skipMembers_complete {skip : Reader Unit} {limit : Nat}
    (complete : CompleteBelow limit skip anything) {bound : Nat} {first : Bool}
    {source rest : List Char} {members : List (List Piece × Written)}
    (short : source.length < bound) (within : source.length < limit)
    (spelled : Members first source members rest) :
    skipMembers skip bound first source = .ok () rest := by
  induction bound generalizing first source members with
  | zero => simp at short
  | succ bound inductionHypothesis =>
      cases spelled with
      | close blanks => simp [skipMembers, (skipSeparator_eq_false_iff (by decide)).mpr blanks]
      | member separator blanks member more =>
          obtain ⟨tail, rfl⟩ := member_opens member
          obtain ⟨start, separated, skipped, shorter⟩ := skipSeparator_complete '\x7d' .endInObject
            .expectedCommaOrBrace separator blanks (by decide) (by decide) (by decide)
          have consumed := separator.length_le
          have remaining := member.length_lt
          have covered := blanks.length_le
          have read := skipMember_complete complete (by omega) (skipped.symm ▸ member)
            (members_stop more)
          simp only [skipMembers, separated, read]
          exact inductionHypothesis (by omega) (by omega) more

theorem skipValue_sound (bound : Nat) : Sound (skipValue bound) anything := by
  induction bound with
  | zero =>
      intro source value rest read
      simp [skipValue, exhausted] at read
  | succ bound inductionHypothesis =>
      intro source value rest read
      unfold skipValue at read
      split at read
      next => simp at read
      next skipped =>
        rw [keyword_eq_ok_iff] at read
        exact ⟨.null, by rw [skipped, read]; exact .null, trivial⟩
      next skipped =>
        rw [keyword_eq_ok_iff] at read
        exact ⟨.boolean true, by rw [skipped, read]; exact .true, trivial⟩
      next skipped =>
        rw [keyword_eq_ok_iff] at read
        exact ⟨.boolean false, by rw [skipped, read]; exact .false, trivial⟩
      next skipped =>
        obtain ⟨pieces, spelled⟩ := skipText_sound read
        exact ⟨.text pieces, by rw [skipped]; exact .text spelled, trivial⟩
      next skipped =>
        obtain ⟨written, number⟩ := skipNumber_sound read
        exact ⟨written, by rw [skipped]; exact .negative number, trivial⟩
      next skipped =>
        obtain ⟨items, spelled⟩ := skipItems_sound inductionHypothesis read
        exact ⟨.array items, by rw [skipped]; exact .array spelled, trivial⟩
      next skipped =>
        obtain ⟨members, spelled⟩ := skipMembers_sound inductionHypothesis read
        exact ⟨.object members, by rw [skipped]; exact .object spelled, trivial⟩
      next skipped =>
        split at read
        next =>
          obtain ⟨written, number⟩ := skipNumber_sound read
          exact ⟨written, by rw [skipped]; exact .number number, trivial⟩
        next => simp at read

theorem skipValue_complete (bound : Nat) : CompleteBelow bound (skipValue bound) anything := by
  induction bound with
  | zero =>
      intro source value rest written short
      simp at short
  | succ bound inductionHypothesis =>
      intro source value rest written short spelled ends _
      have shorter := length_skipBlanks_le source
      generalize skipped : skipBlanks source = front at spelled shorter
      cases spelled with
      | null => simp [skipValue, skipped]
      | true => simp [skipValue, skipped]
      | false => simp [skipValue, skipped]
      | number number =>
          have read := skipNumber_complete number (stops_of_endsAt number ends)
          obtain ⟨char, tail, rfl, digit⟩ := number_opens number
          have other := digit_ne digit
          simp [skipValue, skipped, other 'n', other 't', other 'f', other '"', other '-',
            other '[', other '\x7b', digit, read]
      | negative number =>
          simp only [skipValue, skipped]
          exact skipNumber_complete number (stops_of_endsAt number ends)
      | text spelled =>
          simp only [skipValue, skipped]
          exact skipText_complete spelled
      | array items =>
          simp only [skipValue, skipped]
          simp only [List.length_cons] at shorter
          exact skipItems_complete inductionHypothesis (by omega) (by omega) items
      | object members =>
          simp only [skipValue, skipped]
          simp only [List.length_cons] at shorter
          exact skipMembers_complete inductionHypothesis (by omega) (by omega) members

end TigerTree.Decode
