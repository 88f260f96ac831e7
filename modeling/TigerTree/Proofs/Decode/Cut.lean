import TigerTree.Proofs.Decode.Payload
import TigerTree.Proofs.Json.Cut

set_option autoImplicit false

/-!
Readers at the end of a source that is cut short.

What has been written is cut somewhere, and a reader gets what stands in front of the cut. It
either fails because the source has ended, or has read a number that would have gone on. Then
whoever reads on fails for that reason, for only a bracket or a comma can follow a number.
-/

namespace TigerTree.Decode

open Json (Blanks Separator Value writeChars writeItems writeMembers writeText)

namespace Outcome

variable {α β : Type}

/-- A failure because the source has ended. -/
inductive Truncated : Outcome α → Prop where
  | failed {cause : Cause} {left : Nat} :
      cause.category = .truncated → Truncated (.failed cause left)

/-- A failure because the source has ended, or a value that goes up to the end. -/
inductive Starved : Outcome α → Prop where
  | failed {cause : Cause} {left : Nat} : cause.category = .truncated → Starved (.failed cause left)
  | ok {value : α} : Starved (.ok value [])

variable {outcome : Outcome α}

theorem Truncated.starved (truncated : outcome.Truncated) : outcome.Starved := by
  obtain ⟨ended⟩ := truncated
  exact .failed ended

theorem Truncated.andThen (truncated : outcome.Truncated) (next : α → Reader β) :
    (outcome.andThen next).Truncated := by
  obtain ⟨ended⟩ := truncated
  exact .failed ended

theorem Truncated.map (truncated : outcome.Truncated) (f : α → β) :
    (outcome.map f).Truncated := by
  obtain ⟨ended⟩ := truncated
  exact .failed ended

theorem Truncated.close (truncated : outcome.Truncated) (finish : Reader Unit)
    (settle : List Char → List Char) : (outcome.close finish settle).Truncated := by
  obtain ⟨ended⟩ := truncated
  exact .failed ended

theorem Starved.map (starved : outcome.Starved) (f : α → β) : (outcome.map f).Starved := by
  cases starved with
  | failed ended => exact .failed ended
  | ok => exact .ok

theorem Starved.andThen (starved : outcome.Starved) {next : α → Reader β}
    (ended : ∀ value, (next value []).Truncated) : (outcome.andThen next).Truncated := by
  cases starved with
  | failed ended => exact .failed ended
  | ok => exact ended _

end Outcome

open Outcome (Truncated Starved)

variable {α : Type}

theorem mismatch_nil (expectation : String) : (mismatch (α := α) expectation []).Truncated :=
  .failed rfl

theorem keyword_cut {front letters : List Char} (cut : Cut front letters) :
    (keyword letters front).Truncated := by
  induction cut with
  | start => exact .failed rfl
  | cons _ inductionHypothesis =>
      rw [keyword, if_pos rfl]
      exact inductionHypothesis

theorem byteLength_eq_length {chars : List Char} (single : ∀ char ∈ chars, char.utf8Size = 1) :
    byteLength chars = chars.length := by
  induction chars with
  | nil => rfl
  | cons char chars inductionHypothesis =>
      rw [List.forall_mem_cons] at single
      rw [byteLength_cons, inductionHypothesis single.2, single.1, List.length_cons, Nat.add_comm]

theorem codeUnit_cut {a b c d : Char} (single : ∀ char ∈ [a, b, c, d], char.utf8Size = 1)
    {front : List Char} (cut : Cut front [a, b, c, d]) : (codeUnit front).Truncated := by
  obtain ⟨isPrefix, proper⟩ := cut_iff.mp cut
  have shorter : front.length < 4 := by
    have le := isPrefix.length_le
    have ne : front.length ≠ 4 := fun same => proper (isPrefix.eq_of_length same)
    simp only [List.length_cons, List.length_nil] at le
    omega
  have short : byteLength front < 4 := by
    rwa [byteLength_eq_length fun char mem => single char (isPrefix.subset mem)]
  simp only [codeUnit, short, if_true]
  split
  next =>
    simp only [List.length_cons] at shorter
    omega
  next => exact .failed rfl

theorem utf8Size_hexDigit (value : Nat) : (Json.hexDigit value).utf8Size = 1 := by
  have table : ∀ digit < 16, (Nat.digitChar digit).utf8Size = 1 := by decide
  exact table _ (Nat.mod_lt _ (by decide))

theorem readChars_of_escape {taken source : List Char} (truncated : (escape source).Truncated) :
    (readChars taken 0 ('\\' :: source)).Truncated := by
  simp only [readChars, if_true, show ¬ '\\' = '"' by decide, if_false]
  generalize escape source = outcome at truncated
  obtain ⟨ended⟩ := truncated
  exact .failed ended

theorem readChars_escaped (taken : List Char) (char : Char) (rest : List Char) :
    readChars taken 0 (Json.escaped char ++ rest) = readChars (char :: taken) 0 rest := by
  rcases Json.escaped_cases char with ⟨letter, named, written⟩ | ⟨control, written⟩ |
    ⟨notQuote, notBackslash, plain, written⟩
  all_goals rw [written]
  · exact readChars_escape (escape_letter named)
  · have read := escape_unit (Json.codeUnit_control control rest) (by omega)
    rw [Char.ofNat_toNat] at read
    exact readChars_escape read
  · simp only [List.singleton_append, readChars, notQuote, notBackslash, Nat.not_lt.mpr plain,
      if_false]

theorem readChars_escaped_cut (taken : List Char) {char : Char} {front : List Char}
    (cut : Cut front (Json.escaped char)) : (readChars taken 0 front).Truncated := by
  rcases Json.escaped_cases char with ⟨letter, named, written⟩ | ⟨control, written⟩ |
    ⟨notQuote, notBackslash, plain, written⟩
  all_goals rw [written] at cut
  · rcases cut with _ | _ | ⟨⟨⟩⟩
    · exact .failed rfl
    · exact readChars_of_escape (.failed rfl)
  · rcases cut with _ | _ | digits
    · exact .failed rfl
    · exact readChars_of_escape (.failed rfl)
    have single : ∀ digit ∈ ['0', '0', Json.hexDigit (char.toNat / 16), Json.hexDigit char.toNat],
        digit.utf8Size = 1 := by
      simp [utf8Size_hexDigit, show '0'.utf8Size = 1 by decide]
    exact readChars_of_escape ((codeUnit_cut single digits).andThen _)
  · rcases cut with _ | ⟨⟨⟩⟩
    exact .failed rfl

theorem readChars_cut {taken chars front : List Char} (cut : Cut front (writeChars chars ['"'])) :
    (readChars taken 0 front).Truncated := by
  induction chars generalizing taken front with
  | nil =>
      rcases cut with _ | ⟨⟨⟩⟩
      exact .failed rfl
  | cons char chars inductionHypothesis =>
      rcases cut_append cut with within | ⟨more, rfl, behind⟩
      · exact readChars_escaped_cut taken within
      · rw [readChars_escaped]
        exact inductionHypothesis behind

theorem readText_write (text : String) (rest : List Char) :
    readText (writeChars text.toList ('"' :: rest)) = .ok text rest :=
  readText_eq_ok_iff.mpr ⟨_, Json.pieces_writeChars text.toList rest, Json.denotes_pieces text⟩

/-- A cut in front of which a string begins falls into the string, or behind it. -/
theorem readText_cut {value : String} {front after : List Char}
    (cut : Cut front (writeChars value.toList ('"' :: after))) :
    (readText front).Truncated ∨ ∃ more, readText front = .ok value more ∧ Cut more after := by
  rcases Json.cut_writeChars cut with within | ⟨more, rfl, behind⟩
  · exact .inl (readChars_cut within)
  · exact .inr ⟨more, readText_write value more, behind⟩

theorem text_cut {value : String} {front : List Char} (cut : Cut front (writeText value [])) :
    (text front).Truncated := by
  rcases cut with _ | cut
  · exact mismatch_nil "a string"
  · rcases readText_cut cut with truncated | ⟨more, -, ⟨⟩⟩
    exact truncated

/-- What is left of a number is nothing, a sign, or a number of fewer digits. -/
theorem cut_decimal {value : Int32} {front : List Char} (cut : Cut front (decimal value.toInt)) :
    front = [] ∨ front = ['-'] ∨ ∃ lesser : Int32, front = decimal lesser.toInt := by
  have low := value.le_toInt
  have high := value.toInt_lt
  unfold decimal at cut
  split at cut
  next negative =>
    rcases cut with _ | @⟨_, digits, _, cut⟩
    · exact .inl rfl
    by_cases none : digits = []
    · exact .inr (.inl (congrArg _ none))
    obtain ⟨smaller, le, rfl, nonzero⟩ := Json.exists_of_prefix_toDigits (cut_iff.mp cut).1 none
    have positive := nonzero (by omega)
    refine .inr (.inr ⟨.ofInt (-smaller), ?_⟩)
    rw [Int32.toInt_ofInt_of_le (by omega) (by omega), decimal, if_pos (by omega),
      Int.natAbs_neg, Int.natAbs_natCast]
  next positive =>
    by_cases none : front = []
    · exact .inl none
    obtain ⟨smaller, le, rfl, -⟩ := Json.exists_of_prefix_toDigits (cut_iff.mp cut).1 none
    refine .inr (.inr ⟨.ofInt smaller, ?_⟩)
    rw [Int32.toInt_ofInt_of_le (by omega) (by omega), decimal, if_neg (by omega),
      Int.natAbs_natCast]

theorem int32_decimal (value : Int32) : int32 (decimal value.toInt) = .ok value [] := by
  have spelled := Json.value_decimal value.toInt []
  rw [List.append_nil] at spelled
  exact int32_complete _ (Nat.lt_succ_self _)
    ((skipBlanks_eq_of_value .done spelled).symm ▸ spelled) (endsAt_of_not_continues rfl)
    (Json.int32_written value)

theorem int32_cut {value : Int32} {front : List Char}
    (cut : Cut front ((Json.number value.toInt).write [])) : (int32 front).Starved := by
  rw [Json.write, List.append_nil] at cut
  rcases cut_decimal cut with rfl | rfl | ⟨lesser, rfl⟩
  · exact .failed rfl
  · exact .failed rfl
  · rw [int32_decimal]
    exact .ok

/-- The reader takes the value in front of other text, and finds an end where it is cut. -/
structure Takes (limit : Nat) (read : Reader α) (value : Json) : Prop where
  whole {more : List Char} : (value.write more).length < limit → continuesNumber more = false →
    ∃ content, read (value.write more) = .ok content more
  cut {front : List Char} : front.length < limit → Cut front (value.write []) →
    (read front).Starved

theorem Takes.map {β : Type} {limit : Nat} {read : Reader α} {value : Json}
    (takes : Takes limit read value) (f : α → β) :
    Takes limit (fun source => (read source).map f) value where
  whole short stops := by
    obtain ⟨content, accepted⟩ := takes.whole short stops
    exact ⟨f content, Outcome.map_eq_ok_iff.mpr ⟨content, accepted, rfl⟩⟩
  cut short cut := (takes.cut short cut).map f

theorem opens_of_cut {value : Json} {char : Char} {front rest : List Char}
    (cut : Cut (char :: front) (value.write rest)) : opensValue char = true := by
  obtain ⟨first, tail, equality, opens⟩ := value_opens (Json.value_write rest value)
  rw [equality] at cut
  cases cut
  exact opens

theorem stops_of_cut {front text : List Char} (cut : Cut front text)
    (stops : continuesNumber text = false) : continuesNumber front = false := by
  cases cut with
  | start => rfl
  | cons => exact stops

theorem eq_null_of_cut {value : Json} {front rest : List Char}
    (cut : Cut ('n' :: front) (value.write rest)) : value = .null := by
  have spelled := Json.value_write rest value
  generalize written : value.toWritten = shown at spelled
  generalize value.write rest = source at cut spelled
  cases cut with
  | cons =>
      cases spelled with
      | null =>
          cases value with
          | null => rfl
          | _ => cases written
      | number number =>
          obtain ⟨char, tail, opened, digit⟩ := number_opens number
          cases opened
          exact absurd digit (by decide)

theorem null_cut {expectation : String} {front : List Char} (cut : Cut front (Json.null.write [])) :
    (null expectation front).Truncated := by
  rcases cut with _ | cut
  · exact mismatch_nil expectation
  · exact keyword_cut cut

theorem optional_cut {read : Reader α} {value : Json} {front : List Char}
    (cut : Cut front (value.write [])) (starved : value ≠ .null → (read front).Starved)
    (ended : (read []).Starved) : (optional read front).Starved := by
  cases front with
  | nil => exact ended.map some
  | cons char front =>
      have skipped : skipBlanks (char :: front) = char :: front :=
        skipBlanks_cons (solid_of_opensValue (opens_of_cut cut))
      unfold optional
      split
      next front' isNull =>
        rw [skipped] at isNull
        cases isNull
        obtain rfl := eq_null_of_cut cut
        cases cut with
        | cons cut => exact ((keyword_cut cut).map _).starved
      next other =>
        rw [skipped] at other ⊢
        refine (starved ?_).map some
        rintro rfl
        cases cut with
        | cons cut => exact other _ rfl

theorem colon_cons (rest : List Char) : colon (':' :: rest) = .ok () rest :=
  colon_eq_ok_iff.mpr .done

theorem colon_cut {next : Unit → Reader α} {text front : List Char} (cut : Cut front (':' :: text))
    (starved : ∀ {start}, front = ':' :: start → Cut start text → (next () start).Starved) :
    ((colon front).andThen next).Starved := by
  cases cut with
  | start => exact .failed rfl
  | cons cut =>
      rw [colon_cons]
      exact starved rfl cut

/-- A cut before an item falls in front of its text or into it. -/
theorem cut_writeItems {first : Bool} {item : Json} {items : List Json} {front rest : List Char}
    (cut : Cut front (writeItems first (item :: items) rest)) :
    front = [] ∨ ∃ start, Separator first front start ∧
      Cut start (item.write (writeItems false items rest)) := by
  cases first with
  | true => exact .inr ⟨front, .opening, cut⟩
  | false =>
      cases cut with
      | start => exact .inl rfl
      | cons cut => exact .inr ⟨_, .comma .done, cut⟩

theorem nextElement_nil (first : Bool) : (nextElement first []).Truncated := .failed rfl

theorem nextElement_ended {first : Bool} {source : List Char}
    (separator : Separator first source []) : (nextElement first source).Truncated := by
  cases separator with
  | opening => exact nextElement_nil true
  | comma comma =>
      simp only [nextElement, skipBlanks_eq_cons comma (by decide)]
      exact .failed rfl

theorem elements_of_truncated {read : Reader α} {bound : Nat} {taken : List α}
    {source : List Char} (truncated : (nextElement taken.isEmpty source).Truncated) :
    (elements read (bound + 1) taken source).Truncated := by
  unfold elements
  generalize nextElement taken.isEmpty source = outcome at truncated
  obtain ⟨ended⟩ := truncated
  exact .failed ended

theorem elements_nil (read : Reader α) (bound : Nat) (taken : List α) :
    (elements read bound taken []).Truncated := by
  cases bound with
  | zero => exact .failed rfl
  | succ bound => exact elements_of_truncated (nextElement_nil _)

theorem elements_cut {read : Reader α} {limit bound : Nat} {items : List Json}
    (takes : ∀ item ∈ items, Takes limit read item) {taken : List α} {front : List Char}
    (short : front.length < limit) (cut : Cut front (writeItems taken.isEmpty items [']'])) :
    (elements read bound taken front).Truncated := by
  induction items generalizing bound taken front with
  | nil =>
      rcases cut with _ | ⟨⟨⟩⟩
      exact elements_nil read bound taken
  | cons item items inductionHypothesis =>
      cases bound with
      | zero => exact .failed rfl
      | succ bound =>
          rw [List.forall_mem_cons] at takes
          obtain ⟨takesItem, takes⟩ := takes
          rcases cut_writeItems cut with rfl | ⟨start, separator, cut⟩
          · exact elements_nil read (bound + 1) taken
          cases start with
          | nil => exact elements_of_truncated (nextElement_ended separator)
          | cons char tail =>
              have consumed := separator.length_le
              simp only [elements, nextElement_of_opens separator .done (opens_of_cut cut)]
              rcases Json.cut_write cut with within | ⟨more, equality, behind⟩
              · have starved := takesItem.cut (by omega) within
                generalize read (char :: tail) = outcome at starved
                cases starved with
                | failed ended => exact .failed ended
                | ok => exact elements_nil read bound _
              · rw [equality] at consumed ⊢
                have stops := stops_of_cut behind (items_stop (Json.items_write [] false items))
                have shorter := (Json.value_write more item).length_lt
                obtain ⟨content, accepted⟩ := takesItem.whole (by omega) stops
                rw [accepted]
                exact inductionHypothesis takes (by omega) behind

theorem list_cut {read : Reader α} {limit bound : Nat} {items : List Json}
    (takes : ∀ item ∈ items, Takes limit read item) {front : List Char}
    (short : front.length < limit) (cut : Cut front ((Json.array items).write [])) :
    (list bound read front).Truncated := by
  rcases cut with _ | cut
  · exact mismatch_nil "a sequence"
  · have truncated : (elements read bound [] _).Truncated :=
      elements_cut takes (Nat.lt_of_succ_lt short) cut
    exact truncated.close endList settleList

theorem cut_writeMembers {first : Bool} {key : String} {value : Json}
    {members : List (String × Json)} {front rest : List Char}
    (cut : Cut front (writeMembers first ((key, value) :: members) rest)) :
    front = [] ∨ ∃ start, Separator first front start ∧
      Cut start (writeText key (':' :: value.write (writeMembers false members rest))) := by
  cases first with
  | true => exact .inr ⟨front, .opening, cut⟩
  | false =>
      cases cut with
      | start => exact .inl rfl
      | cons cut => exact .inr ⟨_, .comma .done, cut⟩

theorem nextKey_nil (first : Bool) : (nextKey first []).Truncated := .failed rfl

theorem nextKey_ended {first : Bool} {source : List Char}
    (separator : Separator first source []) : (nextKey first source).Truncated := by
  cases separator with
  | opening => exact nextKey_nil true
  | comma comma =>
      simp only [nextKey, skipBlanks_eq_cons comma (by decide)]
      exact .failed rfl

theorem members_of_truncated {put : String → α → Reader α} {bound : Nat} {first : Bool}
    {slots : α} {source : List Char} (truncated : (nextKey first source).Truncated) :
    (members put (bound + 1) first slots source).Truncated := by
  unfold members
  generalize nextKey first source = outcome at truncated
  obtain ⟨ended⟩ := truncated
  exact .failed ended

theorem members_nil (put : String → α → Reader α) (bound : Nat) (first : Bool) (slots : α) :
    (members put bound first slots []).Truncated := by
  cases bound with
  | zero => exact .failed rfl
  | succ bound => exact members_of_truncated (nextKey_nil first)

/-- A cut behind a key falls in front of the value or into it, or behind it. -/
theorem cut_afterKey {value : Json} {front after : List Char}
    (cut : Cut front (':' :: value.write after)) :
    Cut front (':' :: value.write []) ∨
      ∃ more, front = ':' :: value.write more ∧ Cut more after := by
  have append (rest more : List Char) :
      ':' :: value.write (rest ++ more) = ':' :: value.write rest ++ more :=
    congrArg (':' :: ·) (Json.write_append rest more value)
  exact cut_written (fun rest => ':' :: value.write rest) append [] cut

/-- Each member is put in its turn until the cut is met; `state` says what the slots are after some
of them. -/
theorem members_cut {put : String → α → Reader α} (state : List (String × Json) → α)
    {limit : Nat} {all : List (String × Json)}
    (whole : ∀ {done key value todo more}, all = done ++ (key, value) :: todo →
      (':' :: value.write more).length < limit → continuesNumber more = false →
      put key (state done) (':' :: value.write more) = .ok (state (done ++ [(key, value)])) more)
    (starved : ∀ {done key value todo front}, all = done ++ (key, value) :: todo →
      front.length < limit → Cut front (':' :: value.write []) →
      (put key (state done) front).Starved)
    {bound : Nat} {first : Bool} {done todo : List (String × Json)} (equality : all = done ++ todo)
    {front : List Char} (short : front.length < limit)
    (cut : Cut front (writeMembers first todo ['\x7d'])) :
    (members put bound first (state done) front).Truncated := by
  induction todo generalizing bound first done front with
  | nil =>
      cases first
      all_goals
        rcases cut with _ | ⟨⟨⟩⟩
        exact members_nil put bound _ (state done)
  | cons member todo inductionHypothesis =>
      obtain ⟨key, value⟩ := member
      cases bound with
      | zero => exact .failed rfl
      | succ bound =>
          rcases cut_writeMembers cut with rfl | ⟨start, separator, cut⟩
          · exact members_nil put (bound + 1) first (state done)
          rcases cut with _ | @⟨_, quoted, _, cut⟩
          · exact members_of_truncated (nextKey_ended separator)
          have key' := nextKey_of_quote separator .done
          rcases readText_cut cut with truncated | ⟨more, named, cut⟩
          · apply members_of_truncated
            rw [key']
            exact truncated.map some
          · have consumed := separator.length_le
            obtain ⟨pieces, spelled, -⟩ := readText_eq_ok_iff.mp named
            have covered := spelled.length_lt
            simp only [List.length_cons] at consumed
            simp only [members, key', named, Outcome.map]
            rcases cut_afterKey cut with within | ⟨rest, rfl, behind⟩
            · have starved := starved equality (by omega) within
              generalize put key (state done) more = outcome at starved
              cases starved with
              | failed ended => exact .failed ended
              | ok => exact members_nil put bound false _
            · have stops := stops_of_cut behind (members_stop (Json.members_write [] false todo))
              have shorter := (Json.value_write rest value).length_lt
              simp only [List.length_cons] at covered
              rw [whole equality (by simp only [List.length_cons]; omega) stops]
              exact inductionHypothesis (by simp [equality]) (by omega) behind

theorem record_cut {fields : Fields} {put : String → fields.Slots → Reader fields.Slots}
    {inOrder : Reader fields.Content} {members : List (String × Json)}
    (distinct : (members.map Prod.fst).Nodup) {limit bound : Nat} {name : String}
    (contents : fields.Content)
    (whole : ∀ {keys key value more}, (key, value) ∈ members → key ∉ keys →
      (':' :: value.write more).length < limit → continuesNumber more = false →
      put key (fields.slotsAfter contents keys) (':' :: value.write more) =
        .ok (fields.slotsAfter contents (keys ++ [key])) more)
    (starved : ∀ {keys key value front}, (key, value) ∈ members → key ∉ keys →
      front.length < limit → Cut front (':' :: value.write []) →
      (put key (fields.slotsAfter contents keys) front).Starved)
    {front : List Char} (short : front.length < limit)
    (cut : Cut front ((Json.object members).write [])) :
    (record bound name fields put inOrder front).Truncated := by
  rcases cut with _ | @⟨_, front, _, cut⟩
  · exact mismatch_nil ("struct " ++ name)
  have unread {done todo : List (String × Json)} {key : String} {value : Json}
      (split : members = done ++ (key, value) :: todo) : key ∉ done.map Prod.fst := by
    rw [split, List.map_append, List.nodup_append] at distinct
    exact fun mem => distinct.2.2 key mem key List.mem_cons_self rfl
  have truncated : (Decode.members put bound true fields.emptySlots front).Truncated := by
    rw [← fields.slotsAfter_nil contents]
    refine members_cut (fun done => fields.slotsAfter contents (done.map Prod.fst)) ?_ ?_
      (List.nil_append members).symm (Nat.lt_of_succ_lt short) cut
    · intro done key value todo more split short stops
      rw [List.map_append]
      exact whole (by simp [split]) (unread split) short stops
    · intro done key value todo front split
      exact starved (by simp [split]) (unread split)
  exact (truncated.andThen _).close endObject settleObject

theorem kindName_cut {kind : NodeKind} {front after : List Char}
    (cut : Cut front (writeChars kind.name.toList ('"' :: after))) :
    (kindName front).Truncated ∨ ∃ more, kindName front = .ok kind more ∧
      more.length < front.length ∧ Cut more after := by
  rcases readText_cut cut with truncated | ⟨more, named, cut⟩
  · exact .inl (truncated.andThen _)
  · obtain ⟨pieces, spelled, -⟩ := readText_eq_ok_iff.mp named
    exact .inr ⟨more, kindName_eq_ok_iff.mpr named, spelled.length_lt, cut⟩

theorem tagged_cut {payload bare : NodeKind → Reader α} {kind : NodeKind} {value : Json}
    {limit : Nat} (takes : Takes limit (payload kind) value) {front : List Char}
    (short : front.length ≤ limit)
    (cut : Cut front ((Json.object [(kind.name, value)]).write [])) :
    (tagged payload bare front).Truncated := by
  rcases cut with _ | @⟨_, front, _, cut⟩
  · exact .failed rfl
  rcases cut with _ | @⟨_, quoted, _, cut⟩
  · exact .failed rfl
  simp only [tagged, skipBlanks_cons (show isBlank '\x7b' = false by decide),
    skipBlanks_cons (show isBlank '"' = false by decide)]
  simp only [List.length_cons] at short
  rcases kindName_cut cut with truncated | ⟨more, named, shorter, cut⟩
  · exact truncated.andThen _
  rw [named, Outcome.andThen]
  rcases cut_afterKey cut with within | ⟨rest, rfl, behind⟩
  · rcases within with _ | @⟨_, start, _, within⟩
    · exact .failed rfl
    · rw [colon_cons, Outcome.andThen]
      simp only [List.length_cons] at shorter
      exact (takes.cut (by omega) within).andThen fun _ => .failed rfl
  · rcases behind with _ | ⟨⟨⟩⟩
    simp only [List.length_cons] at shorter
    have whole : ∃ content, payload kind (value.write []) = .ok content [] :=
      takes.whole (by omega) rfl
    obtain ⟨content, accepted⟩ := whole
    rw [colon_cons, Outcome.andThen, accepted, Outcome.andThen]
    exact .failed rfl

end TigerTree.Decode
