import TigerTree.Proofs.Decode.Tree

set_option autoImplicit false

/-!
Bounds that are never used up.

Wherever a reader recurs on a bound, it has passed over a character since the last time. So if two
bounds are above the length of a source, they give the same outcome, whether that is a tree or a
failure. The bound that a source is decoded with could be any such number.
-/

namespace TigerTree

open Decode
open Json (Rule)

namespace Decode

variable {α β : Type} {limit bound bound' : Nat} {source rest : List Char}

/-- Readers that cannot be told apart by a source below a length. -/
def AgreeBelow (limit : Nat) (read other : Reader α) : Prop :=
  ∀ ⦃source⦄, source.length < limit → read source = other source

theorem AgreeBelow.refl (limit : Nat) (read : Reader α) : AgreeBelow limit read read :=
  fun _ _ => rfl

theorem andThen_congr_of_ok {outcome : Outcome α} {next next' : α → Reader β}
    (same : ∀ value rest, outcome = .ok value rest → next value rest = next' value rest) :
    outcome.andThen next = outcome.andThen next' := by
  cases outcome with
  | ok value rest => exact same value rest rfl
  | failed => rfl
  | refused => rfl

theorem Sound.length_lt {read : Reader α} {rule : α → Rule} (sound : Sound read rule) {value : α}
    (accepted : read source = .ok value rest) : rest.length < source.length := by
  obtain ⟨written, spelled, -⟩ := sound accepted
  exact Nat.lt_of_lt_of_le spelled.length_lt (length_skipBlanks_le source)

theorem length_lt_of_skipBlanks {char : Char} (skipped : skipBlanks source = char :: rest) :
    rest.length < source.length := by
  have le := length_skipBlanks_le source
  rwa [skipped] at le

theorem length_lt_of_colon {value : Unit} (read : colon source = .ok value rest) :
    rest.length < source.length :=
  (colon_eq_ok_iff.mp read).length_le

theorem length_lt_of_readText {text : String} (read : readText source = .ok text rest) :
    rest.length < source.length := by
  obtain ⟨pieces, spelled, -⟩ := readText_eq_ok_iff.mp read
  exact spelled.length_lt

theorem length_le_of_skipSeparator {closing : Char} {atEnd missing : Cause} {first : Bool}
    (read : skipSeparator closing atEnd missing first source = .ok true rest) :
    rest.length ≤ source.length := by
  unfold skipSeparator at read
  split at read
  next => simp at read
  next char behind skipped =>
    have shorter := length_lt_of_skipBlanks skipped
    split at read
    next => simp at read
    split at read
    next =>
      cases read
      exact shorter
    split at read
    next =>
      cases read
      exact Nat.le_of_lt shorter
    next => simp at read

theorem length_le_of_nextElement {first : Bool} (read : nextElement first source = .ok true rest) :
    rest.length ≤ source.length := by
  obtain ⟨start, separator, rfl⟩ := nextElement_eq_true read
  exact Nat.le_trans (length_skipBlanks_le start) separator.length_le

theorem length_lt_of_nextKey {first : Bool} {key : String}
    (read : nextKey first source = .ok (some key) rest) : rest.length < source.length := by
  obtain ⟨start, quoted, separator, quote, text⟩ := nextKey_eq_some_iff.mp read
  have opened := separator.length_le
  have covered := quote.length_le
  have taken := length_lt_of_readText text
  rw [List.length_cons] at covered
  omega

theorem skipItems_agree {skip other : Reader Unit} (sound : Sound skip anything)
    (agree : AgreeBelow limit skip other) {first : Bool} (short : source.length < bound)
    (short' : source.length < bound') (within : source.length < limit) :
    skipItems skip bound first source = skipItems other bound' first source := by
  induction bound generalizing bound' first source with
  | zero => exact absurd short (Nat.not_lt_zero _)
  | succ bound inductionHypothesis =>
      cases bound' with
      | zero => exact absurd short' (Nat.not_lt_zero _)
      | succ bound' =>
          unfold skipItems
          split
          next => rfl
          next start separated =>
            -- A separator may take nothing from the source, but an item always does.
            have consumed := length_le_of_skipSeparator separated
            rw [← agree (by omega)]
            split
            next behind item =>
              have remaining := sound.length_lt item
              exact inductionHypothesis (by omega) (by omega) (by omega)
            next => rfl
            next => rfl
          next => rfl
          next => rfl

theorem skipMember_agree {skip other : Reader Unit} (agree : AgreeBelow limit skip other) :
    AgreeBelow limit (skipMember skip) (skipMember other) := by
  intro source within
  unfold skipMember
  split
  next quoted skipped =>
    have opened := length_lt_of_skipBlanks skipped
    refine andThen_congr_of_ok fun _ afterKey key => ?_
    obtain ⟨pieces, named⟩ := skipText_sound key
    have taken := named.length_lt
    refine andThen_congr_of_ok fun _ start colon => ?_
    have parted := length_lt_of_colon colon
    exact agree (by omega)
  next => rfl
  next => rfl

theorem skipMembers_agree {skip other : Reader Unit} (sound : Sound skip anything)
    (agree : AgreeBelow limit skip other) {first : Bool} (short : source.length < bound)
    (short' : source.length < bound') (within : source.length < limit) :
    skipMembers skip bound first source = skipMembers other bound' first source := by
  induction bound generalizing bound' first source with
  | zero => exact absurd short (Nat.not_lt_zero _)
  | succ bound inductionHypothesis =>
      cases bound' with
      | zero => exact absurd short' (Nat.not_lt_zero _)
      | succ bound' =>
          unfold skipMembers
          split
          next => rfl
          next start separated =>
            have consumed := length_le_of_skipSeparator separated
            rw [← skipMember_agree agree (by omega)]
            split
            next behind member =>
              obtain ⟨written, spelled⟩ := skipMember_sound sound member
              have covered := length_skipBlanks_le start
              have remaining := spelled.length_lt
              exact inductionHypothesis (by omega) (by omega) (by omega)
            next => rfl
            next => rfl
          next => rfl
          next => rfl

theorem skipValue_agree (le : limit ≤ bound) (le' : limit ≤ bound') :
    AgreeBelow limit (skipValue bound) (skipValue bound') := by
  induction limit generalizing bound bound' with
  | zero => exact fun _ within => absurd within (Nat.not_lt_zero _)
  | succ limit inductionHypothesis =>
      obtain ⟨bound, rfl⟩ := Nat.exists_eq_succ_of_ne_zero (Nat.ne_zero_of_lt le)
      obtain ⟨bound', rfl⟩ := Nat.exists_eq_succ_of_ne_zero (Nat.ne_zero_of_lt le')
      have le := Nat.le_of_succ_le_succ le
      have le' := Nat.le_of_succ_le_succ le'
      have sound := skipValue_sound bound
      have agree := inductionHypothesis le le'
      intro source within
      unfold skipValue
      split
      next => rfl
      next => rfl
      next => rfl
      next => rfl
      next => rfl
      next => rfl
      next rest skipped =>
        have opened := length_lt_of_skipBlanks skipped
        exact skipItems_agree sound agree (by omega) (by omega) (by omega)
      next rest skipped =>
        have opened := length_lt_of_skipBlanks skipped
        exact skipMembers_agree sound agree (by omega) (by omega) (by omega)
      next => rfl

theorem elements_agree {read other : Reader α} {rule : α → Rule} (sound : Sound read rule)
    (agree : AgreeBelow limit read other) {taken : List α} (short : source.length < bound)
    (short' : source.length < bound') (within : source.length < limit) :
    elements read bound taken source = elements other bound' taken source := by
  induction bound generalizing bound' taken source with
  | zero => exact absurd short (Nat.not_lt_zero _)
  | succ bound inductionHypothesis =>
      cases bound' with
      | zero => exact absurd short' (Nat.not_lt_zero _)
      | succ bound' =>
          unfold elements
          split
          next => rfl
          next start separated =>
            have consumed := length_le_of_nextElement separated
            rw [← agree (by omega)]
            split
            next behind element =>
              have remaining := sound.length_lt element
              exact inductionHypothesis (by omega) (by omega) (by omega)
            next => rfl
            next => rfl
          next => rfl
          next => rfl

theorem list_agree {read other : Reader α} {rule : α → Rule} (sound : Sound read rule)
    (agree : AgreeBelow limit read other) (le : limit ≤ bound) (le' : limit ≤ bound') :
    AgreeBelow limit (list bound read) (list bound' other) := by
  intro source within
  unfold list
  split
  next rest skipped =>
    have opened := length_lt_of_skipBlanks skipped
    have same : elements read bound [] rest = elements other bound' [] rest :=
      elements_agree sound agree (by omega) (by omega) (by omega)
    rw [inList, inList, same]
  next => rfl

theorem optional_agree {read other : Reader α} (agree : AgreeBelow limit read other) :
    AgreeBelow limit (optional read) (optional other) := by
  intro source within
  unfold optional
  split
  next => rfl
  next => rw [agree (Nat.lt_of_le_of_lt (length_skipBlanks_le source) within)]

/-- Each member may only be passed over before the next one, whatever it does to the slots. -/
theorem members_agree {put other : String → α → Reader α}
    (agree : ∀ key slots, AgreeBelow limit (put key slots) (other key slots))
    (shorter : ∀ {key slots slots' source rest}, put key slots source = .ok slots' rest →
      rest.length < source.length)
    {first : Bool} {slots : α} (short : source.length < bound) (short' : source.length < bound')
    (within : source.length < limit) :
    members put bound first slots source = members other bound' first slots source := by
  induction bound generalizing bound' first slots source with
  | zero => exact absurd short (Nat.not_lt_zero _)
  | succ bound inductionHypothesis =>
      cases bound' with
      | zero => exact absurd short' (Nat.not_lt_zero _)
      | succ bound' =>
          unfold members
          split
          next => rfl
          next key afterKey named =>
            have consumed := length_lt_of_nextKey named
            rw [← agree key slots (by omega)]
            split
            next slots behind accepted =>
              have remaining := shorter accepted
              exact inductionHypothesis (by omega) (by omega) (by omega)
            next => rfl
            next => rfl
          next => rfl
          next => rfl

theorem skippedMember_agree (le : limit ≤ bound) (le' : limit ≤ bound') :
    AgreeBelow limit (skippedMember bound) (skippedMember bound') := by
  intro source within
  refine andThen_congr_of_ok fun _ start colon => ?_
  have parted := length_lt_of_colon colon
  exact skipValue_agree le le' (by omega)

theorem record_agree {name : String} {fields : Fields}
    {put other : String → fields.Slots → Reader fields.Slots}
    {inOrder inOrder' : Reader fields.Content}
    (agree : ∀ key slots, AgreeBelow limit (put key slots) (other key slots))
    (shorter : ∀ {key slots slots' source rest}, put key slots source = .ok slots' rest →
      rest.length < source.length)
    (agreeInOrder : AgreeBelow limit inOrder inOrder') (le : limit ≤ bound)
    (le' : limit ≤ bound') :
    AgreeBelow limit (record bound name fields put inOrder)
      (record bound' name fields other inOrder') := by
  intro source within
  unfold record
  split
  next rest skipped =>
    have opened := length_lt_of_skipBlanks skipped
    have same : members put bound true fields.emptySlots rest =
        members other bound' true fields.emptySlots rest :=
      members_agree agree shorter (by omega) (by omega) (by omega)
    rw [inObject, inObject, same]
  next rest skipped =>
    have opened := length_lt_of_skipBlanks skipped
    rw [inList, inList, agreeInOrder (by omega)]
  next => rfl

end Decode

section Shapes

variable {limit bound bound' : Nat} {tree tree' : Reader Expr} {source rest : List Char}

/-- A member is passed over, with its colon, whichever field it is put into. -/
theorem Fields.length_lt_of_put (sound : Sound tree Rule.ofExpr) (fields : Fields)
    (distinct : fields.Distinct) {key : String} {slots slots' : fields.Slots}
    (accepted : fields.put bound tree key slots source = .ok slots' rest) :
    rest.length < source.length := by
  match fields, slots, slots' with
  | .nil, _, _ =>
      obtain ⟨written, start, colon, spelled⟩ := skippedMember_sound accepted
      have parted := colon.length_le
      have covered := length_skipBlanks_le start
      have taken := spelled.length_lt
      rw [List.length_cons] at parted
      omega
  | .cons name shape _ others, (slot, slots), slots' =>
      obtain ⟨-, distinct, othersDistinct⟩ := distinct
      rw [Fields.put] at accepted
      split at accepted
      next =>
        split at accepted
        next => cases accepted
        next =>
          obtain ⟨_, start, colon, accepted⟩ := Outcome.andThen_eq_ok_iff.mp accepted
          obtain ⟨content, read, -⟩ := Outcome.map_eq_ok_iff.mp accepted
          have parted := length_lt_of_colon colon
          have taken := (shape.read_sound sound distinct).length_lt read
          omega
      next =>
        obtain ⟨slots'', put, -⟩ := Outcome.map_eq_ok_iff.mp accepted
        exact others.length_lt_of_put sound othersDistinct put

mutual

theorem Shape.read_agree (sound : Sound tree Rule.ofExpr) (agree : AgreeBelow limit tree tree')
    (le : limit ≤ bound) (le' : limit ≤ bound') (shape : Shape) (distinct : shape.Distinct) :
    AgreeBelow limit (shape.read bound tree) (shape.read bound' tree') := by
  match shape with
  | .int32 => exact .refl limit _
  | .text => exact .refl limit _
  | .operator => exact .refl limit _
  | .tree => exact agree
  | .null _ => exact .refl limit _
  | .list element =>
      exact list_agree (element.read_sound sound distinct)
        (element.read_agree sound agree le le' distinct) le le'
  | .optional content => exact optional_agree (content.read_agree sound agree le le' distinct)
  | .record name fields =>
      exact record_agree (fields.put_agree sound agree le le' distinct)
        (fields.length_lt_of_put sound distinct)
        (fields.inOrder_agree sound agree le le' distinct name fields.length 0) le le'

theorem Fields.put_agree (sound : Sound tree Rule.ofExpr) (agree : AgreeBelow limit tree tree')
    (le : limit ≤ bound) (le' : limit ≤ bound') (fields : Fields) (distinct : fields.Distinct)
    (key : String) (slots : fields.Slots) :
    AgreeBelow limit (fields.put bound tree key slots) (fields.put bound' tree' key slots) := by
  match fields, slots with
  | .nil, _ => exact skippedMember_agree le le'
  | .cons name shape _ others, (slot, slots) =>
      obtain ⟨-, distinct, othersDistinct⟩ := distinct
      intro source within
      rw [Fields.put, Fields.put]
      split
      next =>
        split
        next => rfl
        next =>
          refine andThen_congr_of_ok fun _ start colon => ?_
          have parted := length_lt_of_colon colon
          rw [shape.read_agree sound agree le le' distinct (by omega)]
      next =>
        have same := others.put_agree sound agree le le' othersDistinct key slots within
        exact congrArg (Outcome.map _) same

theorem Fields.inOrder_agree (sound : Sound tree Rule.ofExpr)
    (agree : AgreeBelow limit tree tree') (le : limit ≤ bound) (le' : limit ≤ bound')
    (fields : Fields) (distinct : fields.Distinct) (name : String) (total count : Nat) :
    AgreeBelow limit (fields.inOrder bound tree name total count)
      (fields.inOrder bound' tree' name total count) := by
  cases fields with
  | nil => exact .refl limit _
  | cons _ shape presence others =>
      obtain ⟨-, distinct, othersDistinct⟩ := distinct
      have following :=
        others.inOrder_agree sound agree le le' othersDistinct name total (count + 1)
      intro source within
      rw [Fields.inOrder, Fields.inOrder]
      refine andThen_congr_of_ok fun more rest separated => ?_
      cases more with
      | true =>
          have consumed := length_le_of_nextElement separated
          rw [if_pos rfl, if_pos rfl, ← shape.read_agree sound agree le le' distinct (by omega)]
          refine andThen_congr_of_ok fun content behind read => ?_
          have taken := (shape.read_sound sound distinct).length_lt read
          exact congrArg (Outcome.map _) (following (by omega))
      | false =>
          obtain ⟨after, rfl, blanks⟩ := nextElement_eq_false_iff.mp separated
          have covered := blanks.length_le
          rw [if_neg Bool.false_ne_true, if_neg Bool.false_ne_true, following (by omega)]

end

end Shapes

namespace Decode

variable {α : Type} {source : List Char}

theorem tagged_congr {payload payload' bare : NodeKind → Reader α}
    (same : ∀ kind, AgreeBelow source.length (payload kind) (payload' kind)) :
    tagged payload bare source = tagged payload' bare source := by
  unfold tagged
  split
  next inside skipped =>
    have opened := length_lt_of_skipBlanks skipped
    split
    next quoted skipped' =>
      have quote := length_lt_of_skipBlanks skipped'
      refine andThen_congr_of_ok fun kind afterKey named => ?_
      have taken := length_lt_of_readText (kindName_eq_ok_iff.mp named)
      refine andThen_congr_of_ok fun _ start colon => ?_
      have parted := length_lt_of_colon colon
      rw [same kind (by omega)]
    next => rfl
    next => rfl
    next => rfl
  next => rfl
  next => rfl
  next => rfl

theorem tree_agree {limit bound bound' depth depth' : Nat} (le : limit ≤ bound)
    (le' : limit ≤ bound') (deep : limit ≤ depth) (deep' : limit ≤ depth') :
    AgreeBelow limit (tree bound depth) (tree bound' depth') := by
  induction limit generalizing depth depth' with
  | zero => exact fun _ within => absurd within (Nat.not_lt_zero _)
  | succ limit inductionHypothesis =>
      obtain ⟨depth, rfl⟩ := Nat.exists_eq_succ_of_ne_zero (Nat.ne_zero_of_lt deep)
      obtain ⟨depth', rfl⟩ := Nat.exists_eq_succ_of_ne_zero (Nat.ne_zero_of_lt deep')
      have agree : AgreeBelow limit (tree bound depth) (tree bound' depth') :=
        inductionHypothesis (Nat.le_of_succ_le le) (Nat.le_of_succ_le le')
          (Nat.le_of_succ_le_succ deep) (Nat.le_of_succ_le_succ deep')
      intro source within
      refine tagged_congr fun kind start shorter => ?_
      have same := kind.payload.read_agree (tree_sound bound depth) agree
        (Nat.le_of_succ_le le) (Nat.le_of_succ_le le') kind.payload_distinct
      rw [same (by omega)]

end Decode

/-- A source is decoded as with any bounds above its length, so that no reader ever stops because
its bound is used up. -/
theorem decode_eq_of_bounds {source : String} {bound depth : Nat}
    (wide : source.toList.length < bound) (deep : source.toList.length < depth) :
    decode source = whole (tree bound depth) source.toList := by
  have agree := tree_agree (Nat.le_refl (source.toList.length + 1)) wide (Nat.le_refl _) deep
  rw [decode, whole, whole, agree (Nat.lt_succ_self _)]

end TigerTree
