import Mathlib.Data.List.Forall2
import TigerTree.Decode.Bracket
import TigerTree.Proofs.Decode.Value

set_option autoImplicit false

/-!
Lists and the members of objects.

The loops over elements and members carry what they have read so far. What is said about them is
therefore about the items from the place that a loop has reached, in front of what it holds.
-/

namespace TigerTree.Decode

open Json (Blanks Denotes Items Member Members Named Piece Pieces Rule Separator Value Written)

variable {α : Type}

theorem nextElement_eq_false_iff {first : Bool} {source rest : List Char} :
    nextElement first source = .ok false rest ↔
      ∃ after, rest = ']' :: after ∧ Blanks source (']' :: after) := by
  constructor
  · intro read
    unfold nextElement at read
    split at read
    next => simp at read
    next after skipped =>
      cases read
      exact ⟨after, rfl, blanks_of_skipBlanks_eq skipped⟩
    next =>
      repeat' split at read
      all_goals simp at read
  · rintro ⟨after, rfl, blanks⟩
    simp only [nextElement, skipBlanks_eq_cons blanks (by decide)]

theorem nextElement_eq_true {first : Bool} {source rest : List Char}
    (read : nextElement first source = .ok true rest) :
    ∃ start, Separator first source start ∧ rest = skipBlanks start := by
  unfold nextElement at read
  split at read
  next => simp at read
  next => simp at read
  next char tail _ skipped =>
    split at read
    next isFirst =>
      cases read
      subst isFirst
      exact ⟨source, .opening, skipped.symm⟩
    next notFirst =>
      split at read
      next comma =>
        subst comma
        rw [Bool.not_eq_true] at notFirst
        subst notFirst
        refine ⟨tail, .comma (blanks_of_skipBlanks_eq skipped), ?_⟩
        split at read
        next => simp at read
        next => simp at read
        next =>
          cases read
          rfl
      next => simp at read

theorem nextElement_of_opens {first : Bool} {source start tail : List Char} {char : Char}
    (separator : Separator first source start) (blanks : Blanks start (char :: tail))
    (opens : opensValue char = true) : nextElement first source = .ok true (char :: tail) := by
  have skipped := skipBlanks_eq_cons blanks (solid_of_opensValue opens)
  have noBracket := opensValue_ne opens ']' (by decide)
  cases separator with
  | opening => simp [nextElement, skipped]
  | comma comma =>
      simp [nextElement, skipBlanks_eq_cons comma (by decide), skipped, noBracket]

theorem nextElement_complete {first : Bool} {source start front rest : List Char}
    {value : Written} (separator : Separator first source start) (blanks : Blanks start front)
    (spelled : Value front value rest) : nextElement first source = .ok true front := by
  obtain ⟨char, tail, rfl, opens⟩ := value_opens spelled
  exact nextElement_of_opens separator blanks opens

theorem nextKey_eq_none_iff {first : Bool} {source rest : List Char} :
    nextKey first source = .ok none rest ↔
      ∃ after, rest = '\x7d' :: after ∧ Blanks source ('\x7d' :: after) := by
  constructor
  · intro read
    unfold nextKey at read
    split at read
    next => simp at read
    next after skipped =>
      cases read
      exact ⟨after, rfl, blanks_of_skipBlanks_eq skipped⟩
    next =>
      repeat' split at read
      all_goals simp at read
  · rintro ⟨after, rfl, blanks⟩
    simp only [nextKey, skipBlanks_eq_cons blanks (by decide)]

theorem nextKey_of_quote {first : Bool} {source start quoted : List Char}
    (separator : Separator first source start) (quote : Blanks start ('"' :: quoted)) :
    nextKey first source = (readText quoted).map some := by
  have skipped := skipBlanks_eq_cons quote (by decide)
  cases separator with
  | opening => simp [nextKey, skipped]
  | comma comma => simp [nextKey, skipBlanks_eq_cons comma (by decide), skipped]

theorem nextKey_eq_some_iff {first : Bool} {source rest : List Char} {key : String} :
    nextKey first source = .ok (some key) rest ↔
      ∃ start quoted, Separator first source start ∧ Blanks start ('"' :: quoted) ∧
        readText quoted = .ok key rest := by
  constructor
  · intro read
    unfold nextKey at read
    split at read
    next => simp at read
    next => simp at read
    next char tail _ skipped =>
      split at read
      next isFirst =>
        subst isFirst
        split at read
        next quote =>
          subst quote
          obtain ⟨_, named, equality⟩ := Outcome.map_eq_ok_iff.mp read
          cases equality
          exact ⟨source, tail, .opening, blanks_of_skipBlanks_eq skipped, named⟩
        next => simp at read
      next notFirst =>
        split at read
        next comma =>
          subst comma
          rw [Bool.not_eq_true] at notFirst
          subst notFirst
          split at read
          next quoted skipped' =>
            obtain ⟨_, named, equality⟩ := Outcome.map_eq_ok_iff.mp read
            cases equality
            exact ⟨tail, quoted, .comma (blanks_of_skipBlanks_eq skipped),
              blanks_of_skipBlanks_eq skipped', named⟩
          next => simp at read
          next => simp at read
          next => simp at read
        next => simp at read
  · rintro ⟨start, quoted, separator, quote, named⟩
    rw [nextKey_of_quote separator quote, named]
    rfl

theorem endList_eq_ok_iff {source rest : List Char} {value : Unit} :
    endList source = .ok value rest ↔ Blanks source (']' :: rest) := by
  constructor
  · intro read
    unfold endList at read
    split at read
    next skipped =>
      cases read
      exact blanks_of_skipBlanks_eq skipped
    next => split at read <;> simp at read
    next => simp at read
    next => simp at read
  · intro blanks
    simp only [endList, skipBlanks_eq_cons blanks (by decide)]

theorem endObject_eq_ok_iff {source rest : List Char} {value : Unit} :
    endObject source = .ok value rest ↔ Blanks source ('\x7d' :: rest) := by
  constructor
  · intro read
    unfold endObject at read
    split at read
    next skipped =>
      cases read
      exact blanks_of_skipBlanks_eq skipped
    next => simp at read
    next => simp at read
    next => simp at read
  · intro blanks
    simp only [endObject, skipBlanks_eq_cons blanks (by decide)]

theorem close_eq_ok_iff {outcome : Outcome α} {finish : Reader Unit}
    {settle : List Char → List Char} {value : α} {rest : List Char} :
    outcome.close finish settle = .ok value rest ↔
      ∃ middle, outcome = .ok value middle ∧ finish middle = .ok () rest := by
  cases outcome with
  | ok value' middle =>
      simp only [Outcome.close, Outcome.map_eq_ok_iff]
      constructor
      · rintro ⟨_, finished, rfl⟩
        exact ⟨middle, rfl, finished⟩
      · rintro ⟨_, equality, finished⟩
        cases equality
        exact ⟨(), finished, rfl⟩
  | failed cause left => simp [Outcome.close]
  | refused cause rest' => simp [Outcome.close]

theorem inList_eq_ok_iff {contents : Reader α} {source rest : List Char} {value : α} :
    inList contents source = .ok value rest ↔
      ∃ middle, contents source = .ok value middle ∧ Blanks middle (']' :: rest) := by
  simp only [inList, close_eq_ok_iff, endList_eq_ok_iff]

theorem inObject_eq_ok_iff {contents : Reader α} {source rest : List Char} {value : α} :
    inObject contents source = .ok value rest ↔
      ∃ middle, contents source = .ok value middle ∧ Blanks middle ('\x7d' :: rest) := by
  simp only [inObject, close_eq_ok_iff, endObject_eq_ok_iff]

/-- A bracket is the end of the blanks in front of it. -/
theorem eq_of_blanks_cons {char : Char} {source rest : List Char} (solid : isBlank char = false)
    (blanks : Blanks (char :: source) (char :: rest)) : source = rest := by
  have skipped := skipBlanks_eq_cons blanks solid
  rw [skipBlanks_cons solid] at skipped
  exact (List.cons.inj skipped).2

theorem elements_sound {read : Reader α} {rule : α → Rule} (sound : Sound read rule)
    {bound : Nat} {taken values : List α} {source middle rest : List Char}
    (accepted : elements read bound taken source = .ok values middle)
    (closed : Blanks middle (']' :: rest)) :
    ∃ items others, Items taken.isEmpty source items rest ∧ values = taken.reverse ++ others ∧
      List.Forall₂ rule others items := by
  induction bound generalizing taken source with
  | zero => simp [elements, exhausted] at accepted
  | succ bound inductionHypothesis =>
      unfold elements at accepted
      split at accepted
      next separated =>
        cases accepted
        obtain ⟨after, rfl, blanks⟩ := nextElement_eq_false_iff.mp separated
        obtain rfl := eq_of_blanks_cons (by decide) closed
        exact ⟨[], [], .close blanks, by simp, .nil⟩
      next separated =>
        obtain ⟨start, separator, rfl⟩ := nextElement_eq_true separated
        split at accepted
        next value after element =>
          obtain ⟨written, spelled, holds⟩ := sound element
          obtain ⟨items, others, more, equality, hold⟩ := inductionHypothesis accepted
          rw [skipBlanks_skipBlanks] at spelled
          exact ⟨written :: items, value :: others,
            .item separator (blanks_skipBlanks start) spelled more, by simpa using equality,
            .cons holds hold⟩
        next => simp at accepted
        next => simp at accepted
      next => simp at accepted
      next => simp at accepted

theorem elements_complete {read : Reader α} {rule : α → Rule} {limit : Nat}
    (complete : CompleteBelow limit read rule) {bound : Nat} {taken others : List α}
    {source rest : List Char} {items : List Written} (short : source.length < bound)
    (within : source.length < limit) (spelled : Items taken.isEmpty source items rest)
    (hold : List.Forall₂ rule others items) :
    elements read bound taken source = .ok (taken.reverse ++ others) (']' :: rest) := by
  induction bound generalizing taken source others items with
  | zero => simp at short
  | succ bound inductionHypothesis =>
      cases spelled with
      | close blanks =>
          cases hold
          simp [elements, nextElement_eq_false_iff.mpr ⟨rest, rfl, blanks⟩]
      | @item _ _ _ front _ middle _ _ separator blanks value more =>
          rcases hold with _ | @⟨value', _, others, _, holds, hold⟩
          have consumed := separator.length_le
          have covered := blanks.length_le
          have remaining := value.length_lt
          have element : read front = .ok _ middle :=
            complete (by omega) ((skipBlanks_eq_of_value .done value).symm ▸ value)
              (endsAt_of_not_continues (items_stop more)) holds
          simp only [elements, nextElement_complete separator blanks value, element]
          have following : elements read bound (value' :: taken) middle =
              .ok ((value' :: taken).reverse ++ others) (']' :: rest) :=
            inductionHypothesis (by omega) (by omega) more hold
          simpa using following

theorem list_sound {read : Reader α} {rule : α → Rule} (sound : Sound read rule) (bound : Nat) :
    Sound (list bound read) fun values => Rule.array (values.map rule) := by
  intro source values rest accepted
  unfold list at accepted
  split at accepted
  next skipped =>
    obtain ⟨middle, accepted, closed⟩ := inList_eq_ok_iff.mp accepted
    obtain ⟨items, others, spelled, rfl, hold⟩ := elements_sound sound accepted closed
    refine ⟨.array items, by rw [skipped]; exact .array spelled, ?_⟩
    simpa [Rule.array, List.forall₂_map_left_iff] using hold
  next => simp at accepted

theorem list_complete {read : Reader α} {rule : α → Rule} {limit bound : Nat}
    (complete : CompleteBelow limit read rule) (le : limit ≤ bound) :
    CompleteBelow limit (list bound read) fun values => Rule.array (values.map rule) := by
  intro source values rest written short spelled _ holds
  have shorter := length_skipBlanks_le source
  generalize skipped : skipBlanks source = front at spelled shorter
  cases written with
  | array items =>
      cases spelled with
      | array spelled =>
          rw [Rule.array, List.forall₂_map_left_iff] at holds
          simp only [List.length_cons] at shorter
          have accepted : elements read bound [] _ = .ok values (']' :: rest) :=
            elements_complete complete (by omega) (by omega) spelled holds
          simp only [list, skipped]
          apply inList_eq_ok_iff.mpr
          exact ⟨_, accepted, .done⟩
      | number number => cases number
      | negative number => cases number
  | _ => exact holds.elim

/-- What stands after the key of a member. -/
def AfterKey (source : List Char) (written : Written) (rest : List Char) : Prop :=
  ∃ start, Blanks source (':' :: start) ∧ Value (skipBlanks start) written rest

/-- Members are put one by one; `state` says what holds of the slots after some of them. -/
theorem members_sound {put : String → α → Reader α} {state : List (String × Written) → α → Prop}
    (sound : ∀ {key slots slots' source rest done}, put key slots source = .ok slots' rest →
      state done slots →
      ∃ written, AfterKey source written rest ∧ state (done ++ [(key, written)]) slots')
    {bound : Nat} {first : Bool} {slots slots' : α} {source middle rest : List Char}
    {done : List (String × Written)}
    (accepted : members put bound first slots source = .ok slots' middle)
    (closed : Blanks middle ('\x7d' :: rest)) (holds : state done slots) :
    ∃ spelled named, Members first source spelled rest ∧ Named spelled named ∧
      state (done ++ named) slots' := by
  induction bound generalizing first slots source done with
  | zero => simp [members, exhausted] at accepted
  | succ bound inductionHypothesis =>
      unfold members at accepted
      split at accepted
      next separated =>
        cases accepted
        obtain ⟨after, rfl, blanks⟩ := nextKey_eq_none_iff.mp separated
        obtain rfl := eq_of_blanks_cons (by decide) closed
        exact ⟨[], [], .close blanks, .nil, by simpa using holds⟩
      next key afterKey separated =>
        obtain ⟨start, quoted, separator, quote, text⟩ := nextKey_eq_some_iff.mp separated
        obtain ⟨pieces, key', denotes⟩ := readText_eq_ok_iff.mp text
        split at accepted
        next slots'' rest' accepted' =>
          obtain ⟨written, ⟨front, colon, value⟩, holds'⟩ := sound accepted' holds
          obtain ⟨spelled, named, more, names, final⟩ := inductionHypothesis accepted holds'
          refine ⟨(pieces, written) :: spelled, (key, written) :: named,
            .member separator quote (.pair key' colon (blanks_skipBlanks front) value) more,
            .cons ⟨denotes, rfl⟩ names, by simpa using final⟩
        next => simp at accepted
        next => simp at accepted
      next => simp at accepted
      next => simp at accepted

/-- If each member of an object can be put in its turn, all of them are. -/
theorem members_complete {put : String → α → Reader α} (state : List (String × Written) → α)
    {limit : Nat} {all : List (String × Written)}
    (complete : ∀ {done key written todo source rest}, all = done ++ (key, written) :: todo →
      source.length < limit → AfterKey source written rest → continuesNumber rest = false →
      put key (state done) source = .ok (state (done ++ [(key, written)])) rest)
    {bound : Nat} {first : Bool} {source rest : List Char} {done named : List (String × Written)}
    {spelled : List (List Piece × Written)} (short : source.length < bound)
    (within : source.length < limit) (members' : Members first source spelled rest)
    (names : Named spelled named) (equality : all = done ++ named) :
    members put bound first (state done) source = .ok (state all) ('\x7d' :: rest) := by
  induction bound generalizing first source done named spelled with
  | zero => simp at short
  | succ bound inductionHypothesis =>
      cases members' with
      | close blanks =>
          cases names
          simp [members, nextKey_eq_none_iff.mpr ⟨rest, rfl, blanks⟩, equality]
      | member separator blanks member more =>
          cases member with
          | @pair quoted key afterKey _ _ _ _ key' colon blanks' value =>
              rcases names with _ | @⟨_, ⟨name, written⟩, _, named, ⟨denotes, rfl⟩, names⟩
              have consumed := separator.length_le
              have opened := blanks.length_le
              have taken := key'.length_lt
              have parted := colon.length_le
              have covered := blanks'.length_le
              have remaining := value.length_lt
              simp only [List.length_cons] at opened parted
              have accepted := complete equality (by omega)
                ⟨_, colon, (skipBlanks_eq_of_value blanks' value).symm ▸ value⟩ (members_stop more)
              have text := readText_eq_ok_iff.mpr ⟨_, key', denotes⟩
              simp only [members, nextKey_eq_some_iff.mpr ⟨_, _, separator, blanks, text⟩, accepted]
              exact inductionHypothesis (by omega) (by omega) more names (by simp [equality])

end TigerTree.Decode
