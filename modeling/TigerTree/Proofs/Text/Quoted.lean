import Mathlib.Data.List.Basic
import TigerTree.Text.Quoted

set_option autoImplicit false

/-!
Quoted text determines what it quotes, and where it ends.

The characters of a text are shown one by one, each in a way that is not the beginning of any
other, and none as a quote alone.
-/

namespace TigerTree

/-- Where two texts are the same, they have the same front up to the first character of a kind. -/
theorem append_inj_of_all {among : Char → Bool} {front front' rest rest' : List Char}
    (all : ∀ char ∈ front, among char) (all' : ∀ char ∈ front', among char)
    (stops : ∀ char ∈ rest.head?, among char = false)
    (stops' : ∀ char ∈ rest'.head?, among char = false) (same : front ++ rest = front' ++ rest') :
    front = front' ∧ rest = rest' := by
  have taken {rest : List Char} (stops : ∀ char ∈ rest.head?, among char = false) :
      rest.takeWhile among = [] := by
    cases rest with
    | nil => rfl
    | cons char rest => exact List.takeWhile_cons_of_neg (by simp [stops char rfl])
  have fronts := congrArg (List.takeWhile among) same
  rw [List.takeWhile_append_of_pos all, List.takeWhile_append_of_pos all', taken stops,
    taken stops', List.append_nil, List.append_nil] at fronts
  subst fronts
  exact ⟨rfl, List.append_cancel_left same⟩

theorem digitChar_injective {digit digit' : Nat} (small : digit < 16) (small' : digit' < 16)
    (same : digit.digitChar = digit'.digitChar) : digit = digit' := by
  have table : ∀ a < 16, ∀ b < 16, a.digitChar = b.digitChar → a = b := by decide
  exact table digit small digit' small' same

theorem toDigits_sixteen_injective : Function.Injective (Nat.toDigits 16) := by
  intro number
  induction number using Nat.strongRecOn with
  | ind number inductionHypothesis =>
      intro other same
      by_cases single : number < 16
      all_goals by_cases single' : other < 16
      · rw [Nat.toDigits_of_lt_base single, Nat.toDigits_of_lt_base single'] at same
        exact digitChar_injective single single' (List.cons.inj same).1
      · rw [Nat.toDigits_of_lt_base single,
          Nat.toDigits_of_base_le (by decide) (Nat.le_of_not_lt single')] at same
        have empty := (List.append_eq_singleton_iff.mp same.symm).resolve_right (by simp)
        exact absurd empty.1 Nat.toDigits_ne_nil
      · rw [Nat.toDigits_of_lt_base single',
          Nat.toDigits_of_base_le (by decide) (Nat.le_of_not_lt single)] at same
        have empty := (List.append_eq_singleton_iff.mp same).resolve_right (by simp)
        exact absurd empty.1 Nat.toDigits_ne_nil
      · rw [Nat.toDigits_of_base_le (by decide) (Nat.le_of_not_lt single),
          Nat.toDigits_of_base_le (by decide) (Nat.le_of_not_lt single')] at same
        obtain ⟨front, last⟩ := List.append_inj' same rfl
        have quotient := inductionHypothesis (number / 16) (by omega) front
        have remainder := digitChar_injective (Nat.mod_lt _ (by decide)) (Nat.mod_lt _ (by decide))
          (List.cons.inj last).1
        omega

theorem isAlphanum_of_mem_toDigits {number : Nat} {char : Char}
    (mem : char ∈ Nat.toDigits 16 number) : char.isAlphanum = true := by
  have table : ∀ digit < 16, digit.digitChar.isAlphanum = true := by decide
  induction number using Nat.strongRecOn with
  | ind number inductionHypothesis =>
      by_cases single : number < 16
      · rw [Nat.toDigits_of_lt_base single, List.mem_singleton] at mem
        rw [mem]
        exact table number single
      · rw [Nat.toDigits_of_base_le (by decide) (Nat.le_of_not_lt single), List.mem_append,
          List.mem_singleton] at mem
        rcases mem with mem | rfl
        · exact inductionHypothesis (number / 16) (by omega) mem
        · exact table _ (Nat.mod_lt _ (by decide))

theorem plain_of_mem_codePoint {number : Nat} {char : Char}
    (mem : char ∈ '\x7b' :: (Nat.toDigits 16 number ++ ['\x7d'])) :
    char ≠ '"' ∧ char ≠ '\\' ∧ char ≠ '\n' := by
  rw [List.mem_cons, List.mem_append, List.mem_singleton] at mem
  rcases mem with rfl | digit | rfl
  · decide
  · have among := isAlphanum_of_mem_toDigits digit
    refine ⟨?_, ?_, ?_⟩
    all_goals
      rintro rfl
      exact absurd among (by decide)
  · decide

/-- The letters that stand for a character after a backslash. -/
inductive ShownBy : Char → Char → Prop where
  | quote : ShownBy '"' '"'
  | backslash : ShownBy '\\' '\\'
  | tab : ShownBy 't' '\t'
  | carriageReturn : ShownBy 'r' '\r'
  | lineFeed : ShownBy 'n' '\n'
  | null : ShownBy '0' '\x00'

theorem ShownBy.unique {letter char other : Char} (shown : ShownBy letter char)
    (shown' : ShownBy letter other) : char = other := by
  cases shown <;> cases shown' <;> rfl

/-- A character is shown by a letter, by its code point, or as itself. -/
theorem shown_cases (char : Char) :
    (∃ letter, ShownBy letter char ∧ shown char = ['\\', letter]) ∨
      shown char = '\\' :: 'u' :: '\x7b' :: (Nat.toDigits 16 char.toNat ++ ['\x7d']) ∨
      (char ≠ '"' ∧ char ≠ '\\' ∧ char ≠ '\n' ∧ shown char = [char]) := by
  unfold shown
  split
  next quote =>
    subst quote
    exact .inl ⟨_, .quote, rfl⟩
  split
  next backslash =>
    subst backslash
    exact .inl ⟨_, .backslash, rfl⟩
  split
  next tab =>
    subst tab
    exact .inl ⟨_, .tab, rfl⟩
  split
  next carriageReturn =>
    subst carriageReturn
    exact .inl ⟨_, .carriageReturn, rfl⟩
  split
  next lineFeed =>
    subst lineFeed
    exact .inl ⟨_, .lineFeed, rfl⟩
  split
  next null =>
    subst null
    exact .inl ⟨_, .null, rfl⟩
  next notQuote notBackslash _ _ notLineFeed _ =>
    split
    next => exact .inr (.inl rfl)
    next => exact .inr (.inr ⟨notQuote, notBackslash, notLineFeed, rfl⟩)

theorem codePoint_append_inj {number number' : Nat} {rest rest' : List Char}
    (same : Nat.toDigits 16 number ++ '\x7d' :: rest = Nat.toDigits 16 number' ++ '\x7d' :: rest') :
    number = number' ∧ rest = rest' := by
  have stops (rest : List Char) : ∀ char ∈ ('\x7d' :: rest).head?, char.isAlphanum = false := by
    simp
  obtain ⟨digits, rests⟩ := append_inj_of_all (fun _ => isAlphanum_of_mem_toDigits)
    (fun _ => isAlphanum_of_mem_toDigits) (stops rest) (stops rest') same
  exact ⟨toDigits_sixteen_injective digits, (List.cons.inj rests).2⟩

theorem shown_append_inj {char char' : Char} {rest rest' : List Char}
    (same : shown char ++ rest = shown char' ++ rest') : char = char' ∧ rest = rest' := by
  rcases shown_cases char with ⟨letter, named, written⟩ | written |
    ⟨notQuote, notBackslash, -, written⟩
  all_goals
    rcases shown_cases char' with ⟨letter', named', written'⟩ | written' |
      ⟨notQuote', notBackslash', -, written'⟩
  all_goals
    rw [written, written'] at same
    simp only [List.cons_append, List.nil_append, List.append_assoc, List.cons.injEq, true_and]
      at same
  · obtain ⟨rfl, rfl⟩ := same
    exact ⟨named.unique named', rfl⟩
  · obtain ⟨rfl, -⟩ := same
    cases named
  · exact absurd same.1.symm notBackslash'
  · obtain ⟨rfl, -⟩ := same
    cases named'
  · obtain ⟨points, rests⟩ := codePoint_append_inj same
    exact ⟨Char.toNat_inj.mp points, rests⟩
  · exact absurd same.1.symm notBackslash'
  · exact absurd same.1 notBackslash
  · exact absurd same.1 notBackslash
  · exact same

theorem head?_shown_ne_quote (char : Char) (rest : List Char) :
    (shown char ++ rest).head? ≠ some '"' := by
  rcases shown_cases char with ⟨letter, named, written⟩ | written |
    ⟨notQuote, notBackslash, -, written⟩
  all_goals rw [written]
  · simp
  · simp
  · simpa using notQuote

theorem lineFeed_notMem_shown (char : Char) : '\n' ∉ shown char := by
  rcases shown_cases char with ⟨letter, named, written⟩ | written |
    ⟨notQuote, notBackslash, notLineFeed, written⟩
  all_goals rw [written]
  · cases named <;> decide
  · have noDigit : '\n' ∉ Nat.toDigits 16 char.toNat := fun mem =>
      absurd (isAlphanum_of_mem_toDigits mem) (by decide)
    simp [noDigit]
  · simpa using notLineFeed.symm

theorem shownChars_inj {chars chars' rest rest' : List Char}
    (same : chars.foldr (fun char rest => shown char ++ rest) ('"' :: rest) =
      chars'.foldr (fun char rest => shown char ++ rest) ('"' :: rest')) :
    chars = chars' ∧ rest = rest' := by
  induction chars generalizing chars' with
  | nil =>
      cases chars' with
      | nil => exact ⟨rfl, (List.cons.inj same).2⟩
      | cons char' chars' =>
          exact absurd (congrArg List.head? same.symm) (head?_shown_ne_quote char' _)
  | cons char chars inductionHypothesis =>
      cases chars' with
      | nil => exact absurd (congrArg List.head? same) (head?_shown_ne_quote char _)
      | cons char' chars' =>
          obtain ⟨rfl, following⟩ := shown_append_inj same
          obtain ⟨rfl, rfl⟩ := inductionHypothesis following
          exact ⟨rfl, rfl⟩

theorem writeQuoted_inj {text text' : String} {rest rest' : List Char}
    (same : writeQuoted text rest = writeQuoted text' rest') : text = text' ∧ rest = rest' := by
  obtain ⟨chars, rests⟩ := shownChars_inj (List.cons.inj same).2
  exact ⟨String.toList_injective chars, rests⟩

end TigerTree
