import TigerTree.Proofs.Json.Writing

set_option autoImplicit false

/-!
Texts that are cut short.

What is written in front of a rest does not depend on the rest, so a cut falls either into what is
written or behind all of it. Where it falls into the digits of a number, digits of a number are
left.
-/

namespace TigerTree

/-- The text goes on behind `front`. -/
inductive Cut : List Char → List Char → Prop where
  | start {char : Char} {text : List Char} : Cut [] (char :: text)
  | cons {char : Char} {front text : List Char} :
      Cut front text → Cut (char :: front) (char :: text)

theorem cut_iff {front text : List Char} : Cut front text ↔ front <+: text ∧ front ≠ text := by
  constructor
  · intro cut
    induction cut with
    | start => exact ⟨List.nil_prefix, (List.cons_ne_nil _ _).symm⟩
    | cons _ inductionHypothesis =>
        obtain ⟨isPrefix, proper⟩ := inductionHypothesis
        exact ⟨List.cons_prefix_cons.mpr ⟨rfl, isPrefix⟩, by simpa using proper⟩
  · rintro ⟨⟨back, rfl⟩, proper⟩
    induction front with
    | nil =>
        obtain ⟨char, back, rfl⟩ := List.exists_cons_of_ne_nil (by simpa using proper)
        exact .start
    | cons char front inductionHypothesis =>
        exact .cons (inductionHypothesis (by simpa using proper))

theorem cut_append {front first second : List Char} (cut : Cut front (first ++ second)) :
    Cut front first ∨ ∃ more, front = first ++ more ∧ Cut more second := by
  induction first generalizing front with
  | nil => exact .inr ⟨front, rfl, cut⟩
  | cons char first inductionHypothesis =>
      cases cut with
      | start => exact .inl .start
      | cons cut =>
          rcases inductionHypothesis cut with within | ⟨more, rfl, behind⟩
          · exact .inl (.cons within)
          · exact .inr ⟨more, rfl, behind⟩

/-- A cut falls into what is written in front of a text, or behind it. -/
theorem cut_written (write : List Char → List Char)
    (append : ∀ rest more, write (rest ++ more) = write rest ++ more) (rest : List Char)
    {front after : List Char} (cut : Cut front (write (rest ++ after))) :
    Cut front (write rest) ∨ ∃ more, front = write (rest ++ more) ∧ Cut more after := by
  rw [append] at cut
  rcases cut_append cut with within | ⟨more, rfl, behind⟩
  · exact .inl within
  · exact .inr ⟨more, (append rest more).symm, behind⟩

namespace Json

theorem writeChars_append (chars rest more : List Char) :
    writeChars chars (rest ++ more) = writeChars chars rest ++ more := by
  induction chars with
  | nil => rfl
  | cons char chars inductionHypothesis =>
      calc writeChars (char :: chars) (rest ++ more)
        _ = escaped char ++ writeChars chars (rest ++ more) := rfl
        _ = escaped char ++ (writeChars chars rest ++ more) := by rw [inductionHypothesis]
        _ = writeChars (char :: chars) rest ++ more := (List.append_assoc ..).symm

theorem writeText_append (text : String) (rest more : List Char) :
    writeText text (rest ++ more) = writeText text rest ++ more :=
  congrArg ('"' :: ·) (writeChars_append text.toList ('"' :: rest) more)

mutual

theorem write_append (rest more : List Char) : (value : Json) →
    value.write (rest ++ more) = value.write rest ++ more
  | null => rfl
  | number _ => (List.append_assoc ..).symm
  | text value => writeText_append value rest more
  | array items => congrArg ('[' :: ·) (writeItems_append (']' :: rest) more true items)
  | object members =>
      congrArg ('\x7b' :: ·) (writeMembers_append ('\x7d' :: rest) more true members)

theorem writeItems_append (rest more : List Char) : (first : Bool) → (items : List Json) →
    writeItems first items (rest ++ more) = writeItems first items rest ++ more
  | true, [] | false, [] => rfl
  | true, item :: items => by
      rw [writeItems, writeItems_append rest more false items, write_append _ more item, writeItems]
  | false, item :: items => by
      rw [writeItems, writeItems_append rest more false items, write_append _ more item, writeItems,
        List.cons_append]

theorem writeMembers_append (rest more : List Char) :
    (first : Bool) → (members : List (String × Json)) →
    writeMembers first members (rest ++ more) = writeMembers first members rest ++ more
  | true, [] | false, [] => rfl
  | true, (key, value) :: members => by
      rw [writeMembers, writeMembers_append rest more false members, write_append _ more value,
        ← List.cons_append, writeText_append, writeMembers]
  | false, (key, value) :: members => by
      rw [writeMembers, writeMembers_append rest more false members, write_append _ more value,
        ← List.cons_append, writeText_append, writeMembers, List.cons_append]

end

theorem cut_write {value : Json} {front after : List Char} (cut : Cut front (value.write after)) :
    Cut front (value.write []) ∨ ∃ more, front = value.write more ∧ Cut more after :=
  cut_written value.write (fun rest more => write_append rest more value) [] cut

theorem cut_writeChars {chars front after : List Char}
    (cut : Cut front (writeChars chars ('"' :: after))) :
    Cut front (writeChars chars ['"']) ∨
      ∃ more, front = writeChars chars ('"' :: more) ∧ Cut more after :=
  cut_written (writeChars chars) (writeChars_append chars) ['"'] cut

/-- Digits from the front of a number are a number that is no greater, and zero only if that is. -/
theorem exists_of_prefix_toDigits {number : Nat} {front : List Char}
    (isPrefix : front <+: Nat.toDigits 10 number) (nonempty : front ≠ []) :
    ∃ smaller ≤ number, front = Nat.toDigits 10 smaller ∧ (number ≠ 0 → smaller ≠ 0) := by
  induction number using Nat.strongRecOn with
  | ind number inductionHypothesis =>
      by_cases single : number < 10
      · refine ⟨number, Nat.le_refl _, ?_, id⟩
        rw [Nat.toDigits_of_lt_base single] at isPrefix ⊢
        rcases List.prefix_cons_iff.mp isPrefix with rfl | ⟨others, rfl, noMore⟩
        · exact absurd rfl nonempty
        · rw [List.prefix_nil.mp noMore]
      · have large : 10 ≤ number := Nat.le_of_not_lt single
        rw [Nat.toDigits_of_base_le (by decide) large, List.prefix_concat_iff] at isPrefix
        rcases isPrefix with rfl | isPrefix
        · exact ⟨number, Nat.le_refl _, (Nat.toDigits_of_base_le (by decide) large).symm, id⟩
        · obtain ⟨smaller, le, rfl, nonzero⟩ :=
            inductionHypothesis (number / 10) (by omega) isPrefix
          exact ⟨smaller, by omega, rfl, fun _ => nonzero (by omega)⟩

end Json

end TigerTree
