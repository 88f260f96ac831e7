import TigerTree.Text.Split

set_option autoImplicit false

/-!
The lines of a text, and which texts have no empty line.
-/

namespace TigerTree

theorem splitAtEach_eq_splitOn (separator : Char) (text : List Char) :
    splitAtEach separator text = text.splitOn separator := by
  induction text with
  | nil => rfl
  | cons char text inductionHypothesis =>
      rw [splitAtEach, List.splitOn, List.splitOnP_cons_eq_if_modifyHead, ← List.splitOn,
        ← inductionHypothesis]
      by_cases isSeparator : char = separator
      · simp [isSeparator]
      · simp only [isSeparator, beq_iff_eq, if_false]
        cases parts : splitAtEach separator text with
        | nil =>
            rw [parts] at inductionHypothesis
            exact absurd inductionHypothesis.symm (List.splitOnP_ne_nil _ _)
        | cons part parts => rfl

theorem splitAtEach_append_cons (separator : Char) (front back : List Char) :
    splitAtEach separator (front ++ separator :: back) =
      splitAtEach separator front ++ splitAtEach separator back := by
  simp only [splitAtEach_eq_splitOn]
  exact List.splitOnP_append_cons front back (beq_self_eq_true separator)

theorem intercalate_append_cons (separator : Char) (earlier later : List (List Char))
    (part : List Char) :
    [separator].intercalate (earlier ++ part :: later) =
      earlier.flatMap (· ++ [separator]) ++ [separator].intercalate (part :: later) := by
  induction earlier with
  | nil => rfl
  | cons first earlier inductionHypothesis =>
      rw [List.cons_append, List.intercalate_cons_of_ne_nil (by simp), inductionHypothesis,
        List.flatMap_cons, List.append_assoc (first ++ [separator])]

theorem splitAtEach_injective (separator : Char) : Function.Injective (splitAtEach separator) := by
  intro text other same
  have joined := congrArg (List.intercalate [separator]) same
  simpa only [splitAtEach_eq_splitOn, List.intercalate_splitOn] using joined

theorem notMem_of_mem_splitAtEach {separator : Char} {text : List Char} :
    ∀ part ∈ splitAtEach separator text, separator ∉ part := by
  induction text with
  | nil => exact List.forall_mem_singleton.mpr List.not_mem_nil
  | cons char text inductionHypothesis =>
      rw [splitAtEach]
      split
      next => exact List.forall_mem_cons.mpr ⟨List.not_mem_nil, inductionHypothesis⟩
      next other =>
        have single : separator ∉ [char] :=
          List.not_mem_cons_of_ne_of_not_mem (Ne.symm other) List.not_mem_nil
        cases parts : splitAtEach separator text with
        | nil => exact List.forall_mem_singleton.mpr single
        | cons part parts =>
            rw [parts] at inductionHypothesis
            obtain ⟨first, others⟩ := List.forall_mem_cons.mp inductionHypothesis
            refine List.forall_mem_cons.mpr ⟨?_, others⟩
            exact List.not_mem_cons_of_ne_of_not_mem (Ne.symm other) first

def linesOf (text : List Char) : List (List Char) := splitAtEach '\n' text

/-- A text in two parts, in front of one of its lines and from there. -/
theorem eq_of_linesOf_eq {text line : List Char} {earlier later : List (List Char)}
    (split : linesOf text = earlier ++ line :: later) :
    text = earlier.flatMap (· ++ ['\n']) ++ ['\n'].intercalate (line :: later) := by
  rw [← intercalate_append_cons, ← split, linesOf, splitAtEach_eq_splitOn,
    List.intercalate_splitOn]

/-- The lines in front of the first empty one. -/
def leadingLines (text : List Char) : List (List Char) :=
  (linesOf text).takeWhile fun line => !line.isEmpty

/-- Every line has a character in it; if `started`, the first has one already. -/
def LinesFilled : Bool → List Char → Prop
  | started, [] => started = true
  | started, char :: text =>
      if char = '\n' then started = true ∧ LinesFilled false text else LinesFilled true text

namespace LinesFilled

variable {started : Bool} {text : List Char}

theorem exists_linesOf (filled : LinesFilled started text) :
    ∃ first more, linesOf text = first :: more ∧ (started = false → first ≠ []) ∧ [] ∉ more := by
  induction text generalizing started with
  | nil => exact ⟨[], [], rfl, fun unstarted => absurd filled (by simp [LinesFilled, unstarted]),
      List.not_mem_nil⟩
  | cons char text inductionHypothesis =>
      rw [LinesFilled] at filled
      split at filled
      next lineFeed =>
        obtain ⟨rfl, filled⟩ := filled
        obtain ⟨first, more, split, notEmpty, others⟩ := inductionHypothesis filled
        refine ⟨[], linesOf text, by simp [linesOf, splitAtEach, lineFeed], nofun, ?_⟩
        rw [split, List.mem_cons, not_or]
        exact ⟨(notEmpty rfl).symm, others⟩
      next within =>
        obtain ⟨first, more, split, -, others⟩ := inductionHypothesis filled
        refine ⟨char :: first, more, ?_, fun _ => List.cons_ne_nil _ _, others⟩
        rw [linesOf] at split ⊢
        simp [splitAtEach, within, split]

theorem empty_notMem_linesOf (filled : LinesFilled false text) : [] ∉ linesOf text := by
  obtain ⟨first, more, split, notEmpty, others⟩ := filled.exists_linesOf
  rw [split, List.mem_cons, not_or]
  exact ⟨(notEmpty rfl).symm, others⟩

theorem start (filled : LinesFilled false text) : LinesFilled true text := by
  cases text with
  | nil => rfl
  | cons char text =>
      rw [LinesFilled] at filled ⊢
      split at filled
      next => exact absurd filled.1 Bool.false_ne_true
      next within => rwa [if_neg within]

theorem append {chars : List Char} (within : '\n' ∉ chars) (filled : LinesFilled true text) :
    LinesFilled true (chars ++ text) := by
  induction chars with
  | nil => exact filled
  | cons char chars inductionHypothesis =>
      rw [List.mem_cons, not_or] at within
      rw [List.cons_append, LinesFilled, if_neg (Ne.symm within.1)]
      exact inductionHypothesis within.2

theorem cons {char : Char} (within : char ≠ '\n') (filled : LinesFilled true text) :
    LinesFilled started (char :: text) := by
  rw [LinesFilled, if_neg within]
  exact filled

end LinesFilled

end TigerTree
