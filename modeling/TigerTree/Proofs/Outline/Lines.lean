import TigerTree.Proofs.Outline.Inline
import TigerTree.Proofs.Text.Lines

set_option autoImplicit false

/-!
Indented outlines have no empty line.

Quoted text has no line breaks, and after every line break in the layout stands a name, a quote or
a bracket.
-/

namespace TigerTree.Outline

theorem linesFilled_newline (depth : Nat) {text : List Char} (filled : LinesFilled false text) :
    LinesFilled true (newline depth text) := by
  rw [newline, LinesFilled, if_pos rfl]
  refine ⟨rfl, ?_⟩
  cases count : 4 * depth with
  | zero => exact filled
  | succ count =>
      rw [List.replicate_succ, List.cons_append]
      exact .cons (by decide) (.append (by simp) filled.start)

theorem linesFilled_of_opens {text : List Char} (opens : Opens text)
    (filled : LinesFilled true text) : LinesFilled false text := by
  obtain ⟨char, rest, rfl, opens⟩ := opens
  have within := opensOutline_ne opens '\n' (by decide)
  rw [LinesFilled, if_neg within] at filled ⊢
  exact filled

/-- A part of an outline on a line of its own. -/
theorem linesFilled_part (depth : Nat) {text : List Char} (opens : Opens text)
    (filled : LinesFilled true text) : LinesFilled true (newline depth text) :=
  linesFilled_newline depth (linesFilled_of_opens opens filled)

theorem linesFilled_comma {rest : List Char} (filled : LinesFilled true rest) :
    LinesFilled true (',' :: rest) :=
  .cons (by decide) filled

theorem linesFilled_closing (depth : Nat) (bracket : Char) (within : bracket ≠ '\n')
    {rest : List Char} (filled : LinesFilled true rest) :
    LinesFilled true (newline depth (bracket :: rest)) :=
  linesFilled_newline depth (.cons within filled)

theorem lineFeed_notMem_name {name : String} (named : isName name = true) : '\n' ∉ name.toList :=
  fun mem => absurd (isNameChar_of_isName named _ mem) (by decide)

theorem linesFilled_writeQuoted (text : String) {rest : List Char}
    (filled : LinesFilled true rest) : LinesFilled true (writeQuoted text rest) := by
  refine .cons (by decide) ?_
  induction text.toList with
  | nil => exact .cons (by decide) filled
  | cons char chars inductionHypothesis =>
      exact .append (lineFeed_notMem_shown char) inductionHypothesis

theorem linesFilled_label {name : String} (named : isName name = true) {text : List Char}
    (filled : LinesFilled true text) : LinesFilled true (name.toList ++ ": ".toList ++ text) := by
  rw [List.append_assoc]
  exact .append (lineFeed_notMem_name named) (.append (by decide) filled)

mutual

theorem Regular.linesFilled {outline : Outline} (regular : outline.Regular) (depth : Nat)
    {rest : List Char} (filled : LinesFilled true rest) :
    LinesFilled true (outline.writeIndented depth rest) := by
  match regular with
  | .word named => exact .append (lineFeed_notMem_name named) filled
  | .quoted => exact linesFilled_writeQuoted _ filled
  | .apply named regular =>
      have closing := linesFilled_closing depth ')' (by decide) filled
      have argument := regular.linesFilled (depth + 1) (linesFilled_comma closing)
      exact .append (lineFeed_notMem_name named)
        (.cons (by decide) (linesFilled_part _ (regular.opens_writeIndented _ _) argument))
  | .record named regular =>
      have closing := linesFilled_closing depth '\x7d' (by decide) filled
      rw [writeIndented, List.append_assoc]
      exact .append (lineFeed_notMem_name named)
        (.append (by decide) (regular.linesFilled (depth + 1) closing))
  | .list .nil => exact .cons (by decide) (.cons (by decide) filled)
  | .list (.cons regular others) =>
      have closing := linesFilled_closing depth ']' (by decide) filled
      have items := others.linesFilled (depth + 1) closing
      have item := regular.linesFilled (depth + 1) (linesFilled_comma items)
      exact .cons (by decide) (linesFilled_part _ (regular.opens_writeIndented _ _) item)

theorem RegularFields.linesFilled {fields : List (String × Outline)}
    (regular : RegularFields fields) (depth : Nat) {rest : List Char}
    (filled : LinesFilled true rest) :
    LinesFilled true (writeIndentedFields depth fields rest) := by
  match regular with
  | .nil => exact filled
  | .cons named regular others =>
      have value := regular.linesFilled depth (linesFilled_comma (others.linesFilled depth filled))
      exact linesFilled_part depth (opens_label named _) (linesFilled_label named value)

theorem RegularItems.linesFilled {items : List Outline} (regular : RegularItems items)
    (depth : Nat) {rest : List Char} (filled : LinesFilled true rest) :
    LinesFilled true (writeIndentedItems depth items rest) := by
  match regular with
  | .nil => exact filled
  | .cons regular others =>
      have item := regular.linesFilled depth (linesFilled_comma (others.linesFilled depth filled))
      exact linesFilled_part depth (regular.opens_writeIndented _ _) item

end

theorem Regular.empty_notMem_linesOf {outline : Outline} (regular : outline.Regular) :
    [] ∉ linesOf outline.indented.toList := by
  rw [indented, String.toList_ofList]
  exact (linesFilled_of_opens (regular.opens_writeIndented 0 [])
    (regular.linesFilled 0 rfl)).empty_notMem_linesOf

end TigerTree.Outline
