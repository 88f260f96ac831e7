import TigerTree.Proofs.Outline.Expr
import TigerTree.Proofs.Outline.Lines
import TigerTree.Proofs.Text.Brackets

set_option autoImplicit false

/-!
The two forms of an outline differ in layout only.

Put on one line, the indented form is the form on one line. The indentation of each of its lines
is given by the brackets that are open there: the depth at which a part is written is their number.
-/

namespace TigerTree

namespace Outline

open Reading (Aligned)

variable {opened : List Bracket} {rest : List Char}

theorem plain_of_isNameChar {char : Char} (among : isNameChar char = true) :
    char ∉ '\n' :: Bracket.marks := by
  intro mem
  simp only [Bracket.marks, List.mem_cons, List.not_mem_nil, or_false] at mem
  rcases mem with rfl | rfl | rfl | rfl | rfl | rfl | rfl | rfl
  all_goals exact absurd among (by decide)

theorem aligned_name {name : String} (named : isName name = true)
    (aligned : Aligned ⟨.outside, opened⟩ rest) :
    Aligned ⟨.outside, opened⟩ (name.toList ++ rest) :=
  .append_plain (fun char mem => plain_of_isNameChar (isNameChar_of_isName named char mem)) aligned

theorem aligned_label {name : String} (named : isName name = true)
    (aligned : Aligned ⟨.outside, opened⟩ rest) :
    Aligned ⟨.outside, opened⟩ (name.toList ++ ": ".toList ++ rest) := by
  rw [List.append_assoc]
  exact aligned_name named (.append_plain (by simp [Bracket.marks]) aligned)

/-- Characters in quotes that have no meaning there. -/
theorem aligned_inside {chars : List Char}
    (plain : ∀ char ∈ chars, char ≠ '"' ∧ char ≠ '\\' ∧ char ≠ '\n')
    (aligned : Aligned ⟨.inside, opened⟩ rest) : Aligned ⟨.inside, opened⟩ (chars ++ rest) := by
  induction chars with
  | nil => exact aligned
  | cons char chars inductionHypothesis =>
      rw [List.forall_mem_cons] at plain
      obtain ⟨⟨notQuote, notBackslash, within⟩, plain⟩ := plain
      refine .cons within ?_
      rw [Reading.read, if_neg notQuote, if_neg notBackslash]
      exact inductionHypothesis plain

theorem aligned_escape {letter : Char} (within : letter ≠ '\n')
    (aligned : Aligned ⟨.inside, opened⟩ rest) :
    Aligned ⟨.inside, opened⟩ ('\\' :: letter :: rest) :=
  .cons (by decide) (.cons within aligned)

theorem aligned_shown (char : Char) (aligned : Aligned ⟨.inside, opened⟩ rest) :
    Aligned ⟨.inside, opened⟩ (shown char ++ rest) := by
  have oneLine := lineFeed_notMem_shown char
  rcases shown_cases char with ⟨letter, named, written⟩ | written |
    ⟨notQuote, notBackslash, within, written⟩
  all_goals rw [written] at oneLine ⊢
  · have within : letter ≠ '\n' := fun lineFeed => oneLine (by simp [lineFeed])
    exact aligned_escape within aligned
  · exact aligned_escape (by decide) (aligned_inside (fun _ => plain_of_mem_codePoint) aligned)
  · exact aligned_inside (by simp [notQuote, notBackslash, within]) aligned

theorem aligned_writeQuoted (text : String) (aligned : Aligned ⟨.outside, opened⟩ rest) :
    Aligned ⟨.outside, opened⟩ (writeQuoted text rest) := by
  have quoting (chars : List Char) : Aligned ⟨.inside, opened⟩
      (chars.foldr (fun char rest => shown char ++ rest) ('"' :: rest)) := by
    induction chars with
    | nil => exact .cons (by decide) aligned
    | cons char chars inductionHypothesis => exact aligned_shown char inductionHypothesis
  exact .cons (by decide) (quoting text.toList)

/-- A line that starts with a character which leaves as many brackets open as it is deep. -/
theorem aligned_newline {depth : Nat} {char : Char} (solid : char ≠ ' ')
    (deep : (Bracket.close char opened).length = depth)
    (aligned : Aligned ⟨.outside, opened⟩ (char :: rest)) :
    Aligned ⟨.outside, opened⟩ (newline depth (char :: rest)) := by
  have lineFeed : Reading.read ⟨.outside, opened⟩ '\n' = ⟨.outside, opened⟩ :=
    Reading.read_plain opened (by decide)
  rw [newline, Aligned, lineFeed]
  constructor
  · intro _
    rw [Reading.Indents, indentation_blanks _ solid, Reading.openedAt_blanks,
      Reading.openedAt_solid _ solid, deep]
  · exact .append_plain (by simp [Bracket.marks]) aligned

/-- A part of an outline on a line of its own. -/
theorem aligned_part (opens : Opens rest) (aligned : Aligned ⟨.outside, opened⟩ rest) :
    Aligned ⟨.outside, opened⟩ (newline opened.length rest) := by
  obtain ⟨char, text, rfl, opens⟩ := opens
  have notClosing (bracket : Bracket) : char ≠ bracket.closing := by
    refine opensOutline_ne opens bracket.closing ?_
    cases bracket <;> decide
  exact aligned_newline (opensOutline_ne opens ' ' (by decide))
    (congrArg List.length (Bracket.close_of_ne notClosing opened)) aligned

theorem aligned_comma (aligned : Aligned ⟨.outside, opened⟩ rest) :
    Aligned ⟨.outside, opened⟩ (',' :: rest) :=
  .cons_plain (by decide) aligned

theorem aligned_opening (bracket : Bracket) (aligned : Aligned ⟨.outside, bracket :: opened⟩ rest) :
    Aligned ⟨.outside, opened⟩ (bracket.opening :: rest) := by
  refine .cons (bracket.opening_ne (by decide)) ?_
  rwa [Reading.read_opening]

theorem aligned_closing (bracket : Bracket) (aligned : Aligned ⟨.outside, opened⟩ rest) :
    Aligned ⟨.outside, bracket :: opened⟩ (bracket.closing :: rest) := by
  refine .cons (bracket.closing_ne (by decide)) ?_
  rwa [Reading.read_closing]

/-- A closing bracket on a line of its own. -/
theorem aligned_closing_line (bracket : Bracket) (aligned : Aligned ⟨.outside, opened⟩ rest) :
    Aligned ⟨.outside, bracket :: opened⟩ (newline opened.length (bracket.closing :: rest)) := by
  have closed : Bracket.close bracket.closing (bracket :: opened) = opened := if_pos rfl
  exact aligned_newline (bracket.closing_ne (by decide)) (congrArg List.length closed)
    (aligned_closing bracket aligned)

-- Texts are written from the back: what closes an outline is aligned first, then its parts.

mutual

theorem Regular.aligned {outline : Outline} (regular : outline.Regular) (opened : List Bracket)
    {rest : List Char} (aligned : Aligned ⟨.outside, opened⟩ rest) :
    Aligned ⟨.outside, opened⟩ (outline.writeIndented opened.length rest) := by
  match regular with
  | .word named => exact aligned_name named aligned
  | .quoted => exact aligned_writeQuoted _ aligned
  | .apply named regular =>
      have closing := aligned_closing_line .parenthesis aligned
      have argument := regular.aligned (.parenthesis :: opened) (aligned_comma closing)
      have part := aligned_part (regular.opens_writeIndented _ _) argument
      exact aligned_name named (aligned_opening .parenthesis part)
  | .record named regular =>
      have closing := aligned_closing_line .brace aligned
      have fields := regular.aligned (.brace :: opened) closing
      rw [writeIndented, List.append_assoc]
      exact aligned_name named (.cons_plain (by decide) (aligned_opening .brace fields))
  | .list .nil => exact aligned_opening .square (aligned_closing .square aligned)
  | .list (.cons regular others) =>
      have closing := aligned_closing_line .square aligned
      have items := others.aligned (.square :: opened) closing
      have item := regular.aligned (.square :: opened) (aligned_comma items)
      have part := aligned_part (regular.opens_writeIndented _ _) item
      exact aligned_opening .square part

theorem RegularFields.aligned {fields : List (String × Outline)} (regular : RegularFields fields)
    (opened : List Bracket) {rest : List Char} (aligned : Aligned ⟨.outside, opened⟩ rest) :
    Aligned ⟨.outside, opened⟩ (writeIndentedFields opened.length fields rest) := by
  match regular with
  | .nil => exact aligned
  | .cons named regular others =>
      have value := regular.aligned opened (aligned_comma (others.aligned opened aligned))
      exact aligned_part (opens_label named _) (aligned_label named value)

theorem RegularItems.aligned {items : List Outline} (regular : RegularItems items)
    (opened : List Bracket) {rest : List Char} (aligned : Aligned ⟨.outside, opened⟩ rest) :
    Aligned ⟨.outside, opened⟩ (writeIndentedItems opened.length items rest) := by
  match regular with
  | .nil => exact aligned
  | .cons regular others =>
      have item := regular.aligned opened (aligned_comma (others.aligned opened aligned))
      exact aligned_part (regular.opens_writeIndented _ _) item

end

variable {outline : Outline}

theorem Regular.flatten_indented (regular : outline.Regular) :
    flatten false outline.indented.toList = outline.inline.toList := by
  rw [indented, inline, String.toList_ofList, String.toList_ofList, regular.flatten_writeIndented,
    flatten]

theorem Regular.indents_line (regular : outline.Regular) {earlier later : List (List Char)}
    {line : List Char} (split : linesOf outline.indented.toList = earlier ++ line :: later) :
    (Reading.ofText (earlier.flatMap (· ++ ['\n']))).Indents line := by
  rw [indented, String.toList_ofList] at split
  have aligned : Aligned ⟨.outside, []⟩ (outline.writeIndented 0 []) := regular.aligned [] trivial
  have first : Reading.Indents ⟨.outside, []⟩ (outline.writeIndented 0 []) := by
    obtain ⟨char, rest, written, opens⟩ := regular.opens_writeIndented 0 []
    have solid := opensOutline_ne opens ' ' (by decide)
    rw [written, Reading.Indents, Reading.openedAt_solid _ solid]
    exact indentation_blanks 0 solid rest
  exact aligned.indents_line first split

end Outline

/-- The two forms in which a tree is shown differ in layout only: the indented form, put on one
line, is the form on one line, and each of its lines is indented by the brackets open there. -/
theorem indented_layout (expr : Expr) :
    Outline.flatten false expr.outline.indented.toList = expr.outline.inline.toList ∧
      ∀ earlier line later, linesOf expr.outline.indented.toList = earlier ++ line :: later →
        indentation line =
          4 * ((Reading.ofText (earlier.flatMap (· ++ ['\n']))).openedAt line).length := by
  have regular := Outline.regular_ofExpr expr
  exact ⟨regular.flatten_indented, fun earlier line later split => regular.indents_line split⟩

/-- A bracket, a quote and a line break in quoted text. -/
theorem indented_layout_quoted :
    linesOf (Expr.outline (.stringLiteral "[\"\n")).indented.toList =
        ["StringLiteral(", "    StringLiteral \x7b", "        value: \"[\\\"\\n\","].map
          String.toList ++ "    \x7d,".toList :: [")".toList] ∧
      Reading.openedAt
        (.ofText "StringLiteral(\n    StringLiteral \x7b\n        value: \"[\\\"\\n\",\n".toList)
        "    \x7d,".toList = [.parenthesis] ∧
      indentation "    \x7d,".toList = 4 * [Bracket.parenthesis].length := by
  have split : linesOf (Expr.outline (.stringLiteral "[\"\n")).indented.toList =
      ["StringLiteral(", "    StringLiteral \x7b", "        value: \"[\\\"\\n\","].map
        String.toList ++ "    \x7d,".toList :: [")".toList] := by decide
  exact ⟨split, by decide, (indented_layout _).2 _ _ _ split⟩

end TigerTree
