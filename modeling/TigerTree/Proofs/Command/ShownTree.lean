import TigerTree.Proofs.Command.Refinement
import TigerTree.Proofs.Outline.Expr
import TigerTree.Proofs.Outline.Lines

set_option autoImplicit false

/-!
A tree that is shown can be told from what is shown.

Both forms of the outline of a tree are those of no other tree. The indented form has no empty
line, so it can be found again in what a command line prints in front of a value.
-/

namespace TigerTree

theorem outline_eq_iff {expr other : Expr} : expr.outline = other.outline ↔ expr = other :=
  Outline.ofExpr_eq_iff expr other

theorem inline_eq_iff {expr other : Expr} :
    expr.outline.inline = other.outline.inline ↔ expr = other := by
  rw [← outline_eq_iff]
  exact ⟨(Outline.regular_ofExpr expr).inline_inj (Outline.regular_ofExpr other),
    congrArg Outline.inline⟩

theorem indented_eq_iff {expr other : Expr} :
    expr.outline.indented = other.outline.indented ↔ expr = other := by
  rw [← outline_eq_iff]
  exact ⟨(Outline.regular_ofExpr expr).indented_inj (Outline.regular_ofExpr other),
    congrArg Outline.indented⟩

namespace Command

/-- The output of some command line that asks for the tree in its input to be shown. -/
def ShowsTree (output : String) (expr : Expr) : Prop :=
  ∃ arguments argument verbose bytes content,
    parse arguments = some (.run (.eval argument true) verbose) ∧
      bytes (.ofArgument argument) = .ok content ∧ Spells content expr ∧
      output = (respond arguments bytes).output

/-- The lines that show a tree. -/
def treeLines (expr : Expr) : List (List Char) :=
  "=== AST ===".toList :: linesOf expr.outline.indented.toList

variable {output output' : String} {expr other : Expr}

theorem empty_notMem_treeLines (expr : Expr) : [] ∉ treeLines expr := by
  rw [treeLines, List.mem_cons, not_or]
  exact ⟨by decide, (Outline.regular_ofExpr expr).empty_notMem_linesOf⟩

theorem treeLines_eq_iff : treeLines expr = treeLines other ↔ expr = other := by
  rw [← indented_eq_iff]
  constructor
  · intro same
    exact String.toList_injective (splitAtEach_injective '\n' (List.cons.inj same).2)
  · intro same
    rw [treeLines, same, treeLines]

theorem ShowsTree.output_eq (shows : ShowsTree output expr) :
    output = shownTree true expr ++ resultText (evaluate expr).result := by
  obtain ⟨arguments, argument, verbose, bytes, content, asked, readable, spells, rfl⟩ := shows
  rw [respond, asked]
  exact ((shows_perform readable).of_spells spells).2

theorem ShowsTree.linesOf_eq (shows : ShowsTree output expr) :
    linesOf output.toList =
      treeLines expr ++ [] :: linesOf (resultText (evaluate expr).result).toList := by
  have parts : output.toList = "=== AST ===".toList ++ '\n' :: (expr.outline.indented.toList ++
      '\n' :: ([] ++ '\n' :: (resultText (evaluate expr).result).toList)) := by
    rw [shows.output_eq, shownTree, if_pos rfl]
    simp
  have heading : splitAtEach '\n' "=== AST ===".toList = ["=== AST ===".toList] := by decide
  rw [parts, linesOf, splitAtEach_append_cons, splitAtEach_append_cons, splitAtEach_append_cons,
    heading]
  rfl

theorem ShowsTree.leadingLines_eq (shows : ShowsTree output expr) :
    leadingLines output.toList = treeLines expr := by
  have filled : ∀ line ∈ treeLines expr, !line.isEmpty := by
    rintro (_ | ⟨char, line⟩) mem
    · exact absurd mem (empty_notMem_treeLines expr)
    · rfl
  rw [leadingLines, shows.linesOf_eq, List.takeWhile_append_of_pos filled]
  exact List.append_nil _

/-- Each form of the outline of a tree, on one line or indented, is that of no other tree. The
indented form has no empty line, so what is printed of a tree that is to be shown ends at the first
empty line of the output, and no other tree is shown in the same way. -/
theorem outline_identifies (expr other : Expr) :
    (expr.outline.inline = other.outline.inline ↔ (expr == other) = true) ∧
      (expr.outline.indented = other.outline.indented ↔ (expr == other) = true) ∧
      [] ∉ linesOf expr.outline.indented.toList ∧
      ∀ output, ShowsTree output expr →
        leadingLines output.toList =
            "=== AST ===".toList :: linesOf expr.outline.indented.toList ∧
          (∃ after, linesOf output.toList = leadingLines output.toList ++ [] :: after) ∧
          ∀ output', ShowsTree output' other →
            (leadingLines output.toList = leadingLines output'.toList ↔
              (expr == other) = true) := by
  rw [beq_iff_eq]
  refine ⟨inline_eq_iff, indented_eq_iff,
    (Outline.regular_ofExpr expr).empty_notMem_linesOf, ?_⟩
  intro output shows
  refine ⟨shows.leadingLines_eq, ⟨_, shows.leadingLines_eq ▸ shows.linesOf_eq⟩, ?_⟩
  intro output' shows'
  rw [shows.leadingLines_eq, shows'.leadingLines_eq, treeLines_eq_iff]

/-- Line breaks in a text are not shown as such. -/
theorem outline_identifies_lineFeeds :
    ∃ output, ShowsTree output (.stringLiteral "\n\n") ∧
      leadingLines output.toList =
        ["=== AST ===", "StringLiteral(", "    StringLiteral \x7b",
          "        value: \"\\n\\n\",", "    \x7d,", ")"].map String.toList ∧
      ∀ output', ShowsTree output' (.stringLiteral "\n") →
        leadingLines output.toList ≠ leadingLines output'.toList := by
  have readable : inputs ⟨[]⟩ (Expr.stringLiteral "\n\n").encode.toUTF8 (.ofArgument "-") =
      .ok (Expr.stringLiteral "\n\n").encode.toUTF8 := rfl
  have spells : Spells (Expr.stringLiteral "\n\n").encode.toUTF8 (.stringLiteral "\n\n") :=
    ⟨_, rfl, decode_encode_normalized (.stringLiteral "\n\n")⟩
  have shows : ShowsTree _ (.stringLiteral "\n\n") :=
    ⟨_, _, _, _, _, parse_commandLine (by decide) true false, readable, spells, rfl⟩
  obtain ⟨-, -, -, identified⟩ := outline_identifies (.stringLiteral "\n\n") (.stringLiteral "\n")
  obtain ⟨leading, -, others⟩ := identified _ shows
  refine ⟨_, shows, leading.trans (by decide), fun output' shows' same => ?_⟩
  exact absurd ((others output' shows').mp same) (by simp)

end Command

end TigerTree
