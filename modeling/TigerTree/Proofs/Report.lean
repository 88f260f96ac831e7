import TigerTree.Proofs.Text.Filled
import TigerTree.Reporter

set_option autoImplicit false

/-!
What reports hold.

In front of a report is its code. Its message, its cause and its help follow, each on lines of its
own that are filled to what a margin leaves of them. What a reporter emits is a report for each
error, and no line of it is wider than a page.
-/

namespace TigerTree

/-- A text of whole lines, each of at most a number of columns. -/
def Rows (limit : Nat) (text : String) : Prop :=
  ∃ rows : List (List Char), text.toList = rows.flatMap (· ++ ['\n']) ∧
    ∀ row ∈ rows, '\n' ∉ row ∧ columns row ≤ limit

namespace Rows

variable {limit : Nat} {front back : String}

theorem empty : Rows limit "" := ⟨[], rfl, fun _ mem => absurd mem List.not_mem_nil⟩

theorem append (frontRows : Rows limit front) (backRows : Rows limit back) :
    Rows limit (front ++ back) := by
  obtain ⟨rows, frontEq, frontWithin⟩ := frontRows
  obtain ⟨rows', backEq, backWithin⟩ := backRows
  refine ⟨rows ++ rows', ?_, List.forall_mem_append.mpr ⟨frontWithin, backWithin⟩⟩
  rw [String.toList_append, frontEq, backEq, List.flatMap_append]

theorem join {texts : List String} (rows : ∀ text ∈ texts, Rows limit text) :
    Rows limit (String.join texts) := by
  induction texts with
  | nil => exact empty
  | cons text texts inductionHypothesis =>
      obtain ⟨here, others⟩ := List.forall_mem_cons.mp rows
      rw [String.join_cons]
      exact here.append (inductionHypothesis others)

/-- A text that has no line feed, on a line of its own. -/
theorem line (within : columns front.toList ≤ limit) (plain : '\n' ∉ front.toList) :
    Rows limit (front ++ "\n") :=
  ⟨[front.toList], by simp, List.forall_mem_singleton.mpr ⟨plain, within⟩⟩

end Rows

namespace Report

/-- A text on lines of its own. A mark stands in front of the first and a margin in front of each
other one, and the lines are filled to what the margin leaves of a page. -/
def Hangs (mark margin text block : String) : Prop :=
  ∃ lines, FillsText (lineColumns - margin.length) lines text ∧
    block = mark ++ ("\n" ++ margin).intercalate lines ++ "\n"

/-- A part that is left out if there is no text for it. -/
def MayHang (mark margin : String) : Option String → String → Prop
  | some text, block => Hangs mark margin text block
  | none, block => block = ""

/-- The code in front, behind it the message, the cause and the help, and then an empty line. -/
def Holds (report : Report) (shown : String) : Prop :=
  ∃ message cause help, Hangs "  × " "  │ " report.message message ∧
    MayHang "  ╰─▶ " "      " report.cause cause ∧
    MayHang "  help: " "        " report.help help ∧
    shown = report.code.elim "" (· ++ "\n\n") ++ message ++ cause ++ help ++ "\n"

/-- A mark and a margin that take as many columns as the margin has characters, which leaves room
for a text. -/
structure Sets (mark margin : String) : Prop where
  mark_columns : columns mark.toList = margin.length
  margin_columns : columns margin.toList = margin.length
  mark_plain : '\n' ∉ mark.toList
  margin_plain : '\n' ∉ margin.toList
  room : margin.length + 2 ≤ lineColumns

theorem sets_message : Sets "  × " "  │ " := by
  constructor
  all_goals decide +kernel

theorem sets_cause : Sets "  ╰─▶ " "      " := by
  constructor
  all_goals decide +kernel

theorem sets_help : Sets "  help: " "        " := by
  constructor
  all_goals decide +kernel

variable {mark margin : String}

theorem hangs_hang (sets : Sets mark margin) (text : String) :
    Hangs mark margin text (hang mark margin text) :=
  ⟨_, fillsText_fillParagraphs (Nat.le_sub_of_add_le' sets.room) text, rfl⟩

theorem mayHang_hang (sets : Sets mark margin) (text : Option String) :
    MayHang mark margin text ((text.map (hang mark margin)).getD "") := by
  cases text with
  | none => rfl
  | some text => exact hangs_hang sets text

theorem holds_render (report : Report) : report.Holds report.render := by
  refine ⟨_, _, _, hangs_hang sets_message report.message, mayHang_hang sets_cause report.cause,
    mayHang_hang sets_help report.help, ?_⟩
  rw [render]
  cases report.code with
  | none => rfl
  | some code => rfl

theorem rows_intercalate {limit : Nat} {lines : List String}
    (first : columns mark.toList ≤ limit) (plain : '\n' ∉ mark.toList)
    (marginPlain : '\n' ∉ margin.toList)
    (within : ∀ line ∈ lines, '\n' ∉ line.toList ∧
      columns mark.toList + columns line.toList ≤ limit ∧
      columns margin.toList + columns line.toList ≤ limit) :
    Rows limit (mark ++ ("\n" ++ margin).intercalate lines ++ "\n") := by
  induction lines generalizing mark with
  | nil =>
      rw [String.intercalate_nil, String.append_empty]
      exact .line first plain
  | cons line lines inductionHypothesis =>
      obtain ⟨⟨linePlain, markWithin, marginWithin⟩, within⟩ := List.forall_mem_cons.mp within
      have row : Rows limit (mark ++ line ++ "\n") := by
        apply Rows.line
        · rwa [String.toList_append, columns_append]
        · rw [String.toList_append, List.mem_append, not_or]
          exact ⟨plain, linePlain⟩
      cases lines with
      | nil => rwa [String.intercalate_singleton]
      | cons next lines =>
          have others := inductionHypothesis (by omega) marginPlain
            fun line mem => ⟨(within line mem).1, (within line mem).2.2, (within line mem).2.2⟩
          rw [String.intercalate_cons_cons]
          simpa only [String.append_assoc] using row.append others

theorem Hangs.rows (sets : Sets mark margin) {text block : String}
    (hangs : Hangs mark margin text block) : Rows lineColumns block := by
  obtain ⟨lines, fills, rfl⟩ := hangs
  obtain ⟨markColumns, marginColumns, markPlain, marginPlain, room⟩ := sets
  refine rows_intercalate (by omega) markPlain marginPlain ?_
  intro line mem
  obtain ⟨plain, within⟩ := fills.within line mem
  exact ⟨plain, by omega, by omega⟩

theorem MayHang.rows (sets : Sets mark margin) {text : Option String} {block : String}
    (hangs : MayHang mark margin text block) : Rows lineColumns block := by
  cases text with
  | none =>
      rw [show block = "" from hangs]
      exact .empty
  | some text => exact Hangs.rows sets hangs

theorem Holds.rows {report : Report} {shown : String} (holds : report.Holds shown)
    (code : ∀ code ∈ report.code, columns code.toList ≤ lineColumns ∧ '\n' ∉ code.toList) :
    Rows lineColumns shown := by
  obtain ⟨message, cause, help, message', cause', help', rfl⟩ := holds
  have front : Rows lineColumns (report.code.elim "" (· ++ "\n\n")) := by
    cases given : report.code with
    | none => exact .empty
    | some text =>
        obtain ⟨within, plain⟩ := code text given
        have rows : Rows lineColumns (text ++ "\n" ++ ("" ++ "\n")) :=
          (Rows.line within plain).append (.line (Nat.zero_le _) List.not_mem_nil)
        rwa [String.append_assoc] at rows
  have ended : Rows lineColumns ("" ++ "\n") := .line (Nat.zero_le _) List.not_mem_nil
  exact (((front.append (Hangs.rows sets_message message')).append
    (MayHang.rows sets_cause cause')).append (MayHang.rows sets_help help')).append ended

end Report

/-- The report of an evaluation error holds its code, the name of the source, its message and its
help. -/
theorem EvalError.holds_report (source : String) (error : EvalError) :
    Report.Holds ⟨some error.code, "while evaluating " ++ source, some error.message, error.help?⟩
      (error.report source).render :=
  (error.report source).holds_render

theorem EvalError.code_within (error : EvalError) :
    columns error.code.toList ≤ Report.lineColumns ∧ '\n' ∉ error.code.toList := by
  cases error
  all_goals
    rw [code]
    decide +kernel

/-- Whatever the name of the source and the errors are, no line that is emitted is wider than a
page. -/
theorem Reporter.rows_emit (reporter : Reporter) : Rows Report.lineColumns reporter.emit := by
  refine Rows.join ?_
  intro text mem
  obtain ⟨error, -, rfl⟩ := List.mem_map.mp mem
  refine (error.report reporter.name).holds_render.rows ?_
  intro code given
  obtain rfl := Option.some.inj given
  exact error.code_within

end TigerTree
