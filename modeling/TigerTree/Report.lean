import TigerTree.Text.Fill

set_option autoImplicit false

/-!
Reports: how an error is laid out for a reader.

A report has a code in front, a message, the cause of it and advice. Each text is filled to lines
of 78 columns and hangs on a mark of its own.
-/

namespace TigerTree

structure Report where
  code : Option String
  message : String
  cause : Option String
  help : Option String

namespace Report

def lineColumns : Nat := 78

/-- A text on lines of its own, the first after `mark` and the others after `margin`, which take
the same number of columns. -/
def hang (mark margin : String) (text : String) : String :=
  let lines := fillParagraphs (lineColumns - margin.length) text
  mark ++ ("\n" ++ margin).intercalate lines ++ "\n"

def render (report : Report) : String :=
  let code := (report.code.map fun code => code ++ "\n\n").getD ""
  let cause := (report.cause.map (hang "  ╰─▶ " "      ")).getD ""
  let help := (report.help.map (hang "  help: " "        ")).getD ""
  code ++ hang "  × " "  │ " report.message ++ cause ++ help ++ "\n"

end Report

end TigerTree
