import TigerTree.Command.Arguments
import TigerTree.Kind
import TigerTree.Operator

set_option autoImplicit false

/-!
What the program says about itself.
-/

namespace TigerTree.Command

def version : String := "0.1.0"

def lines (texts : List String) : String := String.join (texts.map fun text => text ++ "\n")

def Topic.usage : Topic → String
  | program => "Usage: tev [OPTIONS] <COMMAND>"
  | eval => "Usage: tev eval [OPTIONS] <FILE>"
  | info => "Usage: tev info [OPTIONS]"
  | help => "Usage: tev help [COMMAND]..."

def Topic.about : Topic → String
  | program => "Evaluate Tiger expression trees to 32-bit integers"
  | eval => "Evaluate a JSON-encoded expression tree"
  | info => "Show information about the evaluator"
  | help => "Print this message or the help of the given subcommand(s)"

/-- The parts of a command line that a topic explains. -/
def Topic.sections : Topic → List String
  | program =>
      ["Commands:",
        "  eval  " ++ eval.about,
        "  info  " ++ info.about,
        "  help  " ++ help.about,
        "",
        "Options:",
        "  -v, --verbose  Enable verbose output",
        "  -h, --help     Print help",
        "  -V, --version  Print version"]
  | eval =>
      ["Arguments:",
        "  <FILE>  Input file, or `-` for stdin",
        "",
        "Options:",
        "      --show-ast  Show the decoded tree before evaluating",
        "  -v, --verbose   Enable verbose output",
        "  -h, --help      Print help"]
  | info =>
      ["Options:",
        "  -v, --verbose  Enable verbose output",
        "  -h, --help     Print help"]
  | help =>
      ["Arguments:",
        "  [COMMAND]...  Print help for the subcommand(s)"]

def Topic.text (topic : Topic) : String :=
  lines ([topic.about, "", topic.usage, ""] ++ topic.sections)

def versionText : String := lines ["tev " ++ version]

/-- The kinds and operators that can and cannot be evaluated. -/
def infoText : String :=
  let kinds (evaluable : Bool) : List String :=
    (NodeKind.all.filter fun kind => kind.isEvaluable == evaluable).map fun kind =>
      "  - " ++ kind.name
  let symbols (comparison : Bool) : String :=
    " ".intercalate
      ((BinaryOp.known.filter fun op => op.isComparison == comparison).map BinaryOp.symbol)
  lines (["Tiger expression evaluator", "Version: " ++ version, "", "Evaluated node kinds:"] ++
    kinds true ++ ["", "Rejected node kinds:"] ++ kinds false ++
    ["", "Arithmetic operators: " ++ symbols false,
      "Comparison operators (yield 0 or 1): " ++ symbols true])

end TigerTree.Command
