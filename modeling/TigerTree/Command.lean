import TigerTree.Command.Folder
import TigerTree.Command.Usage
import TigerTree.Decode
import TigerTree.Outline.Expr
import TigerTree.Reporter

set_option autoImplicit false

/-!
Running the command line.

A request needs at most one input. `respond` is given the outcome of reading it and says what the
program then prints and how it exits.
-/

namespace TigerTree.Command

/-- Where the text of a tree comes from. -/
inductive Input where
  | standard
  | file (path : String)

/-- Standard input is named by a hyphen. Paths are compared step by step, so separators and single
dots after the hyphen do not matter; a dot before it does. -/
def Input.ofArgument (argument : String) : Input :=
  match Path.steps argument with
  | "-" :: steps => if steps.all Path.stays then standard else file argument
  | _ => file argument

def Input.name : Input → String
  | standard => "<stdin>"
  | file path => path

/-- Why there is no tree to evaluate. -/
inductive LoadError where
  | unreadable (name : String) (failure : ReadFailure)
  | malformed (error : DecodeError)

def LoadError.report : LoadError → Report
  | unreadable name failure =>
      { code := some "input::io"
        message := "Failed to read `" ++ name ++ "`: " ++ failure.message
        cause := some failure.message
        help := none }
  | malformed error =>
      { code := some DecodeError.code
        message := error.message
        cause := some error.detail
        help := some DecodeError.help }

/-- The tree in the bytes of an input. -/
def load (input : Input) (bytes : Except ReadFailure ByteArray) : Except LoadError Expr :=
  match bytes with
  | .error failure => .error (.unreadable input.name failure)
  | .ok bytes =>
      match String.fromUTF8? bytes with
      | none => .error (.unreadable input.name .notText)
      | some source => (decode source).mapError .malformed

/-- What the program leaves behind: its exit code and what it has printed. -/
structure Reply where
  exit : Nat
  output : String
  errors : String

/-- A line of the log, the level set to the right of five columns. -/
def logLine (level : Level) (origin message : String) : String :=
  let name := level.name
  String.ofList (List.replicate (5 - name.length) ' ') ++ name ++ " " ++ origin ++ ": " ++
    message ++ "\n"

/-- The log of events; entering nodes is not shown. -/
def eventLog (events : List Event) : String :=
  String.join ((events.filter fun event => event.level ≠ .trace).map fun event =>
    logLine event.level event.origin event.message)

/-- What is shown of a tree before it is evaluated. -/
def treeText (expr : Expr) : String := "=== AST ===\n" ++ expr.outline.indented ++ "\n\n"

/-- The last words of a program that fails. -/
def failure (report : Report) : String := "Error: " ++ report.render

/-- Evaluates a tree that has been read. -/
def evalReply (input : Input) (showTree : Bool) (expr : Expr) : Reply × List Event :=
  let run := evaluate expr
  let shown := if showTree then treeText expr else ""
  let events := .decoded expr.kind :: run.events
  match run.result with
  | .ok value => (⟨0, shown ++ decimalText value.toInt ++ "\n", ""⟩, events)
  | .error error =>
      let (reporter, event) := (Reporter.new input.name).record error
      let summary : Report :=
        { code := none
          message := "evaluation of " ++ reporter.name ++ " failed with " ++
            decimalText reporter.errorCount ++ " error(s)"
          cause := none
          help := none }
      (⟨1, shown, reporter.emit ++ failure summary⟩, events ++ [event])

/-- Does a task; `bytes` is what its input holds. The log of a verbose run comes before all else
on the error channel. -/
def Task.perform (task : Task) (verbose : Bool) (bytes : Input → Except ReadFailure ByteArray) :
    Reply :=
  let (reply, log) : Reply × String :=
    match task with
    | info => (⟨0, infoText, ""⟩, "")
    | eval argument showTree =>
        let input := Input.ofArgument argument
        let opening := logLine .info "tev" ("Evaluating " ++ quoted argument)
        match load input (bytes input) with
        | .ok expr =>
            let (reply, events) := evalReply input showTree expr
            (reply, opening ++ eventLog events)
        | .error error => (⟨1, "", failure error.report⟩, opening)
  if verbose then
    { reply with errors := logLine .info "tev" "Verbose mode enabled" ++ log ++ reply.errors }
  else reply

/-- The inputs of a program that runs in a folder. -/
def inputs (folder : Folder) (standard : ByteArray) : Input → Except ReadFailure ByteArray
  | .standard => .ok standard
  | .file path => folder.read path

/-- The reply to a command line. -/
def respond (arguments : List String) (bytes : Input → Except ReadFailure ByteArray) : Reply :=
  match parse arguments with
  | none => ⟨2, "", Topic.program.usage ++ "\n"⟩
  | some (.help topic) => ⟨0, topic.text, ""⟩
  | some .version => ⟨0, versionText, ""⟩
  | some (.run task verbose) => task.perform verbose bytes

end TigerTree.Command
