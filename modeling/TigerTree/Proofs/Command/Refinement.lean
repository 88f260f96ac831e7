import TigerTree.Command
import TigerTree.Proofs.Decode.RoundTrip
import TigerTree.Proofs.Evaluation.Compose

set_option autoImplicit false

/-!
What `eval` shows.

The exit code and the output of a command line that asks for a value follow from the bytes of its
input and from whether the tree is to be shown. Where the bytes come from and what is logged make
no difference to them.
-/

namespace TigerTree.Command

/-- The bytes are no text, or a text that is no tree. -/
def NoTree (content : ByteArray) : Prop :=
  ∀ source : String, source.toUTF8 = content → ∃ error, decode source = .error error

/-- The bytes are the text of a tree. -/
def Spells (content : ByteArray) (expr : Expr) : Prop :=
  ∃ source : String, source.toUTF8 = content ∧ decode source = .ok expr

/-- The text in front of the value, which is empty unless the tree is to be shown. -/
def shownTree (showTree : Bool) (expr : Expr) : String :=
  if showTree then "=== AST ===\n" ++ expr.outline.indented ++ "\n\n" else ""

/-- A reply has the exit code and the output that bytes call for. -/
structure Reply.Shows (reply : Reply) (showTree : Bool) (content : ByteArray) : Prop where
  refused : NoTree content → reply.exit = 1 ∧ reply.output = ""
  value : ∀ expr value, Spells content expr → (evaluate expr).result = .ok value →
    reply.exit = 0 ∧
      reply.output = shownTree showTree expr ++ decimalText value.toInt ++ "\n"
  fails : ∀ expr error, Spells content expr → (evaluate expr).result = .error error →
    reply.exit = 1 ∧ reply.output = shownTree showTree expr

def exitCode : Except EvalError Int32 → Nat
  | .ok _ => 0
  | .error _ => 1

/-- A value on a line of its own. An error is not part of the output. -/
def resultText : Except EvalError Int32 → String
  | .ok value => decimalText value.toInt ++ "\n"
  | .error _ => ""

variable {content : ByteArray} {expr : Expr} {reply reply' : Reply} {showTree : Bool}

theorem noTree_or_spells (content : ByteArray) : NoTree content ∨ ∃ expr, Spells content expr := by
  by_cases spells : ∃ expr, Spells content expr
  · exact .inr spells
  · left
    intro source text
    cases decoded : decode source with
    | error error => exact ⟨error, rfl⟩
    | ok expr => exact absurd ⟨expr, source, text, decoded⟩ spells

namespace Reply.Shows

theorem exit_eq_zero_iff (shows : reply.Shows showTree content) :
    reply.exit = 0 ↔
      ∃ (source : String) (value : Int32),
        source.toUTF8 = content ∧ (evaluateSource source).result = .ok (.ok value) := by
  constructor
  · intro success
    rcases noTree_or_spells content with noTree | ⟨expr, source, text, decoded⟩
    · rw [(shows.refused noTree).1] at success
      cases success
    · cases outcome : (evaluate expr).result with
      | error error =>
          rw [(shows.fails expr error ⟨source, text, decoded⟩ outcome).1] at success
          cases success
      | ok value => exact ⟨source, value, text, by simp [evaluateSource, decoded, outcome]⟩
  · rintro ⟨source, value, text, succeeded⟩
    cases decoded : decode source with
    | error error => simp [evaluateSource, decoded] at succeeded
    | ok expr =>
        have outcome : (evaluate expr).result = .ok value := by
          simpa [evaluateSource, decoded] using succeeded
        exact (shows.value expr value ⟨source, text, decoded⟩ outcome).1

theorem of_spells (shows : reply.Shows showTree content) (spells : Spells content expr) :
    reply.exit = exitCode (evaluate expr).result ∧
      reply.output = shownTree showTree expr ++ resultText (evaluate expr).result := by
  cases outcome : (evaluate expr).result with
  | ok value =>
      obtain ⟨exit, output⟩ := shows.value expr value spells outcome
      exact ⟨exit, output.trans (String.append_assoc ..)⟩
  | error error =>
      obtain ⟨exit, output⟩ := shows.fails expr error spells outcome
      exact ⟨exit, output.trans (String.append_empty).symm⟩

theorem exit_eq {showTree' : Bool} (shows : reply.Shows showTree content)
    (shows' : reply'.Shows showTree' content) : reply'.exit = reply.exit := by
  rcases noTree_or_spells content with noTree | ⟨expr, spells⟩
  · rw [(shows.refused noTree).1, (shows'.refused noTree).1]
  · rw [(shows.of_spells spells).1, (shows'.of_spells spells).1]

theorem output_eq (shows : reply.Shows showTree content)
    (shows' : reply'.Shows showTree content) : reply'.output = reply.output := by
  rcases noTree_or_spells content with noTree | ⟨expr, spells⟩
  · rw [(shows.refused noTree).2, (shows'.refused noTree).2]
  · rw [(shows.of_spells spells).2, (shows'.of_spells spells).2]

/-- To show the tree puts it in front of what is printed without it. -/
theorem output_eq_prepended (hidden : reply.Shows false content)
    (shown : reply'.Shows true content) :
    (NoTree content → reply'.output = reply.output) ∧
      ∀ expr, Spells content expr → reply'.output = shownTree true expr ++ reply.output := by
  refine ⟨fun noTree => ?_, fun expr spells => ?_⟩
  · rw [(hidden.refused noTree).2, (shown.refused noTree).2]
  · rw [(hidden.of_spells spells).2, (shown.of_spells spells).2]
    simp [shownTree]

end Reply.Shows

theorem fromUTF8?_eq_some_iff {bytes : ByteArray} {text : String} :
    String.fromUTF8? bytes = some text ↔ text.toUTF8 = bytes := by
  unfold String.fromUTF8?
  constructor
  · intro read
    split at read
    · cases read
      rfl
    · cases read
  · rintro rfl
    exact dif_pos text.isValidUTF8

theorem load_of_spells (input : Input) (spells : Spells content expr) :
    load input (.ok content) = .ok expr := by
  obtain ⟨source, text, decoded⟩ := spells
  rw [load, fromUTF8?_eq_some_iff.mpr text]
  exact congrArg (Except.mapError LoadError.malformed) decoded

theorem exists_load_eq_error (input : Input) (noTree : NoTree content) :
    ∃ error, load input (.ok content) = .error error := by
  rw [load]
  cases read : String.fromUTF8? content with
  | none => exact ⟨_, rfl⟩
  | some source =>
      obtain ⟨error, failed⟩ := noTree source (fromUTF8?_eq_some_iff.mp read)
      exact ⟨.malformed error, congrArg (Except.mapError LoadError.malformed) failed⟩

variable {argument : String} {verbose : Bool} {bytes : Input → Except ReadFailure ByteArray}

theorem perform_of_load_error {error : LoadError}
    (failed : load (.ofArgument argument) (bytes (.ofArgument argument)) = .error error) :
    ((Task.eval argument showTree).perform verbose bytes).exit = 1 ∧
      ((Task.eval argument showTree).perform verbose bytes).output = "" := by
  simp only [Task.perform, failed]
  cases verbose with
  | true => exact ⟨rfl, rfl⟩
  | false => exact ⟨rfl, rfl⟩

theorem evalReply_fst (input : Input) (showTree : Bool) (expr : Expr) :
    (evalReply input showTree expr).1.exit = exitCode (evaluate expr).result ∧
      (evalReply input showTree expr).1.output =
        shownTree showTree expr ++ resultText (evaluate expr).result := by
  rw [evalReply]
  cases (evaluate expr).result with
  | ok value => exact ⟨rfl, String.append_assoc ..⟩
  | error error => exact ⟨rfl, String.append_empty.symm⟩

theorem perform_of_load
    (loaded : load (.ofArgument argument) (bytes (.ofArgument argument)) = .ok expr) :
    ((Task.eval argument showTree).perform verbose bytes).exit =
        exitCode (evaluate expr).result ∧
      ((Task.eval argument showTree).perform verbose bytes).output =
        shownTree showTree expr ++ resultText (evaluate expr).result := by
  have replied := evalReply_fst (.ofArgument argument) showTree expr
  simp only [Task.perform, loaded]
  -- What is logged goes to the error channel, so it touches neither of the two.
  cases verbose with
  | true => exact replied
  | false => exact replied

theorem shows_perform (readable : bytes (.ofArgument argument) = .ok content) :
    ((Task.eval argument showTree).perform verbose bytes).Shows showTree content where
  refused := by
    intro noTree
    obtain ⟨error, failed⟩ := exists_load_eq_error (.ofArgument argument) noTree
    rw [← readable] at failed
    exact perform_of_load_error failed
  value := by
    intro expr value spells outcome
    have loaded := load_of_spells (.ofArgument argument) spells
    rw [← readable] at loaded
    obtain ⟨exit, output⟩ := perform_of_load loaded
    rw [outcome] at exit output
    exact ⟨exit, output.trans (String.append_assoc ..).symm⟩
  fails := by
    intro expr error spells outcome
    have loaded := load_of_spells (.ofArgument argument) spells
    rw [← readable] at loaded
    obtain ⟨exit, output⟩ := perform_of_load loaded
    rw [outcome] at exit output
    exact ⟨exit, output.trans String.append_empty⟩

/-- A command line that asks for the value of an input, with any settings. -/
def commandLine (argument : String) (showTree verbose : Bool) : List String :=
  (if verbose then ["--verbose"] else []) ++ "eval" ::
    ((if showTree then ["--show-ast"] else []) ++ ["--", argument])

/-- After `--` an argument is an input, whatever it looks like. -/
theorem evalArguments_separator (outer settings : Settings) (named : argument ≠ "") :
    evalArguments outer settings none false ["--", argument] =
      some (.run (.eval argument settings.showTree) (outer.verbose || settings.verbose)) := by
  simp [evalArguments, Topic.classify, named]

theorem evalArguments_showTree (outer : Settings) (arguments : List String) :
    evalArguments outer .off none false ("--show-ast" :: arguments) =
      evalArguments outer ⟨false, true⟩ none false arguments := by
  simp [evalArguments, Topic.classify, Topic.name?, Topic.take, Settings.off]

theorem programArguments_eval (settings : Settings) (arguments : List String) :
    programArguments settings ("eval" :: arguments) =
      evalArguments settings .off none false arguments := by
  simp [programArguments, Topic.classify]

theorem programArguments_verbose (arguments : List String) :
    programArguments .off ("--verbose" :: arguments) =
      programArguments ⟨true, false⟩ arguments := by
  simp [programArguments, Topic.classify, Topic.name?, Topic.take, Settings.off]

theorem evalArguments_commandLine (outer : Settings) (named : argument ≠ "") (showTree : Bool) :
    evalArguments outer .off none false
        ((if showTree then ["--show-ast"] else []) ++ ["--", argument]) =
      some (.run (.eval argument showTree) outer.verbose) := by
  cases showTree with
  | true =>
      refine (evalArguments_showTree outer ["--", argument]).trans ?_
      rw [evalArguments_separator _ _ named, Bool.or_false]
  | false =>
      refine (evalArguments_separator outer .off named).trans ?_
      rw [Settings.off, Bool.or_false]

theorem parse_commandLine (named : argument ≠ "") (showTree verbose : Bool) :
    parse (commandLine argument showTree verbose) =
      some (.run (.eval argument showTree) verbose) := by
  cases verbose with
  | true =>
      calc parse (commandLine argument showTree true)
        _ = programArguments ⟨true, false⟩ (commandLine argument showTree false) :=
            programArguments_verbose _
        _ = evalArguments ⟨true, false⟩ .off none false
              ((if showTree then ["--show-ast"] else []) ++ ["--", argument]) :=
            programArguments_eval _ _
        _ = some (.run (.eval argument showTree) true) :=
            evalArguments_commandLine _ named showTree
  | false =>
      calc parse (commandLine argument showTree false)
        _ = evalArguments .off .off none false
              ((if showTree then ["--show-ast"] else []) ++ ["--", argument]) :=
            programArguments_eval _ _
        _ = some (.run (.eval argument showTree) false) :=
            evalArguments_commandLine _ named showTree

/-- A command line that asks for a value has the exit code and the output that the library calls
for. It succeeds exactly if the bytes have a value. Another command line that reads the same bytes
has the same exit code, and the same output too but for the tree in front of it, wherever its bytes
come from and whatever it logs. -/
theorem respond_shows {arguments : List String} {argument : String} {showTree verbose : Bool}
    {bytes : Input → Except ReadFailure ByteArray} {content : ByteArray}
    (asked : parse arguments = some (.run (.eval argument showTree) verbose))
    (readable : bytes (.ofArgument argument) = .ok content) :
    (respond arguments bytes).Shows showTree content ∧
      ((respond arguments bytes).exit = 0 ↔
        ∃ (source : String) (value : Int32),
          source.toUTF8 = content ∧ (evaluateSource source).result = .ok (.ok value)) ∧
      ∀ arguments' argument' showTree' verbose' bytes',
        parse arguments' = some (.run (.eval argument' showTree') verbose') →
        bytes' (.ofArgument argument') = .ok content →
          (respond arguments' bytes').exit = (respond arguments bytes).exit ∧
          (showTree' = showTree →
            (respond arguments' bytes').output = (respond arguments bytes).output) ∧
          (showTree = false → showTree' = true →
            (NoTree content →
              (respond arguments' bytes').output = (respond arguments bytes).output) ∧
            ∀ expr, Spells content expr →
              (respond arguments' bytes').output =
                "=== AST ===\n" ++ expr.outline.indented ++ "\n\n" ++
                  (respond arguments bytes).output) := by
  have shows : (respond arguments bytes).Shows showTree content := by
    rw [respond, asked]
    exact shows_perform readable
  refine ⟨shows, shows.exit_eq_zero_iff, ?_⟩
  intro arguments' argument' showTree' verbose' bytes' asked' readable'
  have shows' : (respond arguments' bytes').Shows showTree' content := by
    rw [respond, asked']
    exact shows_perform readable'
  refine ⟨shows.exit_eq shows', ?_, ?_⟩
  · rintro rfl
    exact shows.output_eq shows'
  · rintro rfl rfl
    exact shows.output_eq_prepended shows'

theorem respond_shows_seven :
    ((respond (commandLine "-" false false)
        (inputs ⟨[]⟩ (Expr.integerLiteral 7).encode.toUTF8)).exit = 0 ∧
      (respond (commandLine "-" false false)
        (inputs ⟨[]⟩ (Expr.integerLiteral 7).encode.toUTF8)).output = "7\n") ∧
    (respond (commandLine "a" true true)
        (inputs ⟨[(["a"], .file (Expr.integerLiteral 7).encode.toUTF8)]⟩ .empty)).output =
      "=== AST ===\n" ++
        "IntegerLiteral(\n    IntegerLiteral \x7b\n        value: 7,\n    \x7d,\n)" ++ "\n\n" ++
          "7\n" := by
  have standard : inputs ⟨[]⟩ (Expr.integerLiteral 7).encode.toUTF8 (.ofArgument "-") =
      .ok (Expr.integerLiteral 7).encode.toUTF8 := rfl
  have file : inputs ⟨[(["a"], .file (Expr.integerLiteral 7).encode.toUTF8)]⟩ .empty
      (.ofArgument "a") = .ok (Expr.integerLiteral 7).encode.toUTF8 := rfl
  have spells : Spells (Expr.integerLiteral 7).encode.toUTF8 (.integerLiteral 7) :=
    ⟨_, rfl, decode_encode_normalized (.integerLiteral 7)⟩
  obtain ⟨shows, -, others⟩ :=
    respond_shows (parse_commandLine (by decide) false false) standard
  obtain ⟨-, -, prepended⟩ := others _ _ _ _ _ (parse_commandLine (by decide) true true) file
  obtain ⟨exit, output⟩ := shows.value _ 7 spells (by rw [evaluate_integerLiteral])
  have shown := (prepended rfl rfl).2 _ spells
  rw [output] at shown
  have indented : (Expr.integerLiteral 7).outline.indented =
      "IntegerLiteral(\n    IntegerLiteral \x7b\n        value: 7,\n    \x7d,\n)" := by
    decide +kernel
  rw [indented] at shown
  exact ⟨⟨exit, output⟩, shown⟩

end TigerTree.Command
