import TigerTree.Proofs.Command.Refinement
import TigerTree.Proofs.Text.Lines

set_option autoImplicit false

/-!
Which arguments name standard input.

Paths are compared step by step, and steps that lead nowhere else do not count behind the first.
So a hyphen names standard input, and so does a hyphen with separators and single dots behind it.
Any other argument is the path of a file, which is read under the name that was given.
-/

namespace TigerTree

theorem intercalate_cons_eq_append (separator : Char) (first : List Char)
    (others : List (List Char)) :
    [separator].intercalate (first :: others) = first ++ others.flatMap (separator :: ·) := by
  induction others generalizing first with
  | nil => simp
  | cons part others inductionHypothesis =>
      rw [List.intercalate_cons_cons, inductionHypothesis]
      simp

/-- A text has the given parts exactly if it consists of them, with a separator in front of all
but the first. -/
theorem splitAtEach_eq_cons_iff {separator : Char} {text first : List Char}
    {others : List (List Char)} (plain : separator ∉ first)
    (othersPlain : ∀ part ∈ others, separator ∉ part) :
    splitAtEach separator text = first :: others ↔
      text = first ++ others.flatMap (separator :: ·) := by
  rw [splitAtEach_eq_splitOn, ← intercalate_cons_eq_append]
  constructor
  · intro split
    rw [← split, List.intercalate_splitOn]
  · rintro rfl
    exact List.splitOn_intercalate separator (List.forall_mem_cons.mpr ⟨plain, othersPlain⟩)
      (List.cons_ne_nil first others)

namespace Command

/-- A step that names no entry of a folder. -/
def Idle (step : List Char) : Prop := step = [] ∨ step = ['.']

/-- A hyphen, and behind it any number of separators, each in front of nothing or a single dot. -/
def NamesStandard (argument : String) : Prop :=
  ∃ steps : List (List Char), (∀ step ∈ steps, Idle step) ∧
    argument.toList = '-' :: steps.flatMap ('/' :: ·)

theorem stays_iff {step : List Char} : Path.stays (String.ofList step) = true ↔ Idle step := by
  have named (name : List Char) : String.ofList step = String.ofList name ↔ step = name :=
    ⟨fun same => by simpa using congrArg String.toList same, congrArg String.ofList⟩
  have empty := named []
  have dot := named ['.']
  simp only [Path.stays, Idle, Bool.or_eq_true, decide_eq_true_eq]
  exact or_congr empty dot

theorem namesStandard_iff {argument : String} :
    NamesStandard argument ↔
      ∃ steps, Path.steps argument = "-" :: steps ∧ steps.all Path.stays = true := by
  have plain {steps : List (List Char)} (idle : ∀ step ∈ steps, Idle step) :
      ∀ step ∈ steps, '/' ∉ step := by
    intro step mem
    rcases idle step mem with rfl | rfl
    all_goals decide
  have hyphen : '/' ∉ ['-'] := by decide
  constructor
  · rintro ⟨steps, idle, spelled⟩
    have split := (splitAtEach_eq_cons_iff hyphen (plain idle)).mpr spelled
    refine ⟨steps.map String.ofList, by rw [Path.steps, split]; rfl, ?_⟩
    rw [List.all_map, List.all_eq_true]
    exact fun step mem => stays_iff.mpr (idle step mem)
  · rintro ⟨names, split, idle⟩
    obtain ⟨first, steps, split, named, rfl⟩ := List.map_eq_cons_iff.mp split
    rw [List.all_map, List.all_eq_true] at idle
    have idle : ∀ step ∈ steps, Idle step := fun step mem => stays_iff.mp (idle step mem)
    obtain rfl : first = ['-'] := by simpa using congrArg String.toList named
    exact ⟨steps, idle, (splitAtEach_eq_cons_iff hyphen (plain idle)).mp split⟩

theorem ofArgument_of_namesStandard {argument : String} (standard : NamesStandard argument) :
    Input.ofArgument argument = .standard := by
  obtain ⟨steps, split, idle⟩ := namesStandard_iff.mp standard
  simp only [Input.ofArgument, split, idle, if_true]

theorem ofArgument_of_not_namesStandard {argument : String}
    (other : ¬ NamesStandard argument) : Input.ofArgument argument = .file argument := by
  unfold Input.ofArgument
  split
  next steps split =>
    exact if_neg fun idle => other (namesStandard_iff.mpr ⟨steps, split, idle⟩)
  next => rfl

/-- Nothing but one input makes a difference to a reply. -/
def ReadsOnly (arguments : List String) (input : Input) : Prop :=
  ∀ bytes bytes' : Input → Except ReadFailure ByteArray, bytes input = bytes' input →
    respond arguments bytes = respond arguments bytes'

theorem readsOnly_ofArgument {arguments : List String} {argument : String}
    {showTree verbose : Bool}
    (asked : parse arguments = some (.run (.eval argument showTree) verbose)) :
    ReadsOnly arguments (.ofArgument argument) := by
  intro bytes bytes' same
  simp only [respond, asked, Task.perform, same]

/-- A command line that asks for a value reads standard input, as `<stdin>`, exactly if its
argument is a hyphen with at most separators and single dots behind it. Otherwise it reads the
file of that path, under the name that was given. -/
theorem respond_reads {arguments : List String} {argument : String} {showTree verbose : Bool}
    (asked : parse arguments = some (.run (.eval argument showTree) verbose)) :
    (NamesStandard argument ∧ Input.ofArgument argument = .standard ∧
        (Input.ofArgument argument).name = "<stdin>" ∧ ReadsOnly arguments .standard) ∨
      (¬ NamesStandard argument ∧ Input.ofArgument argument = .file argument ∧
        (Input.ofArgument argument).name = argument ∧ ReadsOnly arguments (.file argument)) := by
  have reads := readsOnly_ofArgument asked
  by_cases standard : NamesStandard argument
  · have chosen := ofArgument_of_namesStandard standard
    rw [chosen] at reads
    exact .inl ⟨standard, chosen, congrArg Input.name chosen, reads⟩
  · have chosen := ofArgument_of_not_namesStandard standard
    rw [chosen] at reads
    exact .inr ⟨standard, chosen, congrArg Input.name chosen, reads⟩

/-- A dot in front of the hyphen makes it the path of a file. -/
theorem respond_reads_dotted :
    parse (commandLine "./-" false true) = some (.run (.eval "./-" false) true) ∧
      (Input.ofArgument "./-").name = "./-" ∧
      ReadsOnly (commandLine "./-" false true) (.file "./-") := by
  have asked : parse (commandLine "./-" false true) = some (.run (.eval "./-" false) true) :=
    parse_commandLine (by decide) false true
  rcases respond_reads asked with ⟨⟨steps, -, spelled⟩, -⟩ | ⟨-, -, name, reads⟩
  · have first : '.' = '-' := (List.cons.inj spelled).1
    exact absurd first (by decide)
  · exact ⟨asked, name, reads⟩

/-- A hyphen is not the only argument that names standard input. -/
theorem respond_hyphen_separator :
    "-/" ≠ "-" ∧ Input.ofArgument "-/" = .standard ∧ (Input.ofArgument "-/").name = "<stdin>" ∧
      (respond (commandLine "-/" false false)
        (inputs ⟨[]⟩ (Expr.integerLiteral 7).encode.toUTF8)).output = "7\n" := by
  have standard : inputs ⟨[]⟩ (Expr.integerLiteral 7).encode.toUTF8 (.ofArgument "-/") =
      .ok (Expr.integerLiteral 7).encode.toUTF8 := rfl
  have spells : Spells (Expr.integerLiteral 7).encode.toUTF8 (.integerLiteral 7) :=
    ⟨_, rfl, decode_encode_normalized (.integerLiteral 7)⟩
  have shows : ((Task.eval "-/" false).perform false
      (inputs ⟨[]⟩ (Expr.integerLiteral 7).encode.toUTF8)).Shows false
      (Expr.integerLiteral 7).encode.toUTF8 := shows_perform standard
  obtain ⟨-, output⟩ := shows.value _ 7 spells (by rw [evaluate_integerLiteral])
  refine ⟨by decide, rfl, rfl, ?_⟩
  rw [respond, parse_commandLine (by decide)]
  exact output

end Command

end TigerTree
