set_option autoImplicit false

/-!
The command line: which arguments ask for what.

Options may stand anywhere; each level, the program and its commands, has options of its own.
Arguments are taken from left to right, and the first one that asks for help or the version, or
that is wrong, decides. A switch may be given once at each level. After `--` every argument is
plain.
-/

namespace TigerTree.Command

inductive Topic where
  | program | eval | info | help
  deriving DecidableEq

/-- Something to do. -/
inductive Task where
  | eval (input : String) (showTree : Bool)
  | info

inductive Request where
  | run (task : Task) (verbose : Bool)
  | help (topic : Topic)
  | version

inductive Switch where
  | verbose | showTree | help | version

/-- The option of a level that a letter after one hyphen stands for. -/
def Topic.letter? : Topic → Char → Option Switch
  | _, 'v' => some .verbose
  | _, 'h' => some .help
  | .program, 'V' => some .version
  | _, _ => none

/-- The option of a level that a name after two hyphens stands for. -/
def Topic.name? : Topic → String → Option Switch
  | _, "verbose" => some .verbose
  | _, "help" => some .help
  | .program, "version" => some .version
  | .eval, "show-ast" => some .showTree
  | _, _ => none

inductive Argument where
  | separator
  /-- Options in the order in which they are given; an unknown one is `none`. -/
  | options (switches : List (Option Switch))
  | plain (text : String)

def Topic.classify (level : Topic) (argument : String) : Argument :=
  match argument.toList with
  | ['-', '-'] => .separator
  | '-' :: '-' :: name => .options [level.name? (String.ofList name)]
  | '-' :: letter :: letters => .options ((letter :: letters).map level.letter?)
  | _ => .plain argument

/-- The switches that are on at a level. -/
structure Settings where
  verbose : Bool
  showTree : Bool

def Settings.off : Settings := ⟨false, false⟩

/-- How taking options ends: with settings to go on with, or with a decision, which is `none`
when the options are wrong. -/
inductive Progress where
  | proceed (settings : Settings)
  | decided (request : Option Request)

def Topic.take (level : Topic) (settings : Settings) : List (Option Switch) → Progress
  | [] => .proceed settings
  | none :: _ => .decided none
  | some .help :: _ => .decided (some (.help level))
  | some .version :: _ => .decided (some .version)
  | some .verbose :: rest =>
      if settings.verbose then .decided none
      else level.take ⟨true, settings.showTree⟩ rest
  | some .showTree :: rest =>
      if settings.showTree then .decided none
      else level.take ⟨settings.verbose, true⟩ rest

/-- The arguments of `eval`: one input, which is not empty. -/
def evalArguments (outer : Settings) (settings : Settings) (input : Option String)
    (plainOnly : Bool) : List String → Option Request
  | [] => input.map fun input =>
      .run (.eval input settings.showTree) (outer.verbose || settings.verbose)
  | argument :: rest =>
      let named : Option Request :=
        if input.isSome ∨ argument = "" then none
        else evalArguments outer settings (some argument) plainOnly rest
      if plainOnly then named
      else
        match Topic.eval.classify argument with
        | .plain _ => named
        | .separator => evalArguments outer settings input true rest
        | .options switches =>
            match Topic.eval.take settings switches with
            | .proceed settings => evalArguments outer settings input plainOnly rest
            | .decided request => request

/-- The arguments of `info`: none but options. -/
def infoArguments (outer : Settings) (settings : Settings) : List String → Option Request
  | [] => some (.run .info (outer.verbose || settings.verbose))
  | argument :: rest =>
      match Topic.info.classify argument with
      | .plain _ => none
      | .separator =>
          if rest.isEmpty then some (.run .info (outer.verbose || settings.verbose)) else none
      | .options switches =>
          match Topic.info.take settings switches with
          | .proceed settings => infoArguments outer settings rest
          | .decided request => request

def helpArguments : List String → Option Request
  | [] => some (.help .program)
  | ["eval"] => some (.help .eval)
  | ["info"] => some (.help .info)
  | ["help"] => some (.help .help)
  | _ => none

def programArguments (settings : Settings) : List String → Option Request
  | [] => none
  | argument :: rest =>
      match Topic.program.classify argument with
      | .plain "eval" => evalArguments settings .off none false rest
      | .plain "info" => infoArguments settings .off rest
      | .plain "help" => helpArguments rest
      | .plain _ | .separator => none
      | .options switches =>
          match Topic.program.take settings switches with
          | .proceed settings => programArguments settings rest
          | .decided request => request

/-- What the arguments ask for, or `none` if they are wrong. -/
def parse (arguments : List String) : Option Request := programArguments .off arguments

end TigerTree.Command
