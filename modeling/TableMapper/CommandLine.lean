/-
TableMapper.CommandLine — the commands of the program and what they
answer.
-/
import TableMapper.Generated.Writing
import TableMapper.Settings.Loading

namespace TableMapper

/-! ## 1. Commands -/

/-- What the program is asked to do. -/
inductive Command where
  | generate (config : String)
  | version
  | help
deriving DecidableEq, Repr

namespace Command

/-- The configuration that is used if none is given. -/
def defaultConfig : String := "dynogen.yml"

/-- Whether an argument is an option rather than a value: it goes on
after a hyphen. -/
def isOption (arg : String) : Bool :=
  match arg.toList with
  | '-' :: _ :: _ => true
  | _ => false

/-- The value in an argument such as `--config=path`. -/
def attachedValue? (option arg : String) : Option String :=
  let opening := option.toList ++ ['=']
  if opening.isPrefixOf arg.toList then some (String.ofList (arg.toList.drop opening.length))
  else none

/-- Whether an argument begins with a one-letter option, which may have
others after it. -/
def isShort (letter : Char) (arg : String) : Bool := ['-', letter].isPrefixOf arg.toList

/-- Sets the configuration, which may be set once and not to nothing. -/
def setConfig? (config : Option String) (value : String) : Option String :=
  if config.isSome || value.isEmpty then none else some value

/-- Reads the arguments of `generate`, of which the configuration may
be set already. A request for help counts where nothing before it is
wrong. -/
def readOptions : Option String → List String → Option Command
  | config, [] => some (.generate (config.getD defaultConfig))
  | config, arg :: rest =>
    if arg = "--config" then match rest with
      | [] => none
      | value :: rest =>
        if isOption value then none
        else (setConfig? config value).bind fun value => readOptions (some value) rest
    else if arg = "--help" || isShort 'h' arg then some .help
    else if arg = "--" then
      if rest.isEmpty then some (.generate (config.getD defaultConfig)) else none
    else match attachedValue? "--config" arg with
      | some value => (setConfig? config value).bind fun value => readOptions (some value) rest
      | none => none

/-- Reads the arguments of the program; there is no command in wrong
ones. -/
def ofArguments : List String → Option Command
  | [] => none
  | arg :: rest =>
    if arg = "generate" then readOptions none rest
    else if arg = "help" then
      if [[], ["generate"], ["help"]].contains rest then some .help else none
    else if arg = "--version" || isShort 'V' arg then some .version
    else if arg = "--help" || isShort 'h' arg then some .help
    else none

end Command

/-! ## 2. Answers -/

/-- What the program leaves behind: an exit code, a text on the standard
output, and lines on the standard error output. The usage is shown in
addition where it is asked for, or called for. -/
structure CommandResult where
  exitCode : Nat
  output : String := ""
  errorLines : List String := []
  showsUsage : Bool := false
deriving DecidableEq, Repr

namespace CommandResult

/-- How the program is used. -/
def usage : String := "Usage: dynogen generate [--config <CONFIG>]\n"

/-- The version of the program. -/
def version : String := "dynogen 0.1.0\n"

/-- The lines of an error and of what is behind it. -/
def fatalLines (message : String) (causes : List String) : List String :=
  Text.lines ("[Fatal] " ++ message) ++ causes.flatMap fun c => Text.lines ("  caused by: " ++ c)

/-- The end of a command that fails. -/
def fatal (message : String) (causes : List String) : CommandResult :=
  { exitCode := 1, errorLines := fatalLines message causes }

end CommandResult

/-! ## 3. Running a command -/

/-- The style of the files that the program writes. -/
def Command.style : TypeScript.Style := ⟨none, true⟩

/-- Generates and writes the files of the configuration in a file. -/
def Command.runGenerate {m : Type → Type} [Monad m] (files : FileAccess m) (base : Location)
    (config : String) : m CommandResult := do
  match ← Settings.load files config with
  | .error e => return .fatal e.message e.causes
  | .ok settings =>
    match ← settings.generate files Command.style base with
    | .error e =>
      return .fatal ("generation from \"" ++ config ++ "\" failed") (e.message :: e.causes)
    | .ok _ => return { exitCode := 0 }

/-- Runs the command in the arguments from a working directory. -/
def Command.run {m : Type → Type} [Monad m] (files : FileAccess m) (base : Location)
    (arguments : List String) : m CommandResult :=
  match Command.ofArguments arguments with
  | none => return { exitCode := 2, showsUsage := true }
  | some .help => return { exitCode := 0, showsUsage := true }
  | some .version => return { exitCode := 0, output := CommandResult.version }
  | some (.generate config) => Command.runGenerate files base config

end TableMapper
