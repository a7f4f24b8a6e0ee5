import ShaderBridge.Cli.Options
import ShaderBridge.Storage.Path
import ShaderBridge.Text.Numeral
set_option autoImplicit false

namespace ShaderBridge.Cli

/-- What a command is asked to compile: a file, where to, and how, each choice as it was written. -/
structure JobOptions where
  file : Text
  /-- The file for the artifact; it is printed when none is given. -/
  output : Option Path
  target : Text
  /-- Empty when the name of the file decides. -/
  language : Text
  mode : Text
  clean : Bool
  deriving DecidableEq, Repr

inductive Command where
  | compile (job : JobOptions) (format : Text)
  | watch (job : JobOptions)
  | tools
  | targets
  | serve (host : Text) (port : Int)
  deriving DecidableEq, Repr

def Command.output? : Command → Option Path
  | .compile job _ | .watch job => job.output
  | .tools | .targets | .serve .. => none

inductive Invocation where
  | help
  | run (verbose : Bool) (command : Command)
  deriving DecidableEq, Repr

def helpOption : OptionSpec := { name := "--help", takesValue := false }

def verboseOption : OptionSpec := { name := "--verbose", letter := some 'v', takesValue := false }

def jobOptions : List OptionSpec :=
  [helpOption, { name := "--target", letter := some 't' },
    { name := "--language", letter := some 'l' }, { name := "--mode", letter := some 'm' },
    { name := "--clean", letter := some 'c', takesValue := false }]

def formatOption : OptionSpec := { name := "--format", letter := some 'f' }

def serverOptions : List OptionSpec :=
  [helpOption, { name := "--host" }, { name := "--port", letter := some 'p' }]

inductive CommandName where
  | compile
  | watch
  | tools
  | targets
  | serve
  deriving DecidableEq, Repr

namespace CommandName

def ofText? (name : Text) : Option CommandName :=
  [("compile".toList, compile), ("watch".toList, watch), ("tools".toList, tools),
    ("targets".toList, targets), ("serve".toList, serve)].lookup name

def options : CommandName → List OptionSpec
  | compile => jobOptions ++ [formatOption]
  | watch => jobOptions
  | tools | targets => [helpOption]
  | serve => serverOptions

end CommandName

def readJob (words : CommandWords) : Except UsageProblem JobOptions :=
  let job (file : Text) (output : Option Path) : JobOptions :=
    { file := file
      output := output
      target := words.value "--target" "glsl"
      language := words.value "--language" []
      mode := words.value "--mode" "materialLibrary"
      clean := words.has "--clean" }
  match words.arguments with
  | [] => .error .missingArgument
  | [file] => .ok (job file none)
  | [file, output] => .ok (job file (some (Path.ofText output)))
  | _ :: _ :: surplus :: _ => .error (.surplusArgument surplus)

def withoutArguments (words : CommandWords) (command : Command) : Except UsageProblem Command :=
  match words.arguments with
  | [] => .ok command
  | argument :: _ => .error (.surplusArgument argument)

def readCommand (words : CommandWords) : CommandName → Except UsageProblem Command
  | .compile => (readJob words).map fun job => .compile job (words.value "--format" "plain")
  | .watch => (readJob words).map .watch
  | .tools => withoutArguments words .tools
  | .targets => withoutArguments words .targets
  | .serve =>
    let port := words.value "--port" "3001"
    match port.toInt? with
    | some number => withoutArguments words (.serve (words.value "--host" "127.0.0.1") number)
    | none => .error (.notANumber port)

/-- What a command line asks for. Help is given as soon as the options of a part can be read. -/
def Invocation.ofArguments (arguments : List Text) : Except UsageProblem Invocation := do
  let outer ← readWords [helpOption, verboseOption] false arguments
  if outer.has helpOption.name then return .help
  match outer.arguments with
  | [] => throw .missingCommand
  | name :: rest =>
    match CommandName.ofText? name with
    | none => throw (.unknownCommand name)
    | some command =>
      let words ← readWords command.options true rest
      if words.has helpOption.name then return .help
      return .run (outer.has verboseOption.name) (← readCommand words command)

end ShaderBridge.Cli
