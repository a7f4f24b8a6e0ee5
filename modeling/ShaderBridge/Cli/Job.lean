import ShaderBridge.Pipeline.Compile
set_option autoImplicit false

namespace ShaderBridge.Cli

variable {σ : Type}

structure Job where
  file : Text
  language : SourceLanguage
  target : TargetFormat
  mode : ExecutionMode
  clean : Bool
  deriving DecidableEq, Repr

def languageOfFile (file : Text) : SourceLanguage :=
  if (Path.ofText file).extension.toLowerAscii = ".slang".toList then .slang else .glsl

/-- The text of a file; none, with a line in the log, when the file cannot be read. -/
def readShader (file : Text) : Action σ (Option Text) := do
  let path := Path.ofText file
  match (← get).store.read path with
  | .ok content => return some (← Action.ofExcept (fileText content))
  | .error failure =>
    let problem : StorageProblem := ⟨failure, path.toText⟩
    if !problem.isReported then throw (.storage problem)
    Action.log .error ("Failed to read shader file: " ++ problem.message)
    return none

def report (result : CompilationResult) : Action σ Unit :=
  result.diagnostics.forM fun diagnostic =>
    Action.log (if diagnostic.severity = .warning then .warning else .error) diagnostic.format

def compileText (toolbox : Toolbox σ) (config : ToolchainConfig) (job : Job) (source : Text) :
    Action σ CompilationResult := do
  let result ← compile toolbox config ⟨source, job.language, job.target, job.mode, job.clean⟩
  report result
  return result

def compileFile (toolbox : Toolbox σ) (config : ToolchainConfig) (job : Job) :
    Action σ (Option CompilationResult) := do
  match ← readShader job.file with
  | none => return none
  | some source => return some (← compileText toolbox config job source)

end ShaderBridge.Cli
