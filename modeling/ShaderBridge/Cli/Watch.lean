import ShaderBridge.Cli.Emission
import ShaderBridge.Cli.Job
set_option autoImplicit false

/-! Watching a file. A change of the file sets a flag; the next rebuild clears the flag first and
reads the file afterwards, so a change that comes in between leads to another rebuild. Failures of
the compilation do not end a watch. -/

namespace ShaderBridge.Cli

variable {σ : Type}

structure Watch where
  job : Job
  output : Option Path
  deriving DecidableEq, Repr

namespace Watch

/-- Takes note of a change of some file; gives the flag, which is set when the file is the watched
one. -/
def notice (watch : Watch) (changed : Text) (flag : Bool) : Action σ Bool := do
  let path := Path.absolute (← get).store.workingDirectory (Path.ofText changed)
  if path.toText = watch.job.file then
    Action.log .info ("Detected changes in " ++ watch.job.file)
    return true
  else return flag

def deliver (watch : Watch) (result : CompilationResult) : Action σ Bool := do
  match result.artifact? with
  | some artifact =>
    emit watch.output [] artifact
    return true
  | none =>
    Action.log .error "Compilation failed, waiting for changes..."
    return false

/-- Compiles the file and emits the artifact; gives whether that succeeded. -/
def rebuild (watch : Watch) (toolbox : Toolbox σ) (config : ToolchainConfig) : Action σ Bool := do
  let result? ←
    try compileFile toolbox config watch.job
    catch fault =>
      if fault.isOperational then
        Action.log .error fault.message
        pure none
      else throw fault
  match result? with
  | some result => watch.deliver result
  | none => return false

end Watch
end ShaderBridge.Cli
