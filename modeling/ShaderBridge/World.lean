import ShaderBridge.Fault
import ShaderBridge.Storage.FileStore
set_option autoImplicit false

/-! The world that a run acts on: the files of the machine, the tools with their own state, the
tool calls made so far, the log, and what was printed. An action changes the world and gives a
value or a fault. -/

namespace ShaderBridge

inductive LogLevel where
  | debug
  | info
  | warning
  | error
  deriving DecidableEq, Repr

def LogLevel.label : LogLevel → Text
  | .debug => "DEBUG"
  | .info => "INFO"
  | .warning => "WARNING"
  | .error => "ERROR"

structure LogLine where
  level : LogLevel
  message : Text
  deriving DecidableEq, Repr

/-- One call of an external tool: what is run, with which arguments, in which directory, for how
many milliseconds at most, and which file it is expected to make. -/
structure ToolCall where
  executable : Text
  arguments : List Text
  directory : Path
  timeout : Int
  output : Option Path
  deriving DecidableEq, Repr

structure ToolRun where
  exitedCleanly : Bool
  stdout : Text := []
  stderr : Text := []
  /-- The file that the tool made. -/
  produced : Option Path := none
  /-- The exit status, none when the tool was stopped. -/
  exitCode : Option Int := none
  timedOut : Bool := false
  deriving DecidableEq, Repr

/-- The text that carries diagnostics: the error output unless it is blank. -/
def ToolRun.diagnosticText (run : ToolRun) : Text :=
  if run.stderr.isBlankText then run.stdout else run.stderr

/-- The tools of a machine: what a call does, given the state of the tools and the files. -/
structure Toolbox (σ : Type) where
  run : ToolCall → σ → FileStore → Except Fault ToolRun × σ × FileStore

structure World (σ : Type) where
  store : FileStore
  tools : σ
  calls : List ToolCall := []
  journal : List LogLine := []
  printed : Text := []

abbrev Action (σ α : Type) := ExceptT Fault (StateM (World σ)) α

namespace Action

variable {σ α : Type}

def log (level : LogLevel) (message : Text) : Action σ Unit :=
  modify fun world => { world with journal := world.journal ++ [⟨level, message⟩] }

def print (text : Text) : Action σ Unit :=
  modify fun world => { world with printed := world.printed ++ text }

def ofExcept (value : Except Fault α) : Action σ α := liftExcept value
where
  /-- The value, or the fault thrown. -/
  liftExcept : Except Fault α → Action σ α
    | .ok value => pure value
    | .error fault => throw fault

def callTool (toolbox : Toolbox σ) (call : ToolCall) : Action σ ToolRun := fun world =>
  let (outcome, tools, store) := toolbox.run call world.tools world.store
  (outcome, { world with store := store, tools := tools, calls := world.calls ++ [call] })

end Action
end ShaderBridge
