import ShaderBridge.Diagnostic.Translate
import ShaderBridge.Export
import ShaderBridge.Module.Wrap
import ShaderBridge.Pipeline.Result
import ShaderBridge.Storage.Workspace
import ShaderBridge.Toolchain.Config
import ShaderBridge.Toolchain.Plan
set_option autoImplicit false

/-! Compilation of a request. A run goes through phases: it makes a workspace and writes the module
into it, runs the planned stages one after the other, reads the artifact, removes the workspace and
hands out a result. From the first stage on every way out leads through the removal of the
workspace. Errors in the user's code are results; only unusable tools and workspaces are faults. -/

namespace ShaderBridge

inductive Delivery where
  | fault (fault : Fault)
  | result (result : CompilationResult)
  | text (artifact : Text) (warnings : List Diagnostic)
  deriving DecidableEq, Repr

namespace Delivery

def ofExcept : Except Fault CompilationResult → Delivery
  | .ok made => .result made
  | .error cause => .fault cause

def isFault : Delivery → Bool
  | .fault _ => true
  | .result _ => false
  | .text _ _ => false

end Delivery

inductive StageVerdict where
  /-- The run of the plan ends here. -/
  | stopped (delivery : Delivery)
  /-- The stage made its file, with these warnings. -/
  | passed (warnings : List Diagnostic)
  deriving DecidableEq, Repr

inductive Phase where
  | requested
  /-- The workspace is made and empty. -/
  | opened (workspace : Workspace)
  /-- The module is written; these stages are still to be run, and when there is none left the
  artifact is to be read. -/
  | running (workspace : Workspace) (pending : List StagePlan) (warnings : List Diagnostic)
  /-- The workspace is to be removed. -/
  | closing (workspace : Workspace) (delivery : Delivery)
  | ended (outcome : Except Fault CompilationResult)

namespace CompilationRequest

/-- The source as text, with the replacement character for each surrogate. -/
def text (request : CompilationRequest) : Text := request.source.lenient

def module (request : CompilationRequest) : WrappedModule :=
  wrap request.text request.language request.mode

def rawModule (request : CompilationRequest) : RawText :=
  wrapRaw request.source request.language request.mode

def plan (request : CompilationRequest) : List StagePlan :=
  planStages request.language request.target

def failed (request : CompilationRequest) (stage : Stage) (diagnostics : List Diagnostic) :
    Except Fault CompilationResult :=
  match CompilationResult.failure? stage diagnostics (some request) with
  | some result => .ok result
  | none => .error .unexplained

def produced (request : CompilationRequest) (artifact : Artifact) (warnings : List Diagnostic) :
    CompilationResult :=
  ⟨.produced artifact warnings, some request.target, some request.mode⟩

def rejected (request : CompilationRequest) : Except Fault CompilationResult :=
  request.failed .validation [{ message := "Unsupported target: " ++ wireName request.target }]

def toolCall (request : CompilationRequest) (config : ToolchainConfig) (directory : Path)
    (plan : StagePlan) : ToolCall :=
  { executable := config.executable plan.tool
    arguments := plan.arguments
    directory := directory
    timeout := config.timeoutFor plan.stage (request.language == .slang)
    output := some (directory.child plan.output) }

/-- The diagnostics in the output of a stage. Lines are known only where the stage reads the
module itself. -/
def diagnosticsOf (request : CompilationRequest) (plan : StagePlan) (run : ToolRun) :
    Except Fault (List Diagnostic) :=
  let module := request.module
  Fault.ofNumeral <|
    if plan.consumesModule then
      Diagnostic.translate plan.tool module.lineOffset (some module.userLines) run.diagnosticText
    else Diagnostic.translate plan.tool 0 none run.diagnosticText

def failureDiagnostics (request : CompilationRequest) (plan : StagePlan) (timeout : Int)
    (run : ToolRun) : Except Fault (List Diagnostic) := do
  if run.timedOut then
    let limit ← Fault.ofNumeral (Text.writeNumber timeout)
    return [{ message := wireName plan.tool ++ " timed out after " ++ limit ++ " ms"
              code := some "timeout" }]
  let found ← request.diagnosticsOf plan run
  if found.isEmpty then
    let status ← Fault.ofNumeral (run.exitCode.elim (.ok "None".toList) Text.writeNumber)
    return [{ message := wireName plan.tool ++ " exited with status " ++ status }]
  return found

end CompilationRequest

namespace Phase

variable {σ : Type}

/-- Checks the request and makes the workspace; none when the target is not accepted. -/
def openWorkspace (config : ToolchainConfig) (request : CompilationRequest) :
    Action σ (Option Workspace) := do
  let target := wireName request.target
  Action.log .info ("Compiling " ++ wireName request.language ++ " -> " ++ target ++ " ("
    ++ wireName request.mode ++ ")")
  if config.enabledTargets.contains request.target then
    return some (← Workspace.enter { root := config.workspaceRoot })
  else
    Action.log .warning ("Rejected disabled target: " ++ target)
    return none

def writeModule (request : CompilationRequest) (workspace : Workspace) : Action σ Unit := do
  let _ ← workspace.writeText (sourceFile request.language) request.rawModule

def runStage (toolbox : Toolbox σ) (config : ToolchainConfig) (request : CompilationRequest)
    (workspace : Workspace) (plan : StagePlan) : Action σ StageVerdict := do
  let call := request.toolCall config (← Action.ofExcept workspace.activeDirectory) plan
  let run ← Action.callTool toolbox call
  if !run.exitedCleanly then
    let diagnostics ← Action.ofExcept (request.failureDiagnostics plan call.timeout run)
    Action.log .info ("Stage " ++ wireName plan.stage ++ " failed with "
      ++ Text.decimal diagnostics.length ++ " diagnostic(s)")
    return .stopped (Delivery.ofExcept (request.failed plan.stage diagnostics))
  else if run.produced.isNone then
    return .stopped (Delivery.ofExcept (request.failed plan.stage
      [{ message := wireName plan.tool ++ " produced no output" }]))
  else
    let found ← Action.ofExcept (request.diagnosticsOf plan run)
    return .passed (found.filter fun diagnostic => diagnostic.severity == .warning)

/-- Reads the artifact. A GLSL source for GLSL is only validated, and the module is the artifact. -/
def readArtifact (request : CompilationRequest) (workspace : Workspace)
    (warnings : List Diagnostic) : Action σ Delivery := do
  let output := (request.plan.getLast?.map StagePlan.output).getD []
  if request.target.isBinary then
    let content ← workspace.readBytes output
    Action.log .info ("Produced " ++ Text.decimal content.length ++ " bytes of "
      ++ wireName request.target)
    return .result (request.produced (.encoded (Base64.encode content)) warnings)
  else if request.language = .glsl ∧ request.target = .glsl then
    return .text request.module.text warnings
  else
    return .text (← workspace.readText output) warnings

def handOut (request : CompilationRequest) : Delivery → Action σ CompilationResult
  | .fault fault => throw fault
  | .result result => return result
  | .text artifact warnings => do
    let artifact ←
      if isExported request.target request.clean then
        Action.ofExcept (Fault.ofNumeral (exportArtifact request.target request.mode artifact))
      else pure artifact
    Action.log .info ("Produced " ++ Text.decimal artifact.length ++ " characters of "
      ++ wireName request.target)
    return request.produced (.source artifact) warnings

def close (request : CompilationRequest) (workspace : Workspace) (delivery : Delivery) :
    Action σ CompilationResult := do
  workspace.leave delivery.isFault
  handOut request delivery

/-- One step of a run. A fault inside the workspace leads to its removal. -/
def step (toolbox : Toolbox σ) (config : ToolchainConfig) (request : CompilationRequest)
    (world : World σ) : Phase → Phase × World σ
  | .requested =>
    match openWorkspace config request world with
    | (.ok (some workspace), world) => (.opened workspace, world)
    | (.ok none, world) => (.ended request.rejected, world)
    | (.error fault, world) => (.ended (.error fault), world)
  | .opened workspace =>
    match writeModule request workspace world with
    | (.ok (), world) => (.running workspace request.plan [], world)
    | (.error fault, world) => (.closing workspace (.fault fault), world)
  | .running workspace (plan :: pending) warnings =>
    match runStage toolbox config request workspace plan world with
    | (.ok (.passed more), world) => (.running workspace pending (warnings ++ more), world)
    | (.ok (.stopped delivery), world) => (.closing workspace delivery, world)
    | (.error fault, world) => (.closing workspace (.fault fault), world)
  | .running workspace [] warnings =>
    match readArtifact request workspace warnings world with
    | (.ok delivery, world) => (.closing workspace delivery, world)
    | (.error fault, world) => (.closing workspace (.fault fault), world)
  | .closing workspace delivery =>
    let closed := close request workspace delivery world
    (.ended closed.1, closed.2)
  | .ended outcome => (.ended outcome, world)

def remaining (request : CompilationRequest) : Phase → Nat
  | .requested => request.plan.length + 4
  | .opened _ => request.plan.length + 3
  | .running _ pending _ => pending.length + 2
  | .closing .. => 1
  | .ended _ => 0

def outcome? : Phase → Option (Except Fault CompilationResult)
  | .ended outcome => some outcome
  | .requested | .opened _ | .running .. | .closing .. => none

theorem remaining_step_lt (toolbox : Toolbox σ) (config : ToolchainConfig)
    (request : CompilationRequest) (world : World σ) {phase : Phase}
    (unfinished : phase.outcome? = none) :
    (phase.step toolbox config request world).1.remaining request < phase.remaining request := by
  cases phase with
  | requested => simp only [step]; split <;> simp [remaining]
  | opened workspace => simp only [step]; split <;> simp [remaining]
  | running workspace pending warnings =>
    cases pending with
    | nil => simp only [step]; split <;> simp [remaining]
    | cons plan pending => simp only [step]; split <;> simp [remaining]
  | closing workspace delivery => simp [step, remaining]
  | ended outcome => simp [outcome?] at unfinished

def settle (toolbox : Toolbox σ) (config : ToolchainConfig) (request : CompilationRequest)
    (phase : Phase) (world : World σ) : Except Fault CompilationResult × World σ :=
  match _unfinished : phase.outcome? with
  | some outcome => (outcome, world)
  | none =>
    let next := phase.step toolbox config request world
    settle toolbox config request next.1 next.2
termination_by phase.remaining request
decreasing_by exact remaining_step_lt toolbox config request world _unfinished

end Phase

def compile {σ : Type} (toolbox : Toolbox σ) (config : ToolchainConfig)
    (request : CompilationRequest) : Action σ CompilationResult :=
  fun world => Phase.settle toolbox config request .requested world

end ShaderBridge
