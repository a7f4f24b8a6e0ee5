import ShaderBridge.Toolchain.Config
import ShaderBridge.World
import ShaderBridge.Text.Lines
set_option autoImplicit false

/-! The health of the toolchain. A tool counts as available when it can be launched with a harmless
flag and prints anything, whatever its exit status. -/

namespace ShaderBridge

def probeTimeout : Int := 5000

def probeFlag : Tool → Text
  | .glslang => "--version"
  | .spirvCross => "--help"
  | .slang => "-h"

inductive Availability where
  | available (version : Option Text)
  | unavailable (error : Text)
  deriving DecidableEq, Repr

structure ToolStatus where
  tool : Tool
  path : Text
  availability : Availability
  deriving DecidableEq, Repr

namespace ToolStatus

def isAvailable (status : ToolStatus) : Bool :=
  match status.availability with
  | .available _ => true
  | .unavailable _ => false

def version? (status : ToolStatus) : Option Text :=
  match status.availability with
  | .available version => version
  | .unavailable _ => none

def error? (status : ToolStatus) : Option Text :=
  match status.availability with
  | .available _ => none
  | .unavailable error => some error

end ToolStatus

def availabilityOf (tool : Tool) (run : ToolRun) : Availability :=
  let output := Text.trim (run.stdout ++ "\n" ++ run.stderr)
  if run.timedOut then .unavailable "probe timed out"
  else if output.isEmpty then .unavailable "no output"
  else if tool = .glslang then .available (output.printedLines.head?.map Text.trim)
  else .available none

def probeTool {σ : Type} (toolbox : Toolbox σ) (tool : Tool) (executable : Text) :
    Action σ ToolStatus := fun world =>
  let call : ToolCall :=
    ⟨executable, [probeFlag tool], world.store.temporary, probeTimeout, none⟩
  match Action.callTool toolbox call world with
  | (.ok run, world) => (.ok ⟨tool, executable, availabilityOf tool run⟩, world)
  | (.error fault, world) =>
    match fault with
    | .toolUnavailable .. =>
      let message : Text := "Probe of " ++ wireName tool ++ " failed: " ++ fault.message
      (do
        Action.log .debug message
        return ⟨tool, executable, .unavailable fault.message⟩ : Action σ ToolStatus) world
    | _ => (.error fault, world)

def probeToolchain {σ : Type} (toolbox : Toolbox σ) (config : ToolchainConfig) :
    Action σ (List ToolStatus) :=
  (Vocabulary.members (α := Tool)).mapM fun tool =>
    probeTool toolbox tool (config.executable tool)

end ShaderBridge
