import ShaderBridge.Vocabulary
import ShaderBridge.Fault
set_option autoImplicit false

namespace ShaderBridge

abbrev Environment := List (Text × Text)

/-- Where the tools are, how long they may run, and what is accepted. -/
structure ToolchainConfig where
  glslangPath : Text := "glslangValidator"
  spirvCrossPath : Text := "spirv-cross"
  slangPath : Text := "slangc"
  /-- Milliseconds for each stage of a GLSL source. -/
  directTimeout : Int := 10000
  /-- Milliseconds for each stage of a Slang source. -/
  multistageTimeout : Int := 30000
  /-- Milliseconds for single stages, in place of the two defaults. -/
  stageTimeouts : List (Stage × Int) := []
  /-- Bytes that are kept of each output stream of a tool. -/
  outputLimit : Int := 1024 * 1024
  /-- The directory for workspaces; the directory for temporary files when none is given. -/
  workspaceRoot : Option Path := none
  enabledTargets : List TargetFormat := Vocabulary.members
  deriving DecidableEq, Repr

namespace ToolchainConfig

def timeoutFor (config : ToolchainConfig) (stage : Stage) (multistage : Bool) : Int :=
  (config.stageTimeouts.lookup stage).getD
    (if multistage then config.multistageTimeout else config.directTimeout)

def executable (config : ToolchainConfig) : Tool → Text
  | .glslang => config.glslangPath
  | .spirvCross => config.spirvCrossPath
  | .slang => config.slangPath

def intSetting (environment : Environment) (name : Text) (default : Int) : Except Fault Int :=
  match environment.lookup name with
  | none => .ok default
  | some value =>
    if value.isBlankText then .ok default
    else
      match value.toInt? with
      | some number => .ok number
      | none => .error (.setting name value)

/-- The configuration that the environment variables describe, with defaults for all that is
unset. The time limits are read in order, so of two bad ones the direct limit is reported. -/
def ofEnvironment (environment : Environment) : Except Fault ToolchainConfig := do
  let defaults : ToolchainConfig := {}
  let direct ← intSetting environment "SHADERCROSS_DIRECT_TIMEOUT_MS" defaults.directTimeout
  let multistage ←
    intSetting environment "SHADERCROSS_MULTISTAGE_TIMEOUT_MS" defaults.multistageTimeout
  let root := (environment.lookup "SHADERCROSS_WORKSPACE_ROOT".toList).getD []
  return { defaults with
    glslangPath := (environment.lookup "GLSLANG_PATH".toList).getD defaults.glslangPath
    spirvCrossPath := (environment.lookup "SPIRV_CROSS_PATH".toList).getD defaults.spirvCrossPath
    slangPath := (environment.lookup "SLANG_PATH".toList).getD defaults.slangPath
    directTimeout := direct
    multistageTimeout := multistage
    workspaceRoot := if root.isEmpty then none else some (Path.ofText root) }

end ToolchainConfig

def supportedTargets (config : ToolchainConfig) : List TargetFormat :=
  (Vocabulary.members (α := TargetFormat)).filter config.enabledTargets.contains

end ShaderBridge
