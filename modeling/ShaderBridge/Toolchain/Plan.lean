import ShaderBridge.Module.Template
set_option autoImplicit false

/-! The stages that lead from a source language to a target. GLSL is always checked by the
validator first, so that errors are reported against the module that the user wrote; Slang reaches
GLSL by way of SPIR-V. -/

namespace ShaderBridge

/-- One planned run of a tool: the stage it is reported as, its arguments, the file it has to make,
and whether it reads the module itself, so that its line numbers refer to the module. -/
structure StagePlan where
  stage : Stage
  tool : Tool
  arguments : List Text
  output : Text
  consumesModule : Bool
  deriving DecidableEq, Repr

def sourceFile : SourceLanguage → Text
  | .glsl => "shader.frag"
  | .slang => "shader.slang"

def spirvFile : Text := "shader.spv"

def outputFile : TargetFormat → Text
  | .glsl => "output.glsl"
  | .hlsl | .unrealHlsl => "output.hlsl"
  | .spirv => spirvFile
  | .wgsl => "output.wgsl"
  | .metal => "output.metal"

def slangTarget : TargetFormat → Text
  | .glsl | .spirv => "spirv"
  | .hlsl | .unrealHlsl => "hlsl"
  | .wgsl => "wgsl"
  | .metal => "metal"

def slangArguments (source target entry output : Text) (options : List Text) : List Text :=
  let fixed : List Text := ["-target", target, "-entry", entry, "-stage", "fragment", "-o", output,
    "-line-directive-mode", "none"]
  source :: options ++ fixed

def validatorStage : StagePlan :=
  { stage := .glslToSpirv
    tool := .glslang
    arguments := ["-V", "-S", "frag", "-o", spirvFile, sourceFile .glsl]
    output := spirvFile
    consumesModule := true }

def converterStage (target : TargetFormat) (options : List Text) : StagePlan :=
  { stage := .spirvCross
    tool := .spirvCross
    arguments := spirvFile :: options ++ ["--output".toList, outputFile target]
    output := outputFile target
    consumesModule := false }

def glslSlangStage : StagePlan :=
  { stage := .glslSlangCompilation
    tool := .slang
    arguments := slangArguments (sourceFile .glsl) "wgsl" glslEntryPoint (outputFile .wgsl)
      ["-lang", "glsl", "-allow-glsl"]
    output := outputFile .wgsl
    consumesModule := true }

def slangStage (target : TargetFormat) (output : Text) (options : List Text) : StagePlan :=
  { stage := .slangCompilation
    tool := .slang
    arguments := slangArguments (sourceFile .slang) (slangTarget target) slangEntryPoint output
      options
    output := output
    consumesModule := true }

def planStages : SourceLanguage → TargetFormat → List StagePlan
  | .glsl, .glsl | .glsl, .spirv => [validatorStage]
  | .glsl, .hlsl => [validatorStage, converterStage .hlsl ["--hlsl", "--shader-model", "50"]]
  | .glsl, .unrealHlsl =>
    [validatorStage, converterStage .unrealHlsl ["--hlsl", "--shader-model", "50"]]
  | .glsl, .metal => [validatorStage, converterStage .metal ["--msl"]]
  | .glsl, .wgsl => [validatorStage, glslSlangStage]
  | .slang, .glsl =>
    [slangStage .glsl spirvFile [], converterStage .glsl ["--version", "100", "--es"]]
  | .slang, .hlsl => [slangStage .hlsl (outputFile .hlsl) ["-profile", "sm_5_0"]]
  | .slang, .unrealHlsl =>
    [slangStage .unrealHlsl (outputFile .unrealHlsl) ["-profile", "sm_5_0"]]
  | .slang, .spirv => [slangStage .spirv (outputFile .spirv) []]
  | .slang, .wgsl => [slangStage .wgsl (outputFile .wgsl) []]
  | .slang, .metal => [slangStage .metal (outputFile .metal) []]

end ShaderBridge
