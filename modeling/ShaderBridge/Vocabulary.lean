import ShaderBridge.Text.Quoted
set_option autoImplicit false

/-! The closed vocabularies of the library: languages, targets, modes, tools and stages. Each has a
title, and each of its members a name on the wire and a label for messages. -/

namespace ShaderBridge

class Vocabulary (α : Type) where
  /-- The name of the vocabulary in messages. -/
  title : Text
  /-- The members, in order of declaration. -/
  members : List α
  /-- The name of a member on the wire. -/
  wireName : α → Text
  /-- The name of a member in messages. -/
  label : α → Text

export Vocabulary (wireName)

def ofWireName? (α : Type) [Vocabulary α] (name : Text) : Option α :=
  (Vocabulary.members (α := α)).find? fun member => wireName member == name

inductive SourceLanguage where
  | slang
  | glsl
  deriving DecidableEq, Repr

inductive TargetFormat where
  | glsl
  | hlsl
  | unrealHlsl
  | spirv
  | wgsl
  | metal
  deriving DecidableEq, Repr

/-- How a fragment is embedded into a module: as statements of the entry function, or as a
function that the entry function calls. -/
inductive ExecutionMode where
  | materialLibrary
  | shaderToy
  deriving DecidableEq, Repr

inductive Tool where
  | glslang
  | spirvCross
  | slang
  deriving DecidableEq, Repr

/-- What a failure is attributed to: the check of the request, or the run of a tool. -/
inductive Stage where
  | validation
  | glslToSpirv
  | slangCompilation
  | glslSlangCompilation
  | spirvCross
  deriving DecidableEq, Repr

inductive Severity where
  | error
  | warning
  deriving DecidableEq, Repr

inductive Outcome where
  | success
  | failure
  deriving DecidableEq, Repr

instance : Vocabulary SourceLanguage where
  title := "SourceLanguage"
  members := [.slang, .glsl]
  wireName
    | .slang => "slang"
    | .glsl => "glsl"
  label
    | .slang => "SLANG"
    | .glsl => "GLSL"

instance : Vocabulary TargetFormat where
  title := "TargetFormat"
  members := [.glsl, .hlsl, .unrealHlsl, .spirv, .wgsl, .metal]
  wireName
    | .glsl => "glsl"
    | .hlsl => "hlsl"
    | .unrealHlsl => "unrealHlsl"
    | .spirv => "spirv"
    | .wgsl => "wgsl"
    | .metal => "metal"
  label
    | .glsl => "GLSL"
    | .hlsl => "HLSL"
    | .unrealHlsl => "HLSL_UNREAL"
    | .spirv => "SPIRV"
    | .wgsl => "WGSL"
    | .metal => "METAL"

instance : Vocabulary ExecutionMode where
  title := "ExecutionMode"
  members := [.materialLibrary, .shaderToy]
  wireName
    | .materialLibrary => "materialLibrary"
    | .shaderToy => "shaderToy"
  label
    | .materialLibrary => "MATERIAL_LIBRARY"
    | .shaderToy => "SHADERTOY"

instance : Vocabulary Tool where
  title := "ToolKind"
  members := [.glslang, .spirvCross, .slang]
  wireName
    | .glslang => "glslang"
    | .spirvCross => "spirv-cross"
    | .slang => "slang"
  label
    | .glslang => "GLSLANG"
    | .spirvCross => "SPIRV_CROSS"
    | .slang => "SLANG"

instance : Vocabulary Stage where
  title := "StageId"
  members := [.validation, .glslToSpirv, .slangCompilation, .glslSlangCompilation, .spirvCross]
  wireName
    | .validation => "validation"
    | .glslToSpirv => "glsl-to-spirv"
    | .slangCompilation => "slang-compilation"
    | .glslSlangCompilation => "glsl-slang-compilation"
    | .spirvCross => "spirv-cross"
  label
    | .validation => "VALIDATION"
    | .glslToSpirv => "GLSL_TO_SPIRV"
    | .slangCompilation => "SLANG_COMPILATION"
    | .glslSlangCompilation => "GLSL_SLANG_COMPILATION"
    | .spirvCross => "SPIRV_CROSS"

instance : Vocabulary Severity where
  title := "Severity"
  members := [.error, .warning]
  wireName
    | .error => "error"
    | .warning => "warning"
  label
    | .error => "ERROR"
    | .warning => "WARNING"

instance : Vocabulary Outcome where
  title := "Outcome"
  members := [.success, .failure]
  wireName
    | .success => "success"
    | .failure => "failure"
  label
    | .success => "SUCCESS"
    | .failure => "FAILURE"

structure UnknownName where
  vocabulary : Text
  name : Text
  deriving DecidableEq, Repr

def UnknownName.message (unknown : UnknownName) : Text :=
  unknown.name.quoted ++ " is not a valid " ++ unknown.vocabulary

def parseWireName (α : Type) [Vocabulary α] (name : Text) : Except UnknownName α :=
  match ofWireName? α name with
  | some member => .ok member
  | none => .error ⟨Vocabulary.title α, name⟩

namespace TargetFormat

def isBinary (target : TargetFormat) : Bool := target == .spirv

def displayName : TargetFormat → Text
  | .glsl => "GLSL"
  | .hlsl => "HLSL"
  | .unrealHlsl => "Unreal HLSL"
  | .spirv => "SPIR-V"
  | .wgsl => "WGSL"
  | .metal => "Metal"

def description : TargetFormat → Text
  | .glsl => "OpenGL Shading Language (WebGL/OpenGL)"
  | .hlsl => "High-Level Shading Language (DirectX)"
  | .unrealHlsl => "HLSL body for an Unreal Engine Custom material node"
  | .spirv => "Standard Portable Intermediate Representation (Vulkan)"
  | .wgsl => "WebGPU Shading Language"
  | .metal => "Metal Shading Language (Apple)"

end TargetFormat
end ShaderBridge
