import ShaderBridge.Vocabulary
import ShaderBridge.Text.Lines
set_option autoImplicit false

/-! Module templates. For each language and mode a template holds the lines in front of the user's
code, the lines behind it, what stands in for code that is blank, and the uniforms and varyings
that the code can rely on. -/

namespace ShaderBridge

inductive SymbolKind where
  | uniform
  | varying
  deriving DecidableEq, Repr

/-- A symbol declared in front of the user's code: its declared name, the name by which the code
knows it, and its number of components. -/
structure HeaderSymbol where
  name : Text
  givenName : Text
  components : Nat
  kind : SymbolKind
  deriving DecidableEq, Repr

structure ModuleTemplate where
  header : Text
  trailer : Text
  placeholder : Text
  symbols : List HeaderSymbol
  deriving Repr

/-- The number of lines in front of the first line of user code. -/
def ModuleTemplate.lineOffset (template : ModuleTemplate) : Nat := template.header.count '\n'

def startMarker : Text := "// ---- USER CODE START ----"

def endMarker : Text := "// ---- USER CODE END ----"

def outputVariable : Text := "fragColor"

def glslEntryPoint : Text := "main"

def slangEntryPoint : Text := "fragmentMain"

def userEntryPoint : Text := "mainImage"

def block (lines : List String) : Text := lines.flatMap fun line => line.toList ++ "\n"

theorem block_nil : block [] = [] := rfl

theorem block_cons (line : Text) (lines : List String) :
    block (String.ofList line :: lines) = line ++ '\n' :: block lines := by
  simp [block]

def uniformSymbol (name givenName : Text) (components : Nat) : HeaderSymbol :=
  ⟨name, givenName, components, .uniform⟩

def varyingSymbol (name givenName : Text) (components : Nat) : HeaderSymbol :=
  ⟨name, givenName, components, .varying⟩

def materialUniforms : List HeaderSymbol :=
  [uniformSymbol "uResolution" "iResolution" 2, uniformSymbol "uTime" "iTime" 1,
    uniformSymbol "uTimeDelta" "iTimeDelta" 1, uniformSymbol "uFrame" "iFrame" 1,
    uniformSymbol "uFrameRate" "iFrameRate" 1]

def shaderToyUniforms : List HeaderSymbol :=
  [uniformSymbol "iResolution" "iResolution" 3, uniformSymbol "iTime" "iTime" 1,
    uniformSymbol "iTimeDelta" "iTimeDelta" 1, uniformSymbol "iFrame" "iFrame" 1,
    uniformSymbol "iFrameRate" "iFrameRate" 1]

def glslMaterialHeader : List String :=
  [
    "#version 450",
    "",
    "layout(location = 0) in vec2 vUv;",
    "layout(location = 1) in vec3 vNormal;",
    "layout(location = 2) in vec3 vPosition;",
    "",
    "layout(location = 0) out vec4 outFragColor;",
    "",
    "layout(binding = 0) uniform Uniforms \x7b",
    "  vec2 uResolution;",
    "  float uTime;",
    "  float uTimeDelta;",
    "  float uFrame;",
    "  float uFrameRate;",
    "\x7d;",
    "",
    "void main() \x7b",
    "  // Pre-defined variables for user convenience (ShaderToy naming)",
    "  vec2 iResolution = uResolution;",
    "  float iTime = uTime;",
    "  float iTimeDelta = uTimeDelta;",
    "  float iFrame = uFrame;",
    "  float iFrameRate = uFrameRate;",
    "  vec2 iUV = vUv;",
    "  vec3 iNormal = vNormal;",
    "  vec3 iPosition = vPosition;",
    "",
    "  // Default output (vec4 RGBA)",
    "  vec4 fragColor = vec4(1.0);",
    "",
    "// ---- USER CODE START ----"]

def glslMaterialTrailer : List String :=
  [
    "// ---- USER CODE END ----",
    "",
    "  outFragColor = fragColor;",
    "\x7d"]

def glslShaderToyHeader : List String :=
  [
    "#version 450",
    "",
    "layout(location = 0) in vec2 vUv;",
    "",
    "layout(location = 0) out vec4 outFragColor;",
    "",
    "layout(binding = 0) uniform Uniforms \x7b",
    "  vec3 iResolution;",
    "  float iTime;",
    "  float iTimeDelta;",
    "  float iFrame;",
    "  float iFrameRate;",
    "\x7d;",
    "",
    "// Forward declaration for the user entry function",
    "void mainImage(out vec4 fragColor, in vec2 fragCoord);",
    "",
    "// ---- USER CODE START ----"]

def glslShaderToyTrailer : List String :=
  [
    "// ---- USER CODE END ----",
    "",
    "void main() \x7b",
    "  vec2 fragCoord = vUv * iResolution.xy;",
    "  vec4 fragColor = vec4(0.0, 0.0, 0.0, 1.0);",
    "  mainImage(fragColor, fragCoord);",
    "  outFragColor = fragColor;",
    "\x7d"]

def slangMaterialHeader : List String :=
  [
    "// Slang Fragment Shader - Material Library Mode",
    "",
    "// Uniforms",
    "uniform float2 uResolution;",
    "uniform float uTime;",
    "uniform float uTimeDelta;",
    "uniform float uFrame;",
    "uniform float uFrameRate;",
    "",
    "// Varyings from vertex shader",
    "struct VSInput",
    "\x7b",
    "    float2 uv : TEXCOORD0;",
    "    float3 normal : NORMAL;",
    "    float3 position : TEXCOORD1;",
    "\x7d;",
    "",
    "[shader(\"fragment\")]",
    "float4 fragmentMain(VSInput input) : SV_Target",
    "\x7b",
    "    // Pre-defined variables for user convenience",
    "    float2 iResolution = uResolution;",
    "    float iTime = uTime;",
    "    float iTimeDelta = uTimeDelta;",
    "    float iFrame = uFrame;",
    "    float iFrameRate = uFrameRate;",
    "    float2 iUV = input.uv;",
    "    float3 iNormal = input.normal;",
    "    float3 iPosition = input.position;",
    "",
    "    // Default output",
    "    float4 fragColor = float4(1.0, 1.0, 1.0, 1.0);",
    "",
    "// ---- USER CODE START ----"]

def slangMaterialTrailer : List String :=
  [
    "// ---- USER CODE END ----",
    "",
    "    return fragColor;",
    "\x7d"]

def slangShaderToyHeader : List String :=
  [
    "// Slang Fragment Shader - ShaderToy Mode",
    "",
    "// Uniforms",
    "uniform float3 iResolution;",
    "uniform float iTime;",
    "uniform float iTimeDelta;",
    "uniform float iFrame;",
    "uniform float iFrameRate;",
    "",
    "// Varyings",
    "struct VSInput",
    "\x7b",
    "    float2 uv : TEXCOORD0;",
    "\x7d;",
    "",
    "// Forward declaration for the user entry function",
    "void mainImage(out float4 fragColor, in float2 fragCoord);",
    "",
    "// ---- USER CODE START ----"]

def slangShaderToyTrailer : List String :=
  [
    "// ---- USER CODE END ----",
    "",
    "[shader(\"fragment\")]",
    "float4 fragmentMain(VSInput input) : SV_Target",
    "\x7b",
    "    float2 fragCoord = input.uv * iResolution.xy;",
    "    float4 fragColor = float4(0.0, 0.0, 0.0, 1.0);",
    "    mainImage(fragColor, fragCoord);",
    "    return fragColor;",
    "\x7d"]

def template : SourceLanguage → ExecutionMode → ModuleTemplate
  | .glsl, .materialLibrary =>
    { header := block glslMaterialHeader
      trailer := block glslMaterialTrailer
      placeholder := []
      symbols := materialUniforms ++
        [varyingSymbol "vUv" "iUV" 2, varyingSymbol "vNormal" "iNormal" 3,
          varyingSymbol "vPosition" "iPosition" 3] }
  | .glsl, .shaderToy =>
    { header := block glslShaderToyHeader
      trailer := block glslShaderToyTrailer
      placeholder := "void mainImage(out vec4 fragColor, in vec2 fragCoord) "
        ++ "\x7b fragColor = vec4(0.0, 0.0, 0.0, 1.0); \x7d\n"
      symbols := shaderToyUniforms ++ [varyingSymbol "vUv" "uv" 2] }
  | .slang, .materialLibrary =>
    { header := block slangMaterialHeader
      trailer := block slangMaterialTrailer
      placeholder := []
      symbols := materialUniforms ++
        [varyingSymbol "uv" "iUV" 2, varyingSymbol "normal" "iNormal" 3,
          varyingSymbol "position" "iPosition" 3] }
  | .slang, .shaderToy =>
    { header := block slangShaderToyHeader
      trailer := block slangShaderToyTrailer
      placeholder := "void mainImage(out float4 fragColor, in float2 fragCoord) "
        ++ "\x7b fragColor = float4(0.0, 0.0, 0.0, 1.0); \x7d\n"
      symbols := shaderToyUniforms ++ [varyingSymbol "uv" "uv" 2] }

structure UnsupportedCombination where
  language : Text ⊕ SourceLanguage
  mode : Text ⊕ ExecutionMode
  deriving Repr

def nameInMessage {α : Type} [Vocabulary α] : Text ⊕ α → Text
  | .inl name => name
  | .inr member => Vocabulary.title α ++ "." ++ Vocabulary.label member

def UnsupportedCombination.message (combination : UnsupportedCombination) : Text :=
  "Unsupported combination: " ++ nameInMessage combination.language ++ ", "
    ++ nameInMessage combination.mode

def templateByName (language mode : Text) : Except UnsupportedCombination ModuleTemplate :=
  match ofWireName? SourceLanguage language, ofWireName? ExecutionMode mode with
  | some language, some mode => .ok (template language mode)
  | known?, knownMode? =>
    .error ⟨known?.elim (.inl language) .inr, knownMode?.elim (.inl mode) .inr⟩

end ShaderBridge
