import ShaderBridge.Export.Unreal
set_option autoImplicit false

namespace ShaderBridge

/-- The artifact made ready for people; a binary artifact stays as it is. -/
def exportArtifact (target : TargetFormat) (mode : ExecutionMode) (artifact : Text) :
    Except NumeralProblem Text :=
  match target with
  | .glsl => Export.glsl mode artifact
  | .hlsl => .ok (Export.hlsl mode artifact)
  | .unrealHlsl => Export.unreal mode artifact
  | .spirv => .ok artifact
  | .wgsl => .ok (Export.wgsl mode artifact)
  | .metal => .ok (Export.metal mode artifact)

/-- Whether a run exports its artifact. An Unreal node always does, since plain HLSL is no node
body; binary artifacts never do. -/
def isExported (target : TargetFormat) (clean : Bool) : Bool :=
  !target.isBinary && (clean || target == .unrealHlsl)

end ShaderBridge
