import ShaderBridge.Diagnostic.Basic
import ShaderBridge.Text.Base64
import ShaderBridge.Text.Raw
set_option autoImplicit false

namespace ShaderBridge

/-- A request to compile a fragment. Callers can hand in any raw text. -/
structure CompilationRequest where
  source : RawText
  language : SourceLanguage := .slang
  target : TargetFormat := .glsl
  mode : ExecutionMode := .materialLibrary
  /-- Whether the artifact is made ready for people. -/
  clean : Bool := false
  deriving DecidableEq, Repr

/-- What a successful compilation produces: source text, or binary data in Base64. -/
inductive Artifact where
  | source (text : Text)
  | encoded (base64 : Text)
  deriving DecidableEq, Repr

/-- The bytes of an artifact: the data, or the UTF-8 form of the text. -/
def Artifact.bytes : Artifact → Except Base64.Problem Bytes
  | .source text => .ok (Utf8.encode text)
  | .encoded base64 => Base64.decode base64

/-- How a compilation ended: with an artifact and warnings, or at a stage, with the diagnostics
that explain the failure. -/
inductive Ending where
  | produced (artifact : Artifact) (warnings : List Diagnostic)
  | failed (stage : Stage) (diagnostics : List Diagnostic)
  deriving DecidableEq, Repr

/-- The result of a compilation, with the target and mode that were asked for where they are
known. -/
structure CompilationResult where
  ending : Ending
  target : Option TargetFormat
  mode : Option ExecutionMode
  deriving DecidableEq, Repr

namespace CompilationResult

def succeeded (result : CompilationResult) : Bool :=
  match result.ending with
  | .produced .. => true
  | .failed .. => false

def outcome (result : CompilationResult) : Outcome :=
  if result.succeeded then .success else .failure

def artifact? (result : CompilationResult) : Option Artifact :=
  match result.ending with
  | .produced artifact _ => some artifact
  | .failed .. => none

def artifactText (result : CompilationResult) : Option Text :=
  match result.artifact? with
  | some (.source text) => some text
  | _ => none

/-- The artifact of a success when it is binary, in Base64. -/
def artifactBase64 (result : CompilationResult) : Option Text :=
  match result.artifact? with
  | some (.encoded base64) => some base64
  | _ => none

def diagnostics (result : CompilationResult) : List Diagnostic :=
  match result.ending with
  | .produced _ warnings => warnings
  | .failed _ diagnostics => diagnostics

def failedStage (result : CompilationResult) : Option Stage :=
  match result.ending with
  | .produced .. => none
  | .failed stage _ => some stage

def failure? (stage : Stage) (diagnostics : List Diagnostic)
    (request : Option CompilationRequest) : Option CompilationResult :=
  if diagnostics.isEmpty then none
  else some ⟨.failed stage diagnostics, request.map (·.target), request.map (·.mode)⟩

end CompilationResult
end ShaderBridge
