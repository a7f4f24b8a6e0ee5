import ShaderBridge.Http.CompileBody
import ShaderBridge.Pipeline.Result
import ShaderBridge.Toolchain.Probe
set_option autoImplicit false

/-! Answers of the server: a status and a content. The answer to a compile request says whether it
succeeded, carries the artifact and how it is encoded, the diagnostics in order, and on failure the
stage and the first message once more. -/

namespace ShaderBridge.Http

inductive Content where
  | json (value : JsonValue)
  | text (text : Text)
  /-- A description of what is wrong with a request, in the words of the server software. -/
  | complaint
  deriving Repr

structure Answer where
  status : Nat
  content : Content
  deriving Repr

def JsonValue.ofFields (fields : List (String × JsonValue)) : JsonValue :=
  .object (fields.map fun (name, value) => (.ofText name.toList, value))

namespace Answer

def detail (status : Nat) (message : Text) : Answer :=
  ⟨status, .json (.ofFields [("detail", .text message)])⟩

def internalError : Answer := ⟨500, .text "Internal Server Error"⟩

def ofValue (status : Nat) (value : JsonValue) : Answer :=
  if value.isWritable then ⟨status, .json value⟩ else internalError

/-- The answer to a body that is refused. The complaint quotes the refused values and fails where
one of them cannot be written. -/
def ofBodyProblem : BodyProblem → Answer
  | .unreadable .malformed => ⟨422, .complaint⟩
  | .unreadable .illFormed | .unreadable .longInteger | .unreadable .deepNesting =>
    detail 400 "There was an error parsing the body"
  | .refused values => if JsonValue.areWritable values then ⟨422, .complaint⟩ else internalError

end Answer

def JsonValue.ofDiagnostic (diagnostic : Diagnostic) : JsonValue :=
  .ofFields
    [("message", .text diagnostic.message), ("line", .ofOption .integer diagnostic.line),
      ("severity", .text (wireName diagnostic.severity)), ("code", .ofOption .text diagnostic.code)]

structure CompileAnswer where
  success : Bool
  code : Option Text := none
  encoding : Option Text := none
  target : JsonValue
  mode : JsonValue
  diagnostics : List JsonValue
  stage : Option Stage := none
  error : Option JsonValue := none

namespace CompileAnswer

def toJson (answer : CompileAnswer) : JsonValue :=
  .ofFields
    [("success", .boolean answer.success), ("code", .ofOption .text answer.code),
      ("encoding", .ofOption .text answer.encoding), ("target", answer.target),
      ("mode", answer.mode), ("diagnostics", .array answer.diagnostics),
      ("stage", .ofOption (fun stage => .text (wireName stage)) answer.stage),
      ("error", answer.error.getD .null)]

def ofResult (result : CompilationResult) : CompileAnswer :=
  let target := JsonValue.ofOption (fun target => .text (wireName target)) result.target
  let mode := JsonValue.ofOption (fun mode => .text (wireName mode)) result.mode
  let diagnostics := result.diagnostics.map JsonValue.ofDiagnostic
  match result.ending with
  | .produced (.source text) _ =>
    { success := true, code := some text, encoding := some "text", target := target, mode := mode,
      diagnostics := diagnostics }
  | .produced (.encoded base64) _ =>
    { success := true, code := some base64, encoding := some "base64", target := target,
      mode := mode, diagnostics := diagnostics }
  | .failed stage found =>
    { success := false, target := target, mode := mode, diagnostics := diagnostics,
      stage := some stage, error := found.head?.map fun diagnostic => .text diagnostic.message }

def ofBadName (body : CompileBody) (message : RawText) : CompileAnswer :=
  { success := false
    target := .string body.target
    mode := .string body.mode
    diagnostics := [.ofFields [("message", .string message), ("line", .null),
      ("severity", .text (wireName Severity.error)), ("code", .null)]]
    stage := some .validation
    error := some (.string message) }

end CompileAnswer

def JsonValue.ofToolStatus (status : ToolStatus) : JsonValue :=
  .ofFields
    [("tool", .text (wireName status.tool)), ("path", .text status.path),
      ("available", .boolean status.isAvailable), ("version", .ofOption .text status.version?),
      ("error", .ofOption .text status.error?)]

def JsonValue.ofTarget (target : TargetFormat) : JsonValue :=
  .ofFields
    [("id", .text (wireName target)), ("name", .text target.displayName),
      ("description", .text target.description)]

end ShaderBridge.Http
