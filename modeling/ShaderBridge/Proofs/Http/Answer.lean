import ShaderBridge.Http.Server
import ShaderBridge.Proofs.Cli.Job
set_option autoImplicit false

/-! Answers to compile requests. What is made of a result can always be written, so a request that
means something is answered with the result of its compilation. -/

namespace ShaderBridge.Http

variable {σ : Type}

namespace JsonValue

@[simp] theorem isWritable_text (content : Text) : (text content).isWritable = true := by
  simp [text, isWritable, RawText.toText?_ofText]

theorem isWritable_ofOption {α : Type} {value : α → JsonValue} (content : Option α)
    (each : ∀ content, (value content).isWritable = true) :
    (ofOption value content).isWritable = true := by
  cases content with
  | none => rfl
  | some content => exact each content

theorem isWritable_array {items : List JsonValue}
    (each : ∀ item ∈ items, item.isWritable = true) : (array items).isWritable = true := by
  unfold isWritable
  induction items with
  | nil => rfl
  | cons item items ih =>
      have first := each item List.mem_cons_self
      have rest := ih fun item member => each item (List.mem_cons_of_mem _ member)
      rw [areWritable, first, rest]
      rfl

theorem isWritable_ofFields {fields : List (String × JsonValue)}
    (each : ∀ field ∈ fields, field.2.isWritable = true) :
    (ofFields fields).isWritable = true := by
  unfold ofFields isWritable
  induction fields with
  | nil => rfl
  | cons field fields ih =>
      have first := each field List.mem_cons_self
      have rest := ih fun field member => each field (List.mem_cons_of_mem _ member)
      rw [List.map_cons, fieldsAreWritable, rest, first, RawText.toText?_ofText]
      simp

theorem isWritable_ofDiagnostic (diagnostic : Diagnostic) :
    (ofDiagnostic diagnostic).isWritable = true := by
  have line : (ofOption integer diagnostic.line).isWritable = true :=
    isWritable_ofOption diagnostic.line fun _number => rfl
  have code := isWritable_ofOption diagnostic.code isWritable_text
  refine isWritable_ofFields ?_
  simp [line, code]

end JsonValue

namespace CompileAnswer

theorem isWritable_toJson {answer : CompileAnswer} (target : answer.target.isWritable = true)
    (mode : answer.mode.isWritable = true)
    (diagnostics : ∀ item ∈ answer.diagnostics, item.isWritable = true)
    (error : (answer.error.getD .null).isWritable = true) : answer.toJson.isWritable = true := by
  have success : (JsonValue.boolean answer.success).isWritable = true := rfl
  have code := JsonValue.isWritable_ofOption answer.code JsonValue.isWritable_text
  have encoding := JsonValue.isWritable_ofOption answer.encoding JsonValue.isWritable_text
  have stage := JsonValue.isWritable_ofOption answer.stage
    fun stage => JsonValue.isWritable_text (wireName stage)
  have items := JsonValue.isWritable_array diagnostics
  refine JsonValue.isWritable_ofFields ?_
  simp [success, code, encoding, target, mode, items, stage, error]

/-- What is said of a result can be written. -/
theorem isWritable_ofResult (result : CompilationResult) :
    (ofResult result).toJson.isWritable = true := by
  have target := JsonValue.isWritable_ofOption result.target
    fun target => JsonValue.isWritable_text (wireName target)
  have mode := JsonValue.isWritable_ofOption result.mode
    fun mode => JsonValue.isWritable_text (wireName mode)
  have diagnostics : ∀ item ∈ result.diagnostics.map JsonValue.ofDiagnostic,
      item.isWritable = true := by
    intro item member
    obtain ⟨diagnostic, _member, rfl⟩ := List.mem_map.mp member
    exact JsonValue.isWritable_ofDiagnostic diagnostic
  unfold ofResult
  cases result.ending with
  | produced artifact warnings =>
      cases artifact with
      | source text => exact isWritable_toJson target mode diagnostics rfl
      | encoded base64 => exact isWritable_toJson target mode diagnostics rfl
  | failed stage found =>
      refine isWritable_toJson target mode diagnostics ?_
      cases found with
      | nil => rfl
      | cons first rest => exact JsonValue.isWritable_text first.message

end CompileAnswer

/-- A request that means something and whose compilation gives a result is answered with it. -/
theorem answer_of_compiled {toolbox : Toolbox σ} {config : ToolchainConfig} {call : Request}
    {body : CompileBody} {request : CompilationRequest} {world : World σ}
    {result : CompilationResult} (route : Endpoint.ofPath? call.path = some .compile)
    (method : call.method = Endpoint.method .compile)
    (read : CompileBody.ofBytes call.body = .ok body) (named : body.request = .ok request)
    (compiled : (compile toolbox config request world).1 = .ok result) :
    (answer toolbox config call world).1 =
      ⟨if result.succeeded then 200 else 400, .json (CompileAnswer.ofResult result).toJson⟩ := by
  have written := CompileAnswer.isWritable_ofResult result
  have answered : answerRequest (compile toolbox config request) world =
      (.ok (.ofValue (if result.succeeded then 200 else 400) (CompileAnswer.ofResult result).toJson),
        (compile toolbox config request world).2) := by
    -- the answer depends on nothing but what the compilation does in this world
    have here : answerRequest (compile toolbox config request) world =
        answerRequest (fun _world => compile toolbox config request world) world := rfl
    rw [here]
    rcases ran : compile toolbox config request world with ⟨outcome, after⟩
    rw [ran] at compiled
    cases compiled
    rfl
  simp only [answer, route, method, Endpoint.answer, read, answerCompile, named, answered, Answer.ofValue, written]
  rfl

end ShaderBridge.Http
