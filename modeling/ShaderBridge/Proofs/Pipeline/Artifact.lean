import ShaderBridge.Proofs.Pipeline.Faults
import ShaderBridge.Proofs.Text.Base64
set_option autoImplicit false

/-! What a compilation makes of a binary artifact: the Base64 form of the bytes that the last stage
left. The one thing that can come in between is the report of that stage, when it needs a number that
is too long. -/

namespace ShaderBridge

open Attempt (Fails)

variable {σ : Type}

/-- The tool of a stage printed a line number that is too long to be read. -/
def ToolEvent.Overlong (plan : StagePlan) (event : ToolEvent) : Prop :=
  ∃ run line, event.outcome = .ok run ∧ line ∈ Diagnostic.contentLines run.diagnosticText ∧
    LineReading.Overlong plan.tool line

section
variable {config : ToolchainConfig} {request : CompilationRequest} {directory : Path}
variable {plan : StagePlan}

/-- Only an overlong number keeps a stage that made its file from being judged. -/
theorem judge_fails_iff_of_passed {event : ToolEvent} (passed : event.Passed) :
    Fails (request.judge plan event) ↔ event.Overlong plan := by
  obtain ⟨run, ended, clean, made⟩ := passed
  have same : request.judge plan event = request.verdict plan event.call.timeout run := by
    unfold CompilationRequest.judge
    rw [ended]
    rfl
  rw [same, CompilationRequest.verdict_fails_iff]
  constructor
  · intro unreportable
    cases unreportable with
    | warning _ _ printed overlong => exact ⟨run, _, ended, printed, overlong⟩
    | limit bad | failure bad | status bad =>
        rw [clean] at bad
        cases bad
  · rintro ⟨_, line, again, printed, overlong⟩
    rw [ended] at again
    cases again
    exact .warning clean made printed overlong

/-- The Base64 form in a result is that of some bytes. -/
theorem taken_encoded {store : FileStore} {warnings : List Diagnostic}
    {result : CompilationResult} {base64 : Text}
    (taken : request.taken directory store warnings = .ok (.result result))
    (binary : result.artifact? = some (.encoded base64)) :
    ∃ content, base64 = Base64.encode content := by
  unfold CompilationRequest.taken at taken
  cases kind : request.target.isBinary with
  | true =>
      simp only [kind, if_true] at taken
      obtain ⟨content, _read, same⟩ := Attempt.map_eq_ok_iff.mp taken
      cases same
      cases binary
      exact ⟨content, rfl⟩
  | false =>
      simp only [kind, Bool.false_eq_true, if_false] at taken
      split at taken
      · cases taken
      · obtain ⟨text, _read, impossible⟩ := Attempt.map_eq_ok_iff.mp taken
        cases impossible

theorem Delivered.encoded {opened store : FileStore} {events : List ToolEvent}
    {result : CompilationResult} {base64 : Text}
    (delivered : Delivered config request directory opened events store (.result result))
    (binary : result.artifact? = some (.encoded base64)) :
    ∃ content, base64 = Base64.encode content := by
  generalize out : Delivery.result result = delivery at delivered
  cases delivered with
  | torn _ _ | unwritten _ => cases out
  | stopped wrote before split planned judged =>
      obtain ⟨_run, _diagnostics, _ended, _explains, same⟩ :=
        CompilationRequest.judge_stopped judged
      rw [same] at out
      cases out
      cases binary
  | faulted wrote before split planned judged => cases out
  | finished wrote all =>
      cases taken : request.taken directory store _ with
      | error fault =>
          rw [taken] at out
          cases out
      | ok delivery =>
          rw [taken] at out
          cases out
          exact taken_encoded taken binary

theorem Course.encoded {start after : FileStore} {events : List ToolEvent}
    {result : CompilationResult} {base64 : Text}
    (course : Course config request start events (.ok result) after)
    (binary : result.artifact? = some (.encoded base64)) :
    ∃ content, base64 = Base64.encode content := by
  generalize ended : Except.ok result = outcome at course
  cases course with
  | rejected disabled =>
      cases ended
      cases binary
  | unopened enabled failed => cases ended
  | @removed directory opened store _ _ delivery enabled made delivered gone =>
      cases delivery with
      | fault fault => cases ended
      | result given =>
          cases ended
          exact delivered.encoded binary
      | text text warnings =>
          obtain ⟨artifact, _exported, rfl⟩ := Attempt.map_eq_ok_iff.mp ended.symm
          cases binary
  | @unremoved _ _ _ _ delivery _ enabled made delivered failed =>
      cases delivery <;> cases ended

theorem compile_artifact_bytes {toolbox : Toolbox σ} {request : CompilationRequest}
    {world : World σ} {result : CompilationResult} {artifact : Artifact}
    (compiled : (compile toolbox config request world).1 = .ok result)
    (made : result.artifact? = some artifact) : ∃ content, artifact.bytes = .ok content := by
  cases artifact with
  | source text => exact ⟨_, rfl⟩
  | encoded base64 =>
      have course := compile_course toolbox config request world
      rw [compile_recorded] at compiled
      change (compile toolbox.recorded config request world.recorded).1 = .ok result at compiled
      rw [compiled] at course
      obtain ⟨content, rfl⟩ := course.encoded made
      exact ⟨content, Base64.decode_encode content⟩

theorem plan_eq_of_binary {front : List StagePlan} (binary : request.target = .spirv)
    (split : request.plan = front ++ [plan]) : request.plan = [plan] := by
  have single : request.plan.length = 1 := by
    unfold CompilationRequest.plan
    rw [binary]
    cases request.language <;> rfl
  rw [split, List.length_append, List.length_singleton] at single
  have none : front = [] := List.length_eq_zero_iff.mp (by omega)
  rw [split, none, List.nil_append]

/-- The artifact of a binary target is the file that the last stage made. -/
theorem taken_binary {front : List StagePlan} {last : ToolEvent} {warnings : List Diagnostic}
    {output : Path} {content : Bytes} (split : request.plan = front ++ [plan])
    (planned : last.call = request.toolCall config directory plan)
    (binary : request.target = .spirv) (expected : last.call.output = some output)
    (left : last.store.read output = .ok content) :
    request.taken directory last.store warnings =
      .ok (.result (request.produced (.encoded (Base64.encode content)) warnings)) := by
  rw [planned] at expected
  cases expected
  have held : Workspace.contentAt directory plan.output last.store = .ok content := by
    unfold Workspace.contentAt
    rw [left]
  have kind : request.target.isBinary = true := by
    rw [binary]
    rfl
  unfold CompilationRequest.taken
  rw [split, List.getLast?_concat]
  simp only [kind, if_true]
  change (Workspace.contentAt directory plan.output last.store).map _ = _
  rw [held]
  rfl

private theorem removable {front : List StagePlan} {last : ToolEvent} {output : Path}
    {content : Bytes} (split : request.plan = front ++ [plan])
    (planned : last.call = request.toolCall config directory plan)
    (expected : last.call.output = some output) (left : last.store.read output = .ok content) :
    ∃ after, last.store.removeTree directory = .ok after := by
  rw [planned] at expected
  cases expected
  have member : plan ∈ request.plan := by
    rw [split]
    exact List.mem_concat_self
  exact FileStore.removeTree_of_read_child (isName_output member) left

theorem Course.of_binary {start after : FileStore} {events : List ToolEvent}
    {outcome : Except Fault CompilationResult} {last : ToolEvent} {output : Path}
    {content : Bytes} (course : Course config request start events outcome after)
    (binary : request.target = .spirv) (finished : Finished request events last)
    (expected : last.call.output = some output) (left : last.store.read output = .ok content) :
    ((∃ stage ∈ request.plan, last.Overlong stage) ∧
        ∃ problem, outcome = .error (.numeral problem)) ∨
      (¬ ∃ stage ∈ request.plan, last.Overlong stage) ∧ ∃ warnings : List Diagnostic,
        (∀ warning ∈ warnings, warning.severity = .warning) ∧
        outcome = .ok (request.produced (.encoded (Base64.encode content)) warnings) := by
  cases course with
  | rejected disabled => cases finished.final
  | unopened enabled failed => cases finished.final
  | removed enabled made delivered gone =>
      obtain ⟨rfl, front, plan, split, planned, out⟩ := delivered.of_finished finished
      rw [judge_fails_iff_of_passed finished.passed] at out
      have stages : (∃ stage ∈ request.plan, last.Overlong stage) ↔ last.Overlong plan := by
        rw [plan_eq_of_binary binary split]
        simp
      rw [stages]
      rcases out with ⟨overlong, problem, rfl⟩ | ⟨legible, warnings, mild, rfl⟩
      · exact .inl ⟨overlong, problem, rfl⟩
      · rw [taken_binary split planned binary expected left]
        exact .inr ⟨legible, warnings, mild, rfl⟩
  | unremoved enabled made delivered failed =>
      obtain ⟨rfl, front, plan, split, planned, _out⟩ := delivered.of_finished finished
      obtain ⟨after, gone⟩ := removable split planned expected left
      rw [failed] at gone
      cases gone

end

/-- A compilation for a binary target whose last stage left its file is a success with the Base64
form of the file, unless a line number in the report of that stage is too long. -/
theorem compile_binary {toolbox : Toolbox σ} {config : ToolchainConfig}
    {request : CompilationRequest} {world : World σ} {last : ToolEvent} {output : Path}
    {content : Bytes} (binary : request.target = .spirv)
    (finished : Finished request
      (compile toolbox.recorded config request world.recorded).2.events last)
    (expected : last.call.output = some output) (left : last.store.read output = .ok content) :
    ((∃ stage ∈ request.plan, last.Overlong stage) ∧
        ∃ problem, (compile toolbox config request world).1 = .error (.numeral problem)) ∨
      (¬ ∃ stage ∈ request.plan, last.Overlong stage) ∧ ∃ warnings : List Diagnostic,
        (∀ warning ∈ warnings, warning.severity = .warning) ∧
        (compile toolbox config request world).1 =
          .ok (request.produced (.encoded (Base64.encode content)) warnings) := by
  rw [compile_recorded]
  exact (compile_course toolbox config request world).of_binary binary finished expected left

end ShaderBridge
