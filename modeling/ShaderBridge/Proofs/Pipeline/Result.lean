import ShaderBridge.Proofs.Pipeline.Course
import ShaderBridge.Proofs.Toolchain.Plan
set_option autoImplicit false

namespace ShaderBridge

variable {σ : Type}

namespace CompilationResult

/-- A success comes with one artifact, in the form that the target asks for, and with warnings
only. -/
structure SoundSuccess (request : CompilationRequest) (result : CompilationResult) : Prop where
  stageless : result.failedStage = none
  mild : ∀ diagnostic ∈ result.diagnostics, diagnostic.severity = .warning
  single : result.artifactText.isSome = !result.artifactBase64.isSome
  encoded : result.artifactBase64.isSome = true ↔ request.target = .spirv

/-- A failure comes without an artifact and with something that explains it, and names the stage
that the last of the calls that were made belongs to. -/
structure SoundFailure (config : ToolchainConfig) (request : CompilationRequest)
    (made : List ToolCall) (result : CompilationResult) : Prop where
  textless : result.artifactText = none
  byteless : result.artifactBase64 = none
  explained : result.diagnostics ≠ []
  rejected : result.failedStage = some .validation ↔
    config.enabledTargets.contains request.target = false
  attributed : config.enabledTargets.contains request.target = true →
    ∃ directory earlier last, earlier ++ [last] <+: request.plan ∧
      made = (earlier ++ [last]).map (request.toolCall config directory) ∧
      result.failedStage = some last.stage

variable {config : ToolchainConfig} {request : CompilationRequest} {result : CompilationResult}
variable {stages : List StagePlan}

theorem FollowsFrom.echoes (follows : result.FollowsFrom request stages) :
    result.target = some request.target ∧ result.mode = some request.mode := by
  cases follows with
  | encoded | source | failed => exact ⟨rfl, rfl⟩

theorem FollowsFrom.soundSuccess (follows : result.FollowsFrom request stages)
    (good : result.outcome = .success) : result.SoundSuccess request := by
  cases follows with
  | encoded all mild binary => exact ⟨rfl, mild, rfl, ⟨fun _ => binary, fun _ => rfl⟩⟩
  | source all mild textual =>
      have apart : false = true ↔ request.target = .spirv :=
        ⟨(nomatch ·), fun binary => absurd binary textual⟩
      exact ⟨rfl, mild, rfl, apart⟩
  | failed last explained => cases good

theorem FollowsFrom.soundFailure (follows : result.FollowsFrom request stages)
    (bad : result.outcome = .failure) (ahead : stages <+: request.plan)
    (enabled : config.enabledTargets.contains request.target = true) {directory : Path}
    {made : List ToolCall} (calls : made = stages.map (request.toolCall config directory)) :
    result.SoundFailure config request made := by
  cases follows with
  | encoded all mild binary => cases bad
  | source all mild textual => cases bad
  | @failed earlier plan diagnostics last explained =>
      have planned : plan ∈ request.plan := by
        apply ahead.subset
        rw [last]
        exact List.mem_concat_self
      have genuine := stage_ne_validation planned
      refine ⟨rfl, rfl, explained, ?_, ?_⟩
      · constructor
        · intro same
          exact absurd (Option.some.inj same) genuine
        · intro disabled
          rw [enabled] at disabled
          cases disabled
      · intro _enabled
        rw [last] at ahead calls
        exact ⟨directory, earlier, plan, ahead, calls, rfl⟩

end CompilationResult

/-- A result is sound for the request and for the calls that were made, whatever the tools
answered. -/
theorem compile_result_sound (toolbox : Toolbox σ) (config : ToolchainConfig)
    (request : CompilationRequest) (world : World σ) {result : CompilationResult}
    {after : World σ} (returned : compile toolbox config request world = (.ok result, after)) :
    result.target = some request.target ∧ result.mode = some request.mode ∧
      (result.outcome = .success → result.SoundSuccess request) ∧
      (result.outcome = .failure →
        ∃ made, after.calls = world.calls ++ made ∧ result.SoundFailure config request made) := by
  have course := compile_course toolbox config request world
  have counted := compile_calls toolbox config request world
  rw [compile_recorded] at returned
  obtain ⟨out, rfl⟩ := Prod.mk.inj returned
  cases enabled : config.enabledTargets.contains request.target with
  | false =>
      obtain ⟨_none, rejected, _same⟩ := course.of_disabled enabled
      rw [out] at rejected
      cases rejected
      refine ⟨rfl, rfl, ?_, ?_⟩
      · intro impossible
        cases impossible
      · intro _bad
        refine ⟨_, counted, rfl, rfl, List.cons_ne_nil _ _, ⟨fun _ => enabled, fun _ => rfl⟩, ?_⟩
        intro impossible
        rw [enabled] at impossible
        cases impossible
  | true =>
      obtain ⟨directory, stages, ahead, calls, _passed, follows⟩ := course.summary enabled
      have follows := follows result out
      obtain ⟨target, mode⟩ := follows.echoes
      refine ⟨target, mode, follows.soundSuccess, ?_⟩
      intro bad
      exact ⟨_, counted, follows.soundFailure bad ahead enabled calls⟩

/-- A run whose second tool fails. -/
theorem compile_result_sound_of_failed_converter :
    let request : CompilationRequest := { source := "c = 1;", language := .glsl, target := .hlsl }
    let validated : ToolAnswer := ⟨.ok ⟨true, [], [], some ⟨.root, []⟩, some 0, false⟩, some []⟩
    let broken : ToolAnswer := ⟨.ok ⟨false, [], "no entry".toList, none, some 1, false⟩, none⟩
    let run := compile .answering {} request (.answering [validated, broken])
    let result : CompilationResult :=
      ⟨.failed .spirvCross [{ message := "no entry" }], some .hlsl, some .materialLibrary⟩
    run = (.ok result, run.2) ∧ run.2.calls.length = 2 ∧
      ∃ made, run.2.calls = made ∧ result.SoundFailure {} request made := by
  intro request validated broken run result
  have returned : run = (.ok result, run.2) := Prod.ext (by decide +kernel) rfl
  refine ⟨returned, by decide +kernel, ?_⟩
  have sound := compile_result_sound .answering {} request _ returned
  exact sound.2.2.2 rfl

end ShaderBridge
