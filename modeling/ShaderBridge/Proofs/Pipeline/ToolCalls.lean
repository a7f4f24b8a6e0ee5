import Mathlib.Data.List.Forall2
import ShaderBridge.Proofs.Pipeline.Course
set_option autoImplicit false

namespace ShaderBridge

variable {σ : Type} {config : ToolchainConfig} {request : CompilationRequest}

/-- The call of an event is the one that is configured for a stage. -/
structure ToolEvent.Runs (config : ToolchainConfig) (request : CompilationRequest)
    (event : ToolEvent) (plan : StagePlan) : Prop where
  executable : event.call.executable = config.executable plan.tool
  arguments : event.call.arguments = plan.arguments
  timeout : event.call.timeout = config.timeoutFor plan.stage (request.language == .slang)

/-- The events of a run go through its plan: `made` is the part of the plan that was run, stage by
stage, and the outcome agrees with how far that is. -/
structure FollowsPlan (config : ToolchainConfig) (request : CompilationRequest)
    (events : List ToolEvent) (outcome : Except Fault CompilationResult)
    (made : List StagePlan) : Prop where
  ahead : made <+: planStages request.language request.target
  planned : List.Forall₂ (ToolEvent.Runs config request) events made
  gated : ∀ index, (later : index + 1 < events.length) → events[index].Passed
  raised : ∀ index, (within : index < events.length) → ∀ fault,
    events[index].outcome = .error fault → index + 1 = events.length
  complete : ∀ result, outcome = .ok result → result.outcome = .success →
    made = planStages request.language request.target
  attributed : ∀ result, outcome = .ok result → result.outcome = .failure →
    config.enabledTargets.contains request.target = true →
    made.getLast?.map StagePlan.stage = result.failedStage
  idle : config.enabledTargets.contains request.target = false → made = []

theorem ToolEvent.Passed.not_raised {event : ToolEvent} (passed : event.Passed) (fault : Fault) :
    event.outcome ≠ .error fault := by
  obtain ⟨run, ended, _clean, _produced⟩ := passed
  rw [ended]
  exact nofun

theorem ToolEvent.Runs.of_call {event : ToolEvent} {plan : StagePlan} {directory : Path}
    (planned : event.call = request.toolCall config directory plan) :
    event.Runs config request plan :=
  ⟨congrArg ToolCall.executable planned, congrArg ToolCall.arguments planned,
    congrArg ToolCall.timeout planned⟩

theorem runs_of_calls_eq {events : List ToolEvent} {made : List StagePlan} {directory : Path}
    (calls : events.map ToolEvent.call = made.map (request.toolCall config directory)) :
    List.Forall₂ (ToolEvent.Runs config request) events made := by
  have same : List.Forall₂ Eq (events.map ToolEvent.call)
      (made.map (request.toolCall config directory)) := by
    rw [calls]
    exact List.forall₂_same.mpr fun _call _member => rfl
  have paired := List.forall₂_map_right_iff.mp (List.forall₂_map_left_iff.mp same)
  exact paired.imp fun _event _plan planned => .of_call planned

theorem CompilationResult.FollowsFrom.complete {made : List StagePlan}
    {result : CompilationResult} (follows : result.FollowsFrom request made)
    (good : result.outcome = .success) : made = request.plan := by
  cases follows with
  | encoded all | source all => exact all
  | failed => cases good

theorem CompilationResult.FollowsFrom.attributed {made : List StagePlan}
    {result : CompilationResult} (follows : result.FollowsFrom request made)
    (bad : result.outcome = .failure) :
    made.getLast?.map StagePlan.stage = result.failedStage := by
  cases follows with
  | encoded | source => cases bad
  | failed last explained =>
      rw [last, List.getLast?_concat]
      rfl

theorem Course.followsPlan {start after : FileStore} {events : List ToolEvent}
    {outcome : Except Fault CompilationResult}
    (course : Course config request start events outcome after) :
    ∃ made, FollowsPlan config request events outcome made := by
  cases enabled : config.enabledTargets.contains request.target with
  | false =>
      obtain ⟨rfl, rfl, _same⟩ := course.of_disabled enabled
      refine ⟨[], List.nil_prefix, .nil, nofun, nofun, ?_, ?_, fun _disabled => rfl⟩
      · intro result out good
        cases out
        cases good
      · intro result _out _bad impossible
        rw [enabled] at impossible
        cases impossible
  | true =>
      obtain ⟨directory, made, ahead, calls, passed, follows⟩ := course.summary enabled
      have gated : ∀ index, (later : index + 1 < events.length) → events[index].Passed := by
        intro index later
        have within : index < events.dropLast.length := by
          rw [List.length_dropLast]
          omega
        rw [← List.getElem_dropLast within]
        exact passed _ (List.getElem_mem within)
      refine ⟨made, ahead, runs_of_calls_eq calls, gated, ?_, ?_, ?_, ?_⟩
      · intro index within fault failed
        by_contra more
        have later : index + 1 < events.length := by omega
        exact (gated index later).not_raised fault failed
      · intro result out good
        exact (follows result out).complete good
      · intro result out bad _enabled
        exact (follows result out).attributed bad
      · intro impossible
        rw [enabled] at impossible
        cases impossible

/-- A request whose target is not accepted never gets as far as a workspace. -/
theorem not_reaches_opened (toolbox : Toolbox σ) (world : World σ)
    (disabled : config.enabledTargets.contains request.target = false) (workspace : Workspace)
    (after : World σ) :
    ¬ Phase.Reaches toolbox config request (.requested, world) (.opened workspace, after) := by
  intro reached
  have active : Phase.requested.Active := trivial
  have outside := Phase.reaches_induction toolbox config request
    (fun phase _here => phase = .requested ∨ ∃ outcome, phase = .ended outcome)
    ?_ active (.inl rfl) reached
  · rcases outside with impossible | ⟨_, impossible⟩ <;> cases impossible
  · intro phase next here there standing move
    rcases standing with rfl | ⟨outcome, rfl⟩
    · cases move with
      | rejected => exact .inr ⟨_, rfl⟩
      | unopened enabled _ | opened enabled _ =>
          rw [disabled] at enabled
          cases enabled
    · cases move

/-- The tool calls of a compilation are a prefix of its plan, whatever the tools answer. They are
read off the record of the run, which changes nothing about it. -/
theorem compile_follows_plan (toolbox : Toolbox σ) (config : ToolchainConfig)
    (request : CompilationRequest) (world : World σ) :
    let run := compile toolbox.recorded config request world.recorded
    compile toolbox config request world = (run.1, run.2.forgotten) ∧
      run.2.calls = world.calls ++ run.2.events.map ToolEvent.call ∧
      (∃ made, FollowsPlan config request run.2.events run.1 made) ∧
      (config.enabledTargets.contains request.target = false →
        run.2.store = world.store ∧ ∀ workspace after,
          ¬ Phase.Reaches toolbox config request (.requested, world)
            (.opened workspace, after)) := by
  intro run
  have course := compile_course toolbox config request world
  refine ⟨compile_recorded toolbox config request world,
    compile_calls toolbox config request world, course.followsPlan, ?_⟩
  intro disabled
  obtain ⟨_none, _rejected, same⟩ := course.of_disabled disabled
  exact ⟨same, not_reaches_opened toolbox world disabled⟩

end ShaderBridge
