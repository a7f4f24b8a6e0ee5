import ShaderBridge.Proofs.Diagnostic.Report
import ShaderBridge.Proofs.Module.Wrap
import ShaderBridge.Proofs.Pipeline.Faults
import ShaderBridge.Proofs.Pipeline.ToolCalls
import ShaderBridge.Proofs.Toolchain.Plan
set_option autoImplicit false

/-! What the diagnostics of a result rest on. Each was printed by a tool of the run or is an error of
the pipeline's own without a line. From this follow the lines that diagnostics can carry, and when a
failure is explained by warnings alone. -/

namespace ShaderBridge

variable {σ : Type} {config : ToolchainConfig} {request : CompilationRequest}
variable {directory : Path} {events : List ToolEvent} {result : CompilationResult}

inductive Results (config : ToolchainConfig) (request : CompilationRequest) :
    List ToolEvent → CompilationResult → Prop where
  | rejected {only : Diagnostic} (severe : only.severity = .error) (lineless : only.line = none) :
      Results config request []
        ⟨.failed .validation [only], some request.target, some request.mode⟩
  | stopped {directory : Path} {written store : FileStore} {done pending : List StagePlan}
      {plan : StagePlan} {events : List ToolEvent} {event : ToolEvent} {run : ToolRun}
      {warnings diagnostics : List Diagnostic}
      (before : Progress config request directory written done events store warnings)
      (split : request.plan = done ++ plan :: pending)
      (planned : event.call = request.toolCall config directory plan)
      (ended : event.outcome = .ok run) (explains : request.Explains plan run diagnostics) :
      Results config request (events ++ [event])
        ⟨.failed plan.stage diagnostics, some request.target, some request.mode⟩
  | produced {directory : Path} {written store : FileStore} {events : List ToolEvent}
      {warnings : List Diagnostic} {artifact : Artifact}
      (all : Progress config request directory written request.plan events store warnings) :
      Results config request events (request.produced artifact warnings)

theorem taken_produced {store : FileStore} {warnings : List Diagnostic}
    (out : request.handedOut (.orFault (request.taken directory store warnings)) = .ok result) :
    ∃ artifact, result = request.produced artifact warnings := by
  have handed : ∀ {text}, request.handedOut (.text text warnings) = .ok result →
      ∃ artifact, result = request.produced artifact warnings := by
    intro text out
    obtain ⟨exported, _exported, rfl⟩ := Attempt.map_eq_ok_iff.mp out
    exact ⟨.source exported, rfl⟩
  cases reading : request.taken directory store warnings with
  | error fault =>
      rw [reading] at out
      cases out
  | ok delivery =>
      rw [reading] at out
      unfold CompilationRequest.taken at reading
      split at reading
      · obtain ⟨content, _read, rfl⟩ := Attempt.map_eq_ok_iff.mp reading
        cases out
        exact ⟨_, rfl⟩
      · split at reading
        · cases reading
          exact handed out
        · obtain ⟨text, _read, rfl⟩ := Attempt.map_eq_ok_iff.mp reading
          exact handed out

theorem Course.results {start after : FileStore}
    (course : Course config request start events (.ok result) after) :
    Results config request events result := by
  generalize out : Except.ok result = outcome at course
  cases course with
  | rejected disabled =>
      cases out
      exact .rejected rfl rfl
  | unopened enabled failed => cases out
  | removed enabled made delivered gone =>
      cases delivered with
      | torn _ _ | unwritten _ => cases out
      | stopped wrote before split planned judged =>
          obtain ⟨run, diagnostics, ended, explains, rfl⟩ :=
            CompilationRequest.judge_stopped judged
          cases out
          exact .stopped before split planned ended explains
      | faulted wrote before split planned judged => cases out
      | finished wrote all =>
          obtain ⟨artifact, rfl⟩ := taken_produced out.symm
          exact .produced all
  | @unremoved _ _ _ _ delivery _ enabled made delivered failed => cases delivery <;> cases out

inductive Diagnostic.Origin (config : ToolchainConfig) (request : CompilationRequest)
    (events : List ToolEvent) (diagnostic : Diagnostic) : Prop where
  | made (lineless : diagnostic.line = none)
  | printed {plan : StagePlan} {event : ToolEvent} {run : ToolRun} {found : List Diagnostic}
      (planned : plan ∈ request.plan) (recorded : event ∈ events)
      (runs : event.Runs config request plan) (ended : event.outcome = .ok run)
      (read : request.diagnosticsOf plan run = .ok found) (member : diagnostic ∈ found)

theorem Diagnostic.Origin.mono {fewer more : List ToolEvent} {diagnostic : Diagnostic}
    (origin : diagnostic.Origin config request fewer) (within : fewer ⊆ more) :
    diagnostic.Origin config request more := by
  cases origin with
  | made lineless => exact .made lineless
  | printed planned recorded runs ended read member =>
      exact .printed planned (within recorded) runs ended read member

theorem Progress.origin {written store : FileStore} {done : List StagePlan}
    {warnings : List Diagnostic}
    (progress : Progress config request directory written done events store warnings)
    (ahead : done ⊆ request.plan) :
    ∀ warning ∈ warnings, warning.Origin config request events := by
  induction progress with
  | start =>
      intro warning member
      cases member
  | passed before planned judged ih =>
      intro warning member
      rcases List.mem_append.mp member with earlier | last
      · have origin := ih (fun _plan inside => ahead (List.mem_append_left _ inside)) warning earlier
        exact origin.mono (List.subset_append_left _ _)
      · -- the stage itself passed, so its tool ended, and what is kept was read from its output
        obtain ⟨_passed, run, found, ended, read, rfl⟩ :=
          CompilationRequest.judge_passed_warnings judged
        exact .printed (ahead List.mem_concat_self) List.mem_concat_self (.of_call planned)
          ended read (List.mem_filter.mp last).1

theorem Results.origin (results : Results config request events result) :
    ∀ diagnostic ∈ result.diagnostics, diagnostic.Origin config request events := by
  intro diagnostic member
  cases results with
  | rejected severe lineless =>
      rw [List.mem_singleton.mp member]
      exact .made lineless
  | @stopped _ _ _ _ _ plan _ _ _ _ _ before split planned ended explains =>
      cases explains with
      | late | silent | missing =>
          rw [List.mem_singleton.mp member]
          exact .made rfl
      | printed unclean timely read some =>
          have inside : plan ∈ request.plan := by
            rw [split]
            exact List.mem_append_right _ List.mem_cons_self
          exact .printed inside List.mem_concat_self (.of_call planned) ended read member
  | produced all => exact all.origin (List.Subset.refl _) diagnostic member

theorem compile_results (toolbox : Toolbox σ) (config : ToolchainConfig)
    (request : CompilationRequest) (world : World σ) {after : World σ}
    (returned : compile toolbox config request world = (.ok result, after)) :
    Results config request
      (compile toolbox.recorded config request world.recorded).2.events result := by
  have course := compile_course toolbox config request world
  rw [compile_recorded] at returned
  rw [(Prod.mk.inj returned).1] at course
  exact course.results

/-- The rules of a stage's tool read the diagnostic from a printed line, with a number that belongs
to line `own` of the code in the module, which the stage reads itself. -/
structure Diagnostic.PlacedBy (request : CompilationRequest) (plan : StagePlan) (run : ToolRun)
    (diagnostic : Diagnostic) (own : Int) : Prop where
  reads : plan.consumesModule = true
  printed : ∃ line ∈ contentLines run.diagnosticText, ∃ severity digits code message,
    LineReading.ofLine? plan.tool line = some (.report severity (some digits) code message) ∧
    ofLine plan.tool request.module.lineOffset (some request.module.userLines) line =
      .ok (some diagnostic) ∧
    Text.digitsValue digits = request.module.lineOffset + own
  first : 1 ≤ own
  last : own ≤ request.module.userLines

theorem CompilationRequest.placedBy {plan : StagePlan} {run : ToolRun} {found : List Diagnostic}
    (planned : plan ∈ request.plan) (read : request.diagnosticsOf plan run = .ok found)
    {diagnostic : Diagnostic} (member : diagnostic ∈ found) {own : Int}
    (located : diagnostic.line = some own) : diagnostic.PlacedBy request plan run own := by
  have read := ofNumeral_eq_ok_iff.mp read
  cases reads : plan.consumesModule with
  | true =>
      rw [reads, if_pos rfl] at read
      obtain ⟨line, inside, severity, digits, code, message, report, made, mapped⟩ :=
        Diagnostic.line_of_mem read member located
      obtain ⟨same, first, last⟩ := remapLine_eq_some_iff.mp mapped
      exact ⟨reads, ⟨line, inside, severity, digits, code, message, report, made, same⟩, first, last⟩
  | false =>
      rw [reads, if_neg Bool.false_ne_true] at read
      obtain ⟨line, inside, severity, digits, code, message, report, made, mapped⟩ :=
        Diagnostic.line_of_mem read member located
      rw [tool_of_not_consumesModule planned reads] at report
      cases LineReading.lineless_of_converter report

theorem Diagnostic.PlacedBy.line {plan : StagePlan} {run : ToolRun} {diagnostic : Diagnostic}
    {own : Int} (placed : diagnostic.PlacedBy request plan run own) :
    diagnostic.line = some own := by
  obtain ⟨_reads, ⟨line, _inside, severity, digits, code, message, report, made, same⟩, first,
    last⟩ := placed
  have yielded := (Diagnostic.ofLine_eq_ok_iff.mp made).2
  rw [report] at yielded
  cases yielded
  exact remapLine_eq_some_iff.mpr ⟨same, first, last⟩

/-- A diagnostic of a result has a line exactly when a tool that reads the module placed it on that
line of the code in the module. This is a line that the user wrote, unless the fragment is blank:
then the one line that stands in for it in ShaderToy mode counts as the first line of the user. -/
theorem compile_places_diagnostics (toolbox : Toolbox σ) (config : ToolchainConfig)
    (request : CompilationRequest) (world : World σ) {result : CompilationResult} {after : World σ}
    (returned : compile toolbox config request world = (.ok result, after)) :
    let events := (compile toolbox.recorded config request world.recorded).2.events
    ∀ diagnostic ∈ result.diagnostics, ∀ own,
      (diagnostic.line = some own ↔ ∃ plan ∈ request.plan, ∃ event ∈ events,
        event.Runs config request plan ∧
          ∃ run, event.outcome = .ok run ∧ diagnostic.PlacedBy request plan run own) ∧
      (diagnostic.line = some own →
        (request.text.isBlankText = false ∧ 1 ≤ own ∧ own ≤ request.text.countLines) ∨
          (request.text.isBlankText = true ∧ request.mode = .shaderToy ∧ own = 1)) := by
  intro events diagnostic member own
  have origin := (compile_results toolbox config request world returned).origin diagnostic member
  have placed : diagnostic.line = some own → ∃ plan ∈ request.plan, ∃ event ∈ events,
      event.Runs config request plan ∧
        ∃ run, event.outcome = .ok run ∧ diagnostic.PlacedBy request plan run own := by
    intro located
    cases origin with
    | made lineless =>
        rw [lineless] at located
        cases located
    | @printed plan event run found planned recorded runs ended read inside =>
        exact ⟨plan, planned, event, recorded, runs, run, ended,
          request.placedBy planned read inside located⟩
  refine ⟨⟨placed, ?_⟩, ?_⟩
  · rintro ⟨_plan, _planned, _event, _recorded, _runs, _run, _ended, here⟩
    exact here.line
  · intro located
    obtain ⟨_plan, _planned, _event, _recorded, _runs, _run, _ended, here⟩ := placed located
    have first := here.first
    have last := here.last
    cases blank : request.text.isBlankText with
    | false =>
        have count : request.module.userLines = request.text.countLines :=
          countLines_embeddedCode blank _
        rw [count] at last
        exact .inl ⟨rfl, first, last⟩
    | true =>
        have count := userLines_wrap_of_blank blank request.language request.mode
        change request.module.userLines = _ at count
        rw [count] at last
        split at last
        · next mode => exact .inr ⟨rfl, mode, by omega⟩
        · omega

/-- An error that the compiler places on the line that stands in for an empty fragment. -/
theorem compile_places_diagnostics_of_empty_fragment :
    let request : CompilationRequest := { source := "", target := .hlsl, mode := .shaderToy }
    let broken : ToolAnswer :=
      ⟨.ok ⟨false, [], "shader.slang(20): error 1: no body".toList, none, some 1, false⟩, none⟩
    let run := compile .answering {} request (.answering [broken])
    let placed : Diagnostic := { message := "no body", line := some 1, code := some "1".toList }
    let result : CompilationResult :=
      ⟨.failed .slangCompilation [placed], some .hlsl, some .shaderToy⟩
    run = (.ok result, run.2) ∧ placed ∈ result.diagnostics ∧ request.text.countLines = 0 ∧
      ∃ plan ∈ request.plan, ∃ run, placed.PlacedBy request plan run 1 := by
  intro request broken run placed result
  have returned : run = (.ok result, run.2) := Prod.ext (by decide +kernel) rfl
  have member : placed ∈ result.diagnostics := List.mem_singleton_self _
  have places := compile_places_diagnostics .answering {} request _ returned placed member 1
  obtain ⟨plan, planned, _event, _recorded, _runs, run, _ended, here⟩ := places.1.mp rfl
  exact ⟨returned, member, rfl, plan, planned, run, here⟩

structure ToolRun.OnlyWarns (tool : Tool) (run : ToolRun) : Prop where
  unclean : run.exitedCleanly = false
  timely : run.timedOut = false
  reported : Diagnostic.severities tool run.diagnosticText ≠ []
  mild : ∀ severity ∈ Diagnostic.severities tool run.diagnosticText, severity = .warning

theorem CompilationRequest.exists_error_iff_of_read {plan : StagePlan} {run : ToolRun}
    {found : List Diagnostic} (read : request.diagnosticsOf plan run = .ok found)
    (some : found ≠ []) :
    (∃ diagnostic ∈ found, diagnostic.severity = .error) ↔
      ¬ (Diagnostic.severities plan.tool run.diagnosticText ≠ [] ∧
        ∀ severity ∈ Diagnostic.severities plan.tool run.diagnosticText, severity = .warning) := by
  have read := ofNumeral_eq_ok_iff.mp read
  split at read
  · exact Diagnostic.exists_error_iff some read
  · exact Diagnostic.exists_error_iff some read

theorem CompilationRequest.Explains.exists_error_iff {plan : StagePlan} {run : ToolRun}
    {diagnostics : List Diagnostic} (explains : request.Explains plan run diagnostics) :
    (∃ diagnostic ∈ diagnostics, diagnostic.severity = .error) ↔ ¬ run.OnlyWarns plan.tool := by
  cases explains with
  | late unclean late =>
      refine iff_of_true ⟨_, List.mem_singleton_self _, rfl⟩ fun warns => ?_
      rw [warns.timely] at late
      cases late
  | missing clean =>
      refine iff_of_true ⟨_, List.mem_singleton_self _, rfl⟩ fun warns => ?_
      rw [warns.unclean] at clean
      cases clean
  | silent unclean timely read =>
      refine iff_of_true ⟨_, List.mem_singleton_self _, rfl⟩ fun warns => ?_
      have blank := request.diagnosticsOf_eq_nil_iff.mp read
      exact warns.reported (Diagnostic.severities_eq_nil blank)
  | printed unclean timely read some =>
      rw [request.exists_error_iff_of_read read some]
      refine not_congr ⟨?_, fun warns => ⟨warns.reported, warns.mild⟩⟩
      rintro ⟨reported, mild⟩
      exact ⟨unclean, timely, reported, mild⟩

/-- The last tool on record only warned, although it failed. -/
inductive EndsInWarnings (request : CompilationRequest) (events : List ToolEvent) : Prop where
  | last {done pending : List StagePlan} {plan : StagePlan} {earlier : List ToolEvent}
      {last : ToolEvent} {run : ToolRun} (record : events = earlier ++ [last])
      (planned : request.plan = done ++ plan :: pending)
      (aligned : done.length = earlier.length) (ended : last.outcome = .ok run)
      (warns : run.OnlyWarns plan.tool)

theorem Results.exists_error_iff (results : Results config request events result)
    (failed : result.outcome = .failure) :
    (∃ diagnostic ∈ result.diagnostics, diagnostic.severity = .error) ↔
      ¬ EndsInWarnings request events := by
  cases results with
  | rejected severe lineless =>
      refine iff_of_true ⟨_, List.mem_singleton_self _, severe⟩ ?_
      rintro ⟨record⟩
      simp at record
  | @stopped _ _ _ done pending plan earlier last run _ _ before split planned ended explains =>
      refine explains.exists_error_iff.trans (not_congr ⟨.last rfl split before.length_eq ended, ?_⟩)
      rintro ⟨record, other, aligned, ran, warns⟩
      obtain ⟨rfl, same⟩ := List.append_inj' record rfl
      cases same
      -- both cut the plan at the number of calls on record, hence at the same stage
      obtain rfl := request.stage_unique split other (before.length_eq.trans aligned.symm)
      rw [ended] at ran
      cases ran
      exact warns
  | produced all => cases failed

/-- A failure holds an error unless the last tool failed in time and its rules find reports in what
it printed that are all warnings. -/
theorem compile_failure_names_error_iff (toolbox : Toolbox σ) (config : ToolchainConfig)
    (request : CompilationRequest) (world : World σ) {result : CompilationResult} {after : World σ}
    (returned : compile toolbox config request world = (.ok result, after))
    (failed : result.outcome = .failure) :
    (∃ diagnostic ∈ result.diagnostics, diagnostic.severity = .error) ↔
      ¬ EndsInWarnings request
        (compile toolbox.recorded config request world.recorded).2.events :=
  (compile_results toolbox config request world returned).exists_error_iff failed

/-- A failure that a single warning explains. -/
theorem compile_failure_names_error_iff_of_warning :
    let request : CompilationRequest := { source := "p", target := .hlsl }
    let failing : ToolAnswer :=
      ⟨.ok ⟨false, [], "warning 7: w".toList, none, some 1, false⟩, none⟩
    let run := compile .answering {} request (.answering [failing])
    let warning : Diagnostic := { message := "w", severity := .warning, code := some "7".toList }
    let result : CompilationResult :=
      ⟨.failed .slangCompilation [warning], some .hlsl, some .materialLibrary⟩
    run = (.ok result, run.2) ∧ result.outcome = .failure ∧
      EndsInWarnings request (compile Toolbox.answering.recorded {} request
        (World.answering [failing]).recorded).2.events := by
  intro request failing run warning result
  have returned : run = (.ok result, run.2) := Prod.ext (by decide +kernel) rfl
  have failed : result.outcome = .failure := rfl
  refine ⟨returned, failed, ?_⟩
  by_contra wellExplained
  have names := compile_failure_names_error_iff .answering {} request _ returned failed
  obtain ⟨_diagnostic, member, severe⟩ := names.mpr wellExplained
  rw [List.mem_singleton.mp member] at severe
  cases severe

end ShaderBridge
