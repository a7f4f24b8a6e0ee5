import Mathlib.Data.List.Basic
import ShaderBridge.Proofs.Diagnostic.Translate
import ShaderBridge.Proofs.Pipeline.Course
import ShaderBridge.Proofs.Storage.Workspace
import ShaderBridge.Proofs.Toolchain.Plan
set_option autoImplicit false

/-! Faults that a run ends in although its tools raise operational ones only. There are five
sources of them: a root that no path can lead to, a fragment that is no Unicode text, a number that
is too long for a report, an artifact that is no text, and an export that meets a counter that is
too long. -/

namespace ShaderBridge

open Attempt (Fails)

variable {σ : Type}

/-- A run has a number in it that its report should show and that is too long to be read or
written: its time limit, a line number in what it printed, or its exit status. -/
inductive ToolRun.Unreportable (plan : StagePlan) (timeout : Int) (run : ToolRun) : Prop where
  | limit (unclean : run.exitedCleanly = false) (late : run.timedOut = true)
      (long : maxNumeralDigits < (Text.decimal timeout.natAbs).length)
  | failure {line : Text} (unclean : run.exitedCleanly = false) (timely : run.timedOut = false)
      (printed : line ∈ Diagnostic.contentLines run.diagnosticText)
      (overlong : LineReading.Overlong plan.tool line)
  | status {code : Int} (unclean : run.exitedCleanly = false) (timely : run.timedOut = false)
      (silent : run.diagnosticText.isBlankText = true) (exited : run.exitCode = some code)
      (long : maxNumeralDigits < (Text.decimal code.natAbs).length)
  | warning {line : Text} (clean : run.exitedCleanly = true) (made : run.produced.isSome = true)
      (printed : line ∈ Diagnostic.contentLines run.diagnosticText)
      (overlong : LineReading.Overlong plan.tool line)

namespace CompilationRequest

variable {request : CompilationRequest} {plan : StagePlan} {timeout : Int} {run : ToolRun}

theorem diagnosticsOf_fails_iff :
    Fails (request.diagnosticsOf plan run) ↔
      ∃ line ∈ Diagnostic.contentLines run.diagnosticText,
        LineReading.Overlong plan.tool line := by
  unfold diagnosticsOf
  rw [ofNumeral_fails_iff]
  split
  · exact Diagnostic.translate_fails_iff
  · exact Diagnostic.translate_fails_iff

theorem diagnosticsOf_eq_nil_iff :
    request.diagnosticsOf plan run = .ok [] ↔ run.diagnosticText.isBlankText = true := by
  unfold diagnosticsOf
  rw [ofNumeral_eq_ok_iff]
  split
  · exact Diagnostic.translate_eq_nil_iff
  · exact Diagnostic.translate_eq_nil_iff

private theorem failureDiagnostics_fails_of_late (late : run.timedOut = true) :
    Fails (request.failureDiagnostics plan timeout run) ↔
      maxNumeralDigits < (Text.decimal timeout.natAbs).length := by
  rw [← writeNumber_fails_iff, ← ofNumeral_fails_iff]
  unfold failureDiagnostics
  simp only [late, if_true]
  constructor
  · intro failed
    rcases Attempt.bind_fails_iff.mp failed with failed | ⟨limit, _written, impossible⟩
    · exact failed
    · exact absurd impossible (Attempt.not_fails_ok _)
  · intro failed
    exact Attempt.bind_fails_iff.mpr (.inl failed)

private theorem status_fails_iff :
    Fails (Fault.ofNumeral (run.exitCode.elim (.ok "None".toList) Text.writeNumber)) ↔
      ∃ code, run.exitCode = some code ∧ maxNumeralDigits < (Text.decimal code.natAbs).length := by
  rw [ofNumeral_fails_iff]
  cases run.exitCode with
  | none =>
      constructor
      · intro impossible
        exact absurd impossible (Attempt.not_fails_ok _)
      · rintro ⟨code, impossible, _long⟩
        cases impossible
  | some code =>
      constructor
      · intro failed
        exact ⟨code, rfl, writeNumber_fails_iff.mp failed⟩
      · rintro ⟨_, same, long⟩
        cases same
        exact writeNumber_fails_iff.mpr long

private theorem failureDiagnostics_fails_of_timely (timely : run.timedOut = false) :
    Fails (request.failureDiagnostics plan timeout run) ↔
      (∃ line ∈ Diagnostic.contentLines run.diagnosticText,
        LineReading.Overlong plan.tool line) ∨
      (run.diagnosticText.isBlankText = true ∧
        ∃ code, run.exitCode = some code ∧ maxNumeralDigits < (Text.decimal code.natAbs).length) := by
  rw [← @diagnosticsOf_fails_iff request, ← @diagnosticsOf_eq_nil_iff request plan,
    ← status_fails_iff]
  unfold failureDiagnostics
  simp only [timely, Bool.false_eq_true, if_false]
  constructor
  · intro failed
    rcases Attempt.bind_fails_iff.mp failed with failed | ⟨found, read, failed⟩
    · exact .inl failed
    · cases found with
      | nil =>
          rcases Attempt.bind_fails_iff.mp failed with failed | ⟨status, _written, impossible⟩
          · exact .inr ⟨read, failed⟩
          · exact absurd impossible (Attempt.not_fails_ok _)
      | cons first rest => exact absurd failed (Attempt.not_fails_ok _)
  · rintro (failed | ⟨read, failed⟩)
    · exact Attempt.bind_fails_iff.mpr (.inl failed)
    · refine Attempt.bind_fails_iff.mpr (.inr ⟨[], read, ?_⟩)
      exact Attempt.bind_fails_iff.mpr (.inl failed)

/-- There is no verdict on a run exactly when it cannot be reported. -/
theorem verdict_fails_iff :
    Fails (request.verdict plan timeout run) ↔ run.Unreportable plan timeout := by
  unfold verdict
  cases clean : run.exitedCleanly with
  | false =>
      simp only [if_true, Attempt.map_fails_iff]
      cases late : run.timedOut with
      | true =>
          rw [failureDiagnostics_fails_of_late late]
          constructor
          · exact .limit clean late
          · intro unreportable
            cases unreportable with
            | limit _ _ long => exact long
            | failure _ timely | status _ timely => simp [late] at timely
            | warning good => simp [clean] at good
      | false =>
          rw [failureDiagnostics_fails_of_timely late]
          constructor
          · rintro (⟨line, printed, overlong⟩ | ⟨silent, code, exited, long⟩)
            · exact .failure clean late printed overlong
            · exact .status clean late silent exited long
          · intro unreportable
            cases unreportable with
            | limit _ slow => simp [late] at slow
            | failure _ _ printed overlong => exact .inl ⟨_, printed, overlong⟩
            | status _ _ silent exited long => exact .inr ⟨silent, _, exited, long⟩
            | warning good => simp [clean] at good
  | true =>
      simp only [Bool.true_eq_false, if_false]
      cases made : run.produced with
      | none =>
          simp only [Option.isNone_none, if_true]
          constructor
          · intro impossible
            exact absurd impossible (Attempt.not_fails_ok _)
          · intro unreportable
            cases unreportable with
            | warning _ some => simp [made] at some
            | limit bad | failure bad | status bad => simp [clean] at bad
      | some path =>
          simp only [Option.isNone_some, Bool.false_eq_true, if_false, Attempt.map_fails_iff,
            diagnosticsOf_fails_iff]
          constructor
          · rintro ⟨line, printed, overlong⟩
            exact .warning clean (by rw [made]; rfl) printed overlong
          · intro unreportable
            cases unreportable with
            | warning _ _ printed overlong => exact ⟨_, printed, overlong⟩
            | limit bad | failure bad | status bad => simp [clean] at bad

theorem verdict_eq_error {fault : Fault}
    (failed : request.verdict plan timeout run = .error fault) :
    ∃ problem, fault = .numeral problem := by
  have reading : ∀ {fault}, request.diagnosticsOf plan run = .error fault →
      ∃ problem, fault = .numeral problem := fun failed => ofNumeral_eq_error failed
  unfold verdict at failed
  cases clean : run.exitedCleanly with
  | false =>
      simp only [clean, if_true, Attempt.map_eq_error_iff] at failed
      unfold failureDiagnostics at failed
      cases late : run.timedOut with
      | true =>
          simp only [late, if_true] at failed
          rcases Attempt.bind_eq_error_iff.mp failed with failed | ⟨limit, _written, impossible⟩
          · exact ofNumeral_eq_error failed
          · cases impossible
      | false =>
          simp only [late, Bool.false_eq_true, if_false] at failed
          rcases Attempt.bind_eq_error_iff.mp failed with failed | ⟨found, _read, failed⟩
          · exact reading failed
          · cases found with
            | nil =>
                rcases Attempt.bind_eq_error_iff.mp failed with failed | ⟨_, _, impossible⟩
                · exact ofNumeral_eq_error failed
                · cases impossible
            | cons first rest => cases failed
  | true =>
      simp only [clean, Bool.true_eq_false, if_false] at failed
      cases made : run.produced with
      | none =>
          simp only [made, Option.isNone_none, if_true] at failed
          cases failed
      | some path =>
          simp only [made, Option.isNone_some, Bool.false_eq_true, if_false,
            Attempt.map_eq_error_iff] at failed
          exact reading failed

end CompilationRequest

/-- The last of the planned stages was run and made its file. -/
structure Finished (request : CompilationRequest) (events : List ToolEvent)
    (last : ToolEvent) : Prop where
  final : events.getLast? = some last
  all : events.length = request.plan.length
  passed : last.Passed

section
variable {config : ToolchainConfig} {request : CompilationRequest} {directory : Path}

theorem Progress.last {written store : FileStore} {done : List StagePlan}
    {earlier : List ToolEvent} {last : ToolEvent} {warnings : List Diagnostic}
    (progress : Progress config request directory written done (earlier ++ [last]) store
      warnings) :
    ∃ front plan more, done = front ++ [plan] ∧ front.length = earlier.length ∧
      last.call = request.toolCall config directory plan ∧ store = last.store ∧
      request.judge plan last = .ok (.passed more) := by
  generalize record : earlier ++ [last] = events at progress
  cases progress with
  | start => simp at record
  | passed before planned judged =>
      obtain ⟨rfl, same⟩ := List.append_inj' record rfl
      cases same
      exact ⟨_, _, _, rfl, before.length_eq, planned, rfl, judged⟩

/-- The last call on record belongs to the stage at its place in the plan, and when there is no
verdict on it, that is what is delivered. -/
theorem Delivered.last {opened store : FileStore} {earlier : List ToolEvent} {last : ToolEvent}
    {delivery : Delivery}
    (delivered : Delivered config request directory opened (earlier ++ [last]) store delivery) :
    ∃ done plan pending, request.plan = done ++ plan :: pending ∧
      done.length = earlier.length ∧
      ∀ fault, request.judge plan last = .error fault → delivery = .fault fault := by
  generalize record : earlier ++ [last] = events at delivered
  cases delivered with
  | torn _ _ | unwritten _ => simp at record
  | stopped wrote before split planned judged =>
      obtain ⟨rfl, same⟩ := List.append_inj' record rfl
      cases same
      refine ⟨_, _, _, split, before.length_eq, ?_⟩
      intro fault failed
      rw [judged] at failed
      cases failed
  | faulted wrote before split planned judged =>
      obtain ⟨rfl, same⟩ := List.append_inj' record rfl
      cases same
      refine ⟨_, _, _, split, before.length_eq, ?_⟩
      intro fault failed
      rw [judged] at failed
      cases failed
      rfl
  | finished wrote all =>
      subst record
      obtain ⟨front, plan, more, split, aligned, _planned, _store, judged⟩ := all.last
      refine ⟨front, plan, [], split, aligned, ?_⟩
      intro fault failed
      rw [judged] at failed
      cases failed

theorem judge_ne_stopped {plan : StagePlan} {event : ToolEvent} (passed : event.Passed)
    (delivery : Delivery) : request.judge plan event ≠ .ok (.stopped delivery) := by
  obtain ⟨run, ended, clean, made⟩ := passed
  intro judged
  unfold CompilationRequest.judge CompilationRequest.verdict at judged
  rw [ended] at judged
  have kept : run.produced.isNone = false := by
    rw [← Option.not_isSome, made]
    rfl
  simp only [Except.bind, clean, kept, Bool.true_eq_false, Bool.false_eq_true, if_false] at judged
  obtain ⟨found, _read, impossible⟩ := Attempt.map_eq_ok_iff.mp judged
  cases impossible

/-- What is delivered once the last stage has made its file: what the file holds, unless the report
of the stage cannot be made. -/
theorem Delivered.of_finished {opened store : FileStore} {events : List ToolEvent}
    {last : ToolEvent} {delivery : Delivery}
    (delivered : Delivered config request directory opened events store delivery)
    (finished : Finished request events last) :
    store = last.store ∧
      ∃ front plan, request.plan = front ++ [plan] ∧
        last.call = request.toolCall config directory plan ∧
        ((Fails (request.judge plan last) ∧ ∃ problem, delivery = .fault (.numeral problem)) ∨
          ¬ Fails (request.judge plan last) ∧ ∃ warnings : List Diagnostic,
            (∀ warning ∈ warnings, warning.severity = .warning) ∧
            delivery = .orFault (request.taken directory store warnings)) := by
  obtain ⟨final, count, passed⟩ := finished
  cases delivered with
  | torn _ _ | unwritten _ => cases final
  | stopped wrote before split planned judged =>
      rw [List.getLast?_concat] at final
      cases final
      exact absurd judged (judge_ne_stopped passed _)
  | @faulted _ _ done pending plan earlier event _ fault wrote before split planned judged =>
      rw [List.getLast?_concat] at final
      cases final
      -- as many calls as stages: the one without a verdict is the last
      have none : pending = [] := by
        simp only [split, List.length_append, before.length_eq, List.length_cons,
          List.length_nil] at count
        exact List.length_eq_zero_iff.mp (by omega)
      rw [none] at split
      refine ⟨rfl, done, plan, split, planned, .inl ⟨⟨fault, judged⟩, ?_⟩⟩
      obtain ⟨run, ended, _clean, _made⟩ := passed
      unfold CompilationRequest.judge at judged
      rw [ended] at judged
      obtain ⟨problem, rfl⟩ := CompilationRequest.verdict_eq_error judged
      exact ⟨problem, rfl⟩
  | @finished _ _ _ warnings wrote all =>
      obtain ⟨earlier, rfl⟩ := List.getLast?_eq_some_iff.mp final
      obtain ⟨front, plan, more, split, _aligned, planned, same, judged⟩ := all.last
      have explained : ¬ Fails (request.judge plan last) := by
        rw [judged]
        exact Attempt.not_fails_ok _
      exact ⟨same, front, plan, split, planned, .inr ⟨explained, warnings, all.all_mild, rfl⟩⟩

end

/-- The text that an artifact has when it leaves the workspace: the module itself where it was only
checked, else the file that the last stage made. -/
inductive MakesText (request : CompilationRequest) (last : ToolEvent) : Text → Prop where
  | checked (only : request.language = .glsl ∧ request.target = .glsl) :
      MakesText request last request.module.text
  | compiled {output : Path} {content : Bytes} {decoded : Text}
      (textual : request.target.isBinary = false)
      (other : ¬ (request.language = .glsl ∧ request.target = .glsl))
      (expected : last.call.output = some output)
      (read : last.store.read output = .ok content)
      (formed : Utf8.decode? content = some decoded) :
      MakesText request last decoded.normalizeNewlines

structure Malformed (request : CompilationRequest) (last : ToolEvent) : Prop where
  textual : request.target.isBinary = false
  other : ¬ (request.language = .glsl ∧ request.target = .glsl)
  broken : ∃ output content, last.call.output = some output ∧
    last.store.read output = .ok content ∧ Utf8.decode? content = none

section
variable {config : ToolchainConfig} {request : CompilationRequest} {directory : Path}
variable {front : List StagePlan} {plan : StagePlan} {last : ToolEvent}
variable {warnings : List Diagnostic}

/-- What is taken is a fault of the file system, no text, or what the file holds. -/
theorem taken_cases (split : request.plan = front ++ [plan])
    (planned : last.call = request.toolCall config directory plan) :
    (∃ failure, last.store.read (directory.child plan.output) = .error failure ∧
      request.taken directory last.store warnings = .error (Workspace.faultAt directory
        (directory.child plan.output) (.notRead plan.output) failure)) ∨
    (Malformed request last ∧
      request.taken directory last.store warnings = .error .undecodable) ∨
    (∃ result, request.target.isBinary = true ∧
      request.taken directory last.store warnings = .ok (.result result)) ∨
    (∃ text, MakesText request last text ∧
      request.taken directory last.store warnings = .ok (.text text warnings)) := by
  have output : (request.plan.getLast?.map StagePlan.output).getD [] = plan.output := by
    rw [split, List.getLast?_concat]
    rfl
  have expected : last.call.output = some (directory.child plan.output) := by
    rw [planned]
    rfl
  unfold CompilationRequest.taken
  simp only [output]
  cases binary : request.target.isBinary with
  | true =>
      simp only [if_true, Workspace.contentAt]
      cases reading : last.store.read (directory.child plan.output) with
      | ok content => exact .inr (.inr (.inl ⟨_, trivial, rfl⟩))
      | error failure => exact .inl ⟨failure, rfl, rfl⟩
  | false =>
      by_cases only : request.language = .glsl ∧ request.target = .glsl
      · simp only [Bool.false_eq_true, if_false, if_pos only]
        exact .inr (.inr (.inr ⟨_, .checked only, rfl⟩))
      · simp only [Bool.false_eq_true, if_false, if_neg only, Workspace.contentAt]
        cases reading : last.store.read (directory.child plan.output) with
        | error failure => exact .inl ⟨failure, rfl, rfl⟩
        | ok content =>
            simp only [Except.bind, fileText]
            cases formed : Utf8.decode? content with
            | none =>
                have broken : Malformed request last :=
                  ⟨binary, only, _, content, expected, reading, formed⟩
                exact .inr (.inl ⟨broken, rfl⟩)
            | some decoded =>
                have made := MakesText.compiled binary only expected reading formed
                exact .inr (.inr (.inr ⟨_, made, rfl⟩))

private theorem taken_textual (split : request.plan = front ++ [plan])
    (planned : last.call = request.toolCall config directory plan)
    (textual : request.target.isBinary = false)
    (other : ¬ (request.language = .glsl ∧ request.target = .glsl)) {output : Path}
    {content : Bytes} (expected : last.call.output = some output)
    (read : last.store.read output = .ok content) :
    request.taken directory last.store warnings =
      (fileText content).map fun text => .text text warnings := by
  rw [planned] at expected
  cases expected
  have held : Workspace.contentAt directory plan.output last.store = .ok content := by
    unfold Workspace.contentAt
    rw [read]
  unfold CompilationRequest.taken
  rw [split, List.getLast?_concat]
  simp only [textual, Bool.false_eq_true, if_false, if_neg other]
  change ((Workspace.contentAt directory plan.output last.store).bind fileText).map _ = _
  rw [held]
  rfl

theorem Malformed.taken (split : request.plan = front ++ [plan])
    (planned : last.call = request.toolCall config directory plan)
    (malformed : Malformed request last) :
    request.taken directory last.store warnings = .error .undecodable := by
  obtain ⟨textual, other, output, content, expected, read, broken⟩ := malformed
  rw [taken_textual split planned textual other expected read, fileText, broken]
  rfl

theorem MakesText.taken {text : Text} (split : request.plan = front ++ [plan])
    (planned : last.call = request.toolCall config directory plan)
    (makes : MakesText request last text) :
    request.taken directory last.store warnings = .ok (.text text warnings) := by
  cases makes with
  | checked only =>
      have textual : request.target.isBinary = false := by rw [only.2]; rfl
      unfold CompilationRequest.taken
      simp only [textual, Bool.false_eq_true, if_false, if_pos only]
  | compiled textual other expected read formed =>
      rw [taken_textual split planned textual other expected read, fileText, formed]
      rfl

private theorem clear_child {name : Text} (clear : '\x00' ∉ directory.toText)
    (named : Path.IsName name) (plain : '\x00' ∉ name) :
    '\x00' ∉ (directory.child name).toText := by
  rw [Path.mem_toText (by decide) (by decide)] at clear ⊢
  rw [Path.child_name directory named]
  simp only [List.mem_append, List.mem_singleton]
  rintro ⟨part, member | rfl, null⟩
  · exact clear ⟨part, member, null⟩
  · exact plain null

private theorem faultAt_isOperational {path : Path} {problem : StorageProblem → WorkspaceProblem}
    {failure : StorageFailure} (reported : failure ≠ .nullCharacter) :
    (Workspace.faultAt directory path problem failure).isOperational = true := by
  have known : StorageProblem.isReported ⟨failure, path.toText⟩ = true := by
    simp [StorageProblem.isReported, reported]
  unfold Workspace.faultAt
  simp only [known, if_true]
  rfl

end

/-! ### The five sources -/

/-- What makes a run end in a fault that is not operational. -/
inductive Escapes (config : ToolchainConfig) (request : CompilationRequest) (start : FileStore)
    (events : List ToolEvent) : Prop where
  | root (null : '\x00' ∈ (config.workspaceRoot.getD start.temporary).toText)
  | module {directory : Path} {opened written : FileStore} (broken : request.source.toText? = none)
      (made : Workspace.create (config.workspaceRoot.getD start.temporary) start =
        .ok (directory, opened))
      (opens : opened.write (directory.child (sourceFile request.language)) [] = .ok written)
  | report {done pending : List StagePlan} {plan : StagePlan} {earlier : List ToolEvent}
      {last : ToolEvent} {run : ToolRun} (record : events = earlier ++ [last])
      (planned : request.plan = done ++ plan :: pending)
      (aligned : done.length = earlier.length) (ended : last.outcome = .ok run)
      (unreportable : run.Unreportable plan last.call.timeout)
  | artifact {last : ToolEvent} (finished : Finished request events last)
      (malformed : Malformed request last)
  | exporting {last : ToolEvent} {text : Text} {after : FileStore} {problem : NumeralProblem}
      (finished : Finished request events last) (made : MakesText request last text)
      (gone : last.store.removeTree last.call.directory = .ok after)
      (exported : isExported request.target request.clean = true)
      (refused : exportArtifact request.target request.mode text = .error problem)

section
variable {config : ToolchainConfig} {request : CompilationRequest}
variable {start opened store after : FileStore} {events : List ToolEvent} {directory : Path}
variable {delivery : Delivery} {outcome : Except Fault CompilationResult}

private theorem Progress.finished {written : FileStore} {warnings : List Diagnostic}
    (all : Progress config request directory written request.plan events store warnings) :
    ∃ last front plan, Finished request events last ∧ request.plan = front ++ [plan] ∧
      last.call = request.toolCall config directory plan ∧ store = last.store := by
  rcases List.eq_nil_or_concat' events with rfl | ⟨earlier, last, rfl⟩
  · exact absurd (List.length_eq_zero_iff.mp all.length_eq) (planStages_ne_nil _ _)
  · obtain ⟨front, plan, more, split, aligned, planned, same, judged⟩ := all.last
    have passed := all.all_passed last List.mem_concat_self
    exact ⟨last, front, plan, ⟨List.getLast?_concat, all.length_eq.symm, passed⟩, split, planned,
      same⟩

/-- A fault under way that is not operational has one of the sources. -/
private theorem Delivered.escapes {fault : Fault}
    (made : Workspace.create (config.workspaceRoot.getD start.temporary) start =
      .ok (directory, opened))
    (operational : ∀ event ∈ events, ∀ fault, event.outcome = .error fault →
      fault.isOperational = true)
    (delivered : Delivered config request directory opened events store (.fault fault))
    (grave : fault.isOperational = false) : Escapes config request start events := by
  obtain ⟨_place, new⟩ := Workspace.create_eq_ok made
  have clear := new.clear
  generalize under : Delivery.fault fault = delivery at delivered
  cases delivered with
  | torn broken wrote => exact .module broken made wrote
  | @unwritten failure failed =>
      have unheard : failure ≠ .nullCharacter := by
        rintro rfl
        exact clear_child clear (isName_sourceFile _) (null_not_mem_sourceFile _)
          (FileStore.write_null_iff.mp failed)
      cases under
      rw [faultAt_isOperational unheard] at grave
      cases grave
  | stopped wrote before split planned judged =>
      obtain ⟨_run, _diagnostics, _ended, _explains, same⟩ :=
        CompilationRequest.judge_stopped judged
      rw [same] at under
      cases under
  | @faulted _ _ done pending plan earlier last _ _ wrote before split planned judged =>
      cases under
      rcases Attempt.bind_eq_error_iff.mp judged with raised | ⟨run, ended, failed⟩
      · rw [operational last List.mem_concat_self fault raised] at grave
        cases grave
      · exact .report rfl split before.length_eq ended
          (CompilationRequest.verdict_fails_iff.mp ⟨fault, failed⟩)
  | @finished written _ _ warnings wrote all =>
      obtain ⟨last, front, plan, finished, split, planned, rfl⟩ := all.finished
      rcases @taken_cases config request directory front plan last warnings split planned with
        ⟨failure, failed, same⟩ | ⟨malformed, _same⟩ | ⟨result, _binary, same⟩ | ⟨text, _makes, same⟩
      · have unheard : failure ≠ .nullCharacter := by
          rintro rfl
          have member : plan ∈ request.plan := by
            rw [split]
            exact List.mem_concat_self
          exact clear_child clear (isName_output member) (null_not_mem_output member)
            (FileStore.read_null_iff.mp failed)
        rw [same] at under
        cases under
        rw [faultAt_isOperational unheard] at grave
        cases grave
      · exact .artifact finished malformed
      · rw [same] at under
        cases under
      · rw [same] at under
        cases under

private theorem Delivered.of_broken (broken : request.source.toText? = none)
    {written : FileStore}
    (opens : opened.write (directory.child (sourceFile request.language)) [] = .ok written)
    (delivered : Delivered config request directory opened events store delivery) :
    delivery = .fault .unencodable := by
  have unreadable (readable : request.source.toText?.isSome = true) : False := by
    rw [broken] at readable
    cases readable
  cases delivered with
  | torn _ _ => rfl
  | unwritten failed =>
      rw [CompilationRequest.moduleBytes_of_broken broken, opens] at failed
      cases failed
  | stopped wrote | faulted wrote | finished wrote => exact (unreadable wrote.readable).elim

/-- Each source inside the workspace leads to a fault that is not operational, or to a text whose
export is refused. -/
private theorem Delivered.of_escapes
    (made : Workspace.create (config.workspaceRoot.getD start.temporary) start =
      .ok (directory, opened))
    (delivered : Delivered config request directory opened events store delivery)
    (escapes : Escapes config request start events) :
    (∃ fault, delivery = .fault fault ∧ fault.isOperational = false) ∨
      ∃ text warnings problem after, delivery = .text text warnings ∧
        isExported request.target request.clean = true ∧
        exportArtifact request.target request.mode text = .error problem ∧
        store.removeTree directory = .ok after := by
  cases escapes with
  | root null =>
      obtain ⟨cause, failed, _unheard⟩ := Workspace.create_unreported_iff.mpr null
      rw [made] at failed
      cases failed
  | module broken again opens =>
      rw [made] at again
      cases again
      exact .inl ⟨_, delivered.of_broken broken opens, rfl⟩
  | @report done pending plan earlier last run record planned aligned ended unreportable =>
      subst record
      obtain ⟨front, other, rest, split, level, faulty⟩ := delivered.last
      -- both cut the plan at the number of calls on record, hence at the same stage
      obtain rfl := request.stage_unique planned split (aligned.trans level.symm)
      obtain ⟨fault, failed⟩ :=
        (@CompilationRequest.verdict_fails_iff request plan _ run).mpr unreportable
      have judged : request.judge plan last = .error fault := by
        unfold CompilationRequest.judge
        rw [ended]
        exact failed
      obtain ⟨problem, rfl⟩ := CompilationRequest.verdict_eq_error failed
      exact .inl ⟨_, faulty _ judged, rfl⟩
  | artifact finished malformed =>
      obtain ⟨rfl, front, plan, split, planned, out⟩ := delivered.of_finished finished
      rcases out with ⟨_failed, problem, rfl⟩ | ⟨_explained, warnings, _mild, rfl⟩
      · exact .inl ⟨_, rfl, rfl⟩
      · rw [malformed.taken split planned]
        exact .inl ⟨_, rfl, rfl⟩
  | exporting finished makes gone exported refused =>
      obtain ⟨rfl, front, plan, split, planned, out⟩ := delivered.of_finished finished
      rcases out with ⟨_failed, problem, rfl⟩ | ⟨_explained, warnings, _mild, rfl⟩
      · exact .inl ⟨_, rfl, rfl⟩
      · rw [makes.taken split planned]
        rw [planned] at gone
        exact .inr ⟨_, _, _, _, rfl, exported, refused, gone⟩

private theorem Delivered.makesText {text : Text} {warnings : List Diagnostic}
    (delivered : Delivered config request directory opened events store (.text text warnings)) :
    ∃ last, Finished request events last ∧ MakesText request last text ∧ store = last.store ∧
      last.call.directory = directory := by
  generalize out : Delivery.text text warnings = delivery at delivered
  cases delivered with
  | torn _ _ | unwritten _ => cases out
  | stopped wrote before split planned judged =>
      obtain ⟨_run, _diagnostics, _ended, _explains, same⟩ :=
        CompilationRequest.judge_stopped judged
      rw [same] at out
      cases out
  | faulted wrote before split planned judged => cases out
  | @finished written _ _ found wrote all =>
      obtain ⟨last, front, plan, finished, split, planned, rfl⟩ := all.finished
      rcases @taken_cases config request directory front plan last found split planned with
        ⟨failure, _failed, same⟩ | ⟨_malformed, same⟩ | ⟨result, _binary, same⟩ | ⟨_, makes, same⟩
      · rw [same] at out
        cases out
      · rw [same] at out
        cases out
      · rw [same] at out
        cases out
      · rw [same] at out
        cases out
        exact ⟨last, finished, makes, rfl, by rw [planned]; rfl⟩

private theorem handedOut_text_eq_error_iff {text : Text} {warnings : List Diagnostic}
    {fault : Fault} :
    request.handedOut (.text text warnings) = .error fault ↔
      isExported request.target request.clean = true ∧
        ∃ problem, exportArtifact request.target request.mode text = .error problem ∧
          fault = .numeral problem := by
  unfold CompilationRequest.handedOut
  rw [Attempt.map_eq_error_iff]
  cases isExported request.target request.clean with
  | false => simp
  | true =>
      cases exportArtifact request.target request.mode text with
      | ok artifact => simp [Fault.ofNumeral]
      | error problem => simp [Fault.ofNumeral, eq_comm]

private theorem creationFault_isOperational (root : Option Path) (cause : StorageProblem) :
    (Workspace.creationFault root cause).isOperational = cause.isReported := by
  unfold Workspace.creationFault
  cases cause.isReported with
  | true => rfl
  | false => rfl

theorem Course.escapes {fault : Fault}
    (operational : ∀ event ∈ events, ∀ fault, event.outcome = .error fault →
      fault.isOperational = true)
    (course : Course config request start events (.error fault) after)
    (grave : fault.isOperational = false) :
    config.enabledTargets.contains request.target = true ∧
      Escapes config request start events := by
  generalize out : Except.error fault = outcome at course
  cases course with
  | rejected disabled => cases out
  | @unopened cause enabled failed =>
      cases out
      rw [creationFault_isOperational] at grave
      exact ⟨enabled, .root (Workspace.create_unreported_iff.mp ⟨cause, failed, grave⟩)⟩
  | @removed directory opened store _ _ delivery enabled made delivered gone =>
      refine ⟨enabled, ?_⟩
      cases delivery with
      | fault cause =>
          cases out
          exact delivered.escapes made operational grave
      | result given => cases out
      | text text warnings =>
          obtain ⟨exported, problem, refused, _same⟩ := handedOut_text_eq_error_iff.mp out.symm
          obtain ⟨last, finished, makes, rfl, rfl⟩ := delivered.makesText
          exact .exporting finished makes gone exported refused
  | @unremoved directory opened store _ delivery failure enabled made delivered failed =>
      refine ⟨enabled, ?_⟩
      cases delivery with
      | fault cause =>
          cases out
          exact delivered.escapes made operational grave
      | result given | text artifact warnings =>
          cases out
          cases grave

theorem Course.grave_of_escapes
    (course : Course config request start events outcome after)
    (enabled : config.enabledTargets.contains request.target = true)
    (escapes : Escapes config request start events) :
    ∃ fault, outcome = .error fault ∧ fault.isOperational = false := by
  cases course with
  | rejected disabled =>
      rw [disabled] at enabled
      cases enabled
  | unopened _ failed =>
      cases escapes with
      | root null =>
          obtain ⟨cause, same, unheard⟩ := Workspace.create_unreported_iff.mpr null
          rw [failed] at same
          cases same
          exact ⟨_, rfl, (creationFault_isOperational _ _).trans unheard⟩
      | module _ made =>
          rw [failed] at made
          cases made
      | report record => simp at record
      | artifact finished => cases finished.final
      | exporting finished => cases finished.final
  | removed _ made delivered gone =>
      rcases delivered.of_escapes made escapes with
        ⟨fault, rfl, grave⟩ | ⟨text, warnings, problem, _, rfl, exported, refused, _gone⟩
      · exact ⟨fault, rfl, grave⟩
      · exact ⟨_, handedOut_text_eq_error_iff.mpr ⟨exported, problem, refused, rfl⟩, rfl⟩
  | unremoved _ made delivered failed =>
      rcases delivered.of_escapes made escapes with
        ⟨fault, rfl, grave⟩ | ⟨text, warnings, problem, _, rfl, exported, refused, gone⟩
      · exact ⟨fault, rfl, grave⟩
      · rw [failed] at gone
        cases gone

private theorem Delivered.of_raised {event : ToolEvent} {fault : Fault}
    (delivered : Delivered config request directory opened events store delivery)
    (member : event ∈ events) (raised : event.outcome = .error fault) :
    delivery = .fault fault := by
  have unpassed : ¬ event.Passed := by
    rintro ⟨run, ended, _clean, _made⟩
    rw [raised] at ended
    cases ended
  cases delivered with
  | torn _ _ | unwritten _ => cases member
  | stopped wrote before split planned judged =>
      rcases List.mem_append.mp member with earlier | last
      · exact absurd (before.all_passed event earlier) unpassed
      · obtain ⟨run, _diagnostics, ended, _explains, _same⟩ :=
          CompilationRequest.judge_stopped judged
        rw [← List.mem_singleton.mp last, raised] at ended
        cases ended
  | faulted wrote before split planned judged =>
      rcases List.mem_append.mp member with earlier | last
      · exact absurd (before.all_passed event earlier) unpassed
      · rw [← List.mem_singleton.mp last] at judged
        unfold CompilationRequest.judge at judged
        rw [raised] at judged
        cases judged
        rfl
  | finished wrote all => exact absurd (all.all_passed event member) unpassed

theorem Course.of_raised {event : ToolEvent} {fault : Fault}
    (course : Course config request start events outcome after)
    (member : event ∈ events) (raised : event.outcome = .error fault) :
    outcome = .error fault := by
  cases course with
  | rejected disabled => cases member
  | unopened enabled failed => cases member
  | removed enabled made delivered gone =>
      rw [delivered.of_raised member raised]
      rfl
  | unremoved enabled made delivered failed =>
      rw [delivered.of_raised member raised]
      rfl

end

/-- Whatever the tools raise, a compilation ends in a fault that is not operational exactly when
one of them raises such a fault or for one of the five sources. -/
theorem compile_grave_iff (toolbox : Toolbox σ) (config : ToolchainConfig)
    (request : CompilationRequest) (world : World σ) :
    (∃ fault, (compile toolbox config request world).1 = .error fault ∧
        fault.isOperational = false) ↔
      (∃ event ∈ (compile toolbox.recorded config request world.recorded).2.events,
        ∃ fault, event.outcome = .error fault ∧ fault.isOperational = false) ∨
      (config.enabledTargets.contains request.target = true ∧
        Escapes config request world.store
          (compile toolbox.recorded config request world.recorded).2.events) := by
  have course := compile_course toolbox config request world
  rw [compile_recorded]
  constructor
  · rintro ⟨fault, out, grave⟩
    change (compile toolbox.recorded config request world.recorded).1 = .error fault at out
    rw [out] at course
    refine Classical.or_iff_not_imp_left.mpr fun quiet => course.escapes ?_ grave
    intro event member cause raised
    by_contra unexpected
    exact quiet ⟨event, member, cause, raised, Bool.eq_false_iff.mpr unexpected⟩
  · rintro (⟨event, member, fault, raised, grave⟩ | ⟨enabled, escapes⟩)
    · exact ⟨fault, course.of_raised member raised, grave⟩
    · exact course.grave_of_escapes enabled escapes

/-- A compilation whose tools raise operational faults only ends in any other fault exactly for
one of the five sources. -/
theorem compile_escapes_iff (toolbox : Toolbox σ) (config : ToolchainConfig)
    (request : CompilationRequest) (world : World σ)
    (operational : ∀ event ∈ (compile toolbox.recorded config request world.recorded).2.events,
      ∀ fault, event.outcome = .error fault → fault.isOperational = true) :
    (∃ fault, (compile toolbox config request world).1 = .error fault ∧
        fault.isOperational = false) ↔
      config.enabledTargets.contains request.target = true ∧
        Escapes config request world.store
          (compile toolbox.recorded config request world.recorded).2.events := by
  have course := compile_course toolbox config request world
  rw [compile_recorded]
  constructor
  · rintro ⟨fault, out, grave⟩
    change (compile toolbox.recorded config request world.recorded).1 = .error fault at out
    rw [out] at course
    exact course.escapes operational grave
  · rintro ⟨enabled, escapes⟩
    exact course.grave_of_escapes enabled escapes

/-- A tool that exits cleanly and leaves a byte that is not UTF-8 where text is expected. -/
theorem compile_escapes_of_malformed_artifact :
    let request : CompilationRequest := { source := "x", language := .slang, target := .hlsl }
    let mangled : ToolAnswer := ⟨.ok ⟨true, [], [], some ⟨.root, []⟩, some 0, false⟩, some [255]⟩
    let world : World (List ToolAnswer) := .answering [mangled]
    let run := compile Toolbox.answering.recorded {} request world.recorded
    (compile .answering {} request world).1 = .error .undecodable ∧
      (∀ event ∈ run.2.events, ∀ fault, event.outcome = .error fault →
        fault.isOperational = true) ∧
      Escapes {} request world.store run.2.events := by
  intro request mangled world run
  have raised : (compile .answering {} request world).1 = .error .undecodable := by decide +kernel
  have answered : run.2.events.all (fun event => event.outcome.isOk) = true := by decide +kernel
  have operational : ∀ event ∈ run.2.events, ∀ fault, event.outcome = .error fault →
      fault.isOperational = true := by
    intro event member fault failed
    have well := List.all_eq_true.mp answered event member
    rw [failed] at well
    cases well
  have source := (compile_escapes_iff .answering {} request world operational).mp
    ⟨.undecodable, raised, rfl⟩
  exact ⟨raised, operational, source.2⟩

example : (compile .answering {} { source := [.surrogate 0xD800] } (.answering [])).1 =
    .error .unencodable := by
  decide +kernel

end ShaderBridge
