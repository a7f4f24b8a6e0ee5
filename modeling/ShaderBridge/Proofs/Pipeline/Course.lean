import ShaderBridge.Proofs.Pipeline.Recording
set_option autoImplicit false

/-! The courses that a run can take, read off the record of its tool calls. `Course` lists the ways
in which a run ends, each with the calls that led there, the verdicts on them and the files at
hand; `compile_course` says that every run takes one of them. Laws about results, tool calls and
faults are case distinctions over `Course`, without another induction over the phases. -/

namespace ShaderBridge

variable {σ : Type}

def ToolEvent.Passed (event : ToolEvent) : Prop :=
  ∃ run, event.outcome = .ok run ∧ run.exitedCleanly = true ∧ run.produced.isSome = true

namespace CompilationRequest

def judge (request : CompilationRequest) (plan : StagePlan) (event : ToolEvent) :
    Except Fault StageVerdict :=
  event.outcome.bind (request.verdict plan event.call.timeout)

theorem failed_eq (request : CompilationRequest) (stage : Stage) {diagnostics : List Diagnostic}
    (explained : diagnostics ≠ []) :
    request.failed stage diagnostics =
      .ok ⟨.failed stage diagnostics, some request.target, some request.mode⟩ := by
  cases diagnostics with
  | nil => exact absurd rfl explained
  | cons first rest => rfl

section
variable {request : CompilationRequest} {plan : StagePlan} {run : ToolRun}
variable {diagnostics : List Diagnostic}

/-- How a stage that stops the run is explained, after what its tool did: by what the tool printed,
or by one diagnostic in its place. -/
inductive Explains (request : CompilationRequest) (plan : StagePlan) (run : ToolRun) :
    List Diagnostic → Prop where
  | late {limit : Text} (unclean : run.exitedCleanly = false) (late : run.timedOut = true) :
      Explains request plan run
        [{ message := wireName plan.tool ++ " timed out after " ++ limit ++ " ms"
           code := some "timeout" }]
  | printed {found : List Diagnostic} (unclean : run.exitedCleanly = false)
      (timely : run.timedOut = false) (read : request.diagnosticsOf plan run = .ok found)
      (some : found ≠ []) : Explains request plan run found
  | silent {status : Text} (unclean : run.exitedCleanly = false) (timely : run.timedOut = false)
      (read : request.diagnosticsOf plan run = .ok []) :
      Explains request plan run
        [{ message := wireName plan.tool ++ " exited with status " ++ status }]
  | missing (clean : run.exitedCleanly = true) :
      Explains request plan run [{ message := wireName plan.tool ++ " produced no output" }]

theorem Explains.ne_nil (explains : request.Explains plan run diagnostics) : diagnostics ≠ [] := by
  cases explains with
  | late | silent | missing => exact List.cons_ne_nil _ _
  | printed unclean timely read some => exact some

theorem failureDiagnostics_explains {timeout : Int} (unclean : run.exitedCleanly = false)
    (explained : request.failureDiagnostics plan timeout run = .ok diagnostics) :
    request.Explains plan run diagnostics := by
  unfold failureDiagnostics at explained
  cases late : run.timedOut with
  | true =>
      simp only [late, if_true] at explained
      obtain ⟨limit, _written, made⟩ := Attempt.bind_eq_ok_iff.mp explained
      cases made
      exact .late unclean late
  | false =>
      simp only [late, Bool.false_eq_true, if_false] at explained
      obtain ⟨found, read, made⟩ := Attempt.bind_eq_ok_iff.mp explained
      cases found with
      | nil =>
          obtain ⟨status, _written, made⟩ := Attempt.bind_eq_ok_iff.mp made
          cases made
          exact .silent unclean late read
      | cons first rest =>
          cases made
          exact .printed unclean late read (List.cons_ne_nil _ _)

/-- The two ways to a verdict on a run that ended. -/
theorem verdict_cases {timeout : Int} {verdict : StageVerdict}
    (judged : request.verdict plan timeout run = .ok verdict) :
    (∃ diagnostics, request.Explains plan run diagnostics ∧ verdict = .stopped
      (.result ⟨.failed plan.stage diagnostics, some request.target, some request.mode⟩)) ∨
    (run.exitedCleanly = true ∧ run.produced.isSome = true ∧
      ∃ found, request.diagnosticsOf plan run = .ok found ∧
        verdict = .passed (found.filter fun diagnostic => diagnostic.severity == .warning)) := by
  unfold CompilationRequest.verdict at judged
  cases clean : run.exitedCleanly with
  | false =>
      simp only [clean, if_true] at judged
      obtain ⟨diagnostics, explained, rfl⟩ := Attempt.map_eq_ok_iff.mp judged
      have explains := failureDiagnostics_explains clean explained
      rw [failed_eq request plan.stage explains.ne_nil]
      exact .inl ⟨diagnostics, explains, rfl⟩
  | true =>
      simp only [clean, Bool.true_eq_false, if_false] at judged
      cases produced : run.produced with
      | none =>
          simp only [produced, Option.isNone_none, if_true] at judged
          cases judged
          rw [failed_eq request plan.stage (List.cons_ne_nil _ _)]
          exact .inl ⟨_, .missing clean, rfl⟩
      | some path =>
          simp only [produced, Option.isNone_some, Bool.false_eq_true, if_false] at judged
          obtain ⟨found, read, rfl⟩ := Attempt.map_eq_ok_iff.mp judged
          exact .inr ⟨rfl, rfl, found, read, rfl⟩

theorem judge_passed_warnings {event : ToolEvent} {more : List Diagnostic}
    (judged : request.judge plan event = .ok (.passed more)) :
    event.Passed ∧ ∃ run found, event.outcome = .ok run ∧
      request.diagnosticsOf plan run = .ok found ∧
      more = found.filter fun diagnostic => diagnostic.severity == .warning := by
  obtain ⟨run, ended, judged⟩ := Attempt.bind_eq_ok_iff.mp judged
  rcases verdict_cases judged with ⟨_, _, impossible⟩ | ⟨clean, produced, found, read, same⟩
  · cases impossible
  · cases same
    exact ⟨⟨run, ended, clean, produced⟩, run, found, ended, read, rfl⟩

theorem judge_passed {event : ToolEvent} {more : List Diagnostic}
    (judged : request.judge plan event = .ok (.passed more)) :
    event.Passed ∧ ∀ diagnostic ∈ more, diagnostic.severity = .warning := by
  obtain ⟨passed, _run, found, _ended, _read, rfl⟩ := judge_passed_warnings judged
  refine ⟨passed, ?_⟩
  intro diagnostic member
  exact of_decide_eq_true (List.mem_filter.mp member).2

theorem judge_stopped {event : ToolEvent} {delivery : Delivery}
    (judged : request.judge plan event = .ok (.stopped delivery)) :
    ∃ run diagnostics, event.outcome = .ok run ∧ request.Explains plan run diagnostics ∧
      delivery =
        .result ⟨.failed plan.stage diagnostics, some request.target, some request.mode⟩ := by
  obtain ⟨run, ended, judged⟩ := Attempt.bind_eq_ok_iff.mp judged
  rcases verdict_cases judged with ⟨diagnostics, explains, same⟩ | ⟨_, _, _, _, impossible⟩
  · cases same
    exact ⟨run, diagnostics, ended, explains, rfl⟩
  · cases impossible

end
end CompilationRequest

section
variable (config : ToolchainConfig) (request : CompilationRequest)

/-- The stages of `done` were run one after the other and all passed, with these calls on record,
these files left and these warnings collected. -/
inductive Progress (directory : Path) (written : FileStore) :
    List StagePlan → List ToolEvent → FileStore → List Diagnostic → Prop where
  | start : Progress directory written [] [] written []
  | passed {done : List StagePlan} {events : List ToolEvent} {store : FileStore}
      {warnings more : List Diagnostic} {plan : StagePlan} {event : ToolEvent}
      (before : Progress directory written done events store warnings)
      (planned : event.call = request.toolCall config directory plan)
      (judged : request.judge plan event = .ok (.passed more)) :
      Progress directory written (done ++ [plan]) (events ++ [event]) event.store
        (warnings ++ more)

structure Written (directory : Path) (opened written : FileStore) : Prop where
  readable : request.source.toText?.isSome = true
  content : opened.write (directory.child (sourceFile request.language))
    (Utf8.encode request.module.text) = .ok written

/-- What is taken out of a workspace that was made in `opened`, with the calls on record until then
and the files at that time. -/
inductive Delivered (directory : Path) (opened : FileStore) :
    List ToolEvent → FileStore → Delivery → Prop where
  | torn {store : FileStore} (broken : request.source.toText? = none)
      (wrote : opened.write (directory.child (sourceFile request.language)) [] = .ok store) :
      Delivered directory opened [] store (.fault .unencodable)
  | unwritten {failure : StorageFailure}
      (failed : opened.write (directory.child (sourceFile request.language))
        request.moduleBytes = .error failure) :
      Delivered directory opened [] opened (.fault (Workspace.faultAt directory
        (directory.child (sourceFile request.language))
        (.notWritten (sourceFile request.language)) failure))
  | stopped {written store : FileStore} {done pending : List StagePlan} {plan : StagePlan}
      {events : List ToolEvent} {event : ToolEvent} {warnings : List Diagnostic}
      {delivery : Delivery} (wrote : Written request directory opened written)
      (before : Progress config request directory written done events store warnings)
      (split : request.plan = done ++ plan :: pending)
      (planned : event.call = request.toolCall config directory plan)
      (judged : request.judge plan event = .ok (.stopped delivery)) :
      Delivered directory opened (events ++ [event]) event.store delivery
  | faulted {written store : FileStore} {done pending : List StagePlan} {plan : StagePlan}
      {events : List ToolEvent} {event : ToolEvent} {warnings : List Diagnostic}
      {fault : Fault} (wrote : Written request directory opened written)
      (before : Progress config request directory written done events store warnings)
      (split : request.plan = done ++ plan :: pending)
      (planned : event.call = request.toolCall config directory plan)
      (judged : request.judge plan event = .error fault) :
      Delivered directory opened (events ++ [event]) event.store (.fault fault)
  | finished {written store : FileStore} {events : List ToolEvent}
      {warnings : List Diagnostic} (wrote : Written request directory opened written)
      (all : Progress config request directory written request.plan events store warnings) :
      Delivered directory opened events store
        (.orFault (request.taken directory store warnings))

/-- The ways in which a run from `start` ends: the calls on record, what comes out, and the files
that are left. -/
inductive Course (start : FileStore) :
    List ToolEvent → Except Fault CompilationResult → FileStore → Prop where
  | rejected (disabled : config.enabledTargets.contains request.target = false) :
      Course start [] request.rejected start
  | unopened {cause : StorageProblem}
      (enabled : config.enabledTargets.contains request.target = true)
      (failed : Workspace.create (config.workspaceRoot.getD start.temporary) start =
        .error cause) :
      Course start [] (.error (Workspace.creationFault config.workspaceRoot cause)) start
  | removed {directory : Path} {opened store after : FileStore} {events : List ToolEvent}
      {delivery : Delivery}
      (enabled : config.enabledTargets.contains request.target = true)
      (made : Workspace.create (config.workspaceRoot.getD start.temporary) start =
        .ok (directory, opened))
      (delivered : Delivered config request directory opened events store delivery)
      (gone : store.removeTree directory = .ok after) :
      Course start events (request.handedOut delivery) after
  | unremoved {directory : Path} {opened store : FileStore} {events : List ToolEvent}
      {delivery : Delivery} {failure : StorageFailure}
      (enabled : config.enabledTargets.contains request.target = true)
      (made : Workspace.create (config.workspaceRoot.getD start.temporary) start =
        .ok (directory, opened))
      (delivered : Delivered config request directory opened events store delivery)
      (failed : store.removeTree directory = .error failure) :
      Course start events (delivery.leftBehind directory failure) store

/-- Where a run stands on its course: what the record and the files say in each phase. -/
def Phase.OnCourse (start : FileStore) : Phase → List ToolEvent → FileStore → Prop
  | .requested, events, store => events = [] ∧ store = start
  | .opened workspace, events, store =>
      ∃ directory, workspace = ⟨config.workspaceRoot, some directory⟩ ∧
        config.enabledTargets.contains request.target = true ∧
        Workspace.create (config.workspaceRoot.getD start.temporary) start =
          .ok (directory, store) ∧
        events = []
  | .running workspace pending warnings, events, store =>
      ∃ directory opened written done,
        workspace = ⟨config.workspaceRoot, some directory⟩ ∧
        config.enabledTargets.contains request.target = true ∧
        Workspace.create (config.workspaceRoot.getD start.temporary) start =
          .ok (directory, opened) ∧
        Written request directory opened written ∧
        Progress config request directory written done events store warnings ∧
        request.plan = done ++ pending
  | .closing workspace delivery, events, store =>
      ∃ directory opened, workspace = ⟨config.workspaceRoot, some directory⟩ ∧
        config.enabledTargets.contains request.target = true ∧
        Workspace.create (config.workspaceRoot.getD start.temporary) start =
          .ok (directory, opened) ∧
        Delivered config request directory opened events store delivery
  | .ended outcome, events, store => Course config request start events outcome store

end

/-- A move stays on the course, and what it puts on record are the calls that the world counts. -/
theorem Phase.OnCourse.move {toolbox : Toolbox σ} {config : ToolchainConfig}
    {request : CompilationRequest} {start : FileStore} {phase next : Phase}
    {world after : World (σ × List ToolEvent)}
    (standing : phase.OnCourse config request start world.events world.store)
    (move : Phase.Move toolbox.recorded config request phase world next after) :
    next.OnCourse config request start after.events after.store := by
  cases move with
  | rejected disabled =>
      obtain ⟨none, rfl⟩ := standing
      change Course _ _ _ world.events _ _
      rw [none]
      exact .rejected disabled
  | unopened enabled failed =>
      obtain ⟨none, rfl⟩ := standing
      change Course _ _ _ world.events _ _
      rw [none]
      exact .unopened enabled failed
  | opened enabled made =>
      obtain ⟨none, rfl⟩ := standing
      exact ⟨_, rfl, enabled, made, none⟩
  | written readable wrote =>
      obtain ⟨directory, same, enabled, made, none⟩ := standing
      cases same
      refine ⟨_, _, _, [], rfl, enabled, made, ⟨readable, wrote⟩, ?_, rfl⟩
      change Progress _ _ _ _ _ world.events _ _
      rw [none]
      exact .start
  | torn broken wrote =>
      obtain ⟨directory, same, enabled, made, none⟩ := standing
      cases same
      refine ⟨_, _, rfl, enabled, made, ?_⟩
      change Delivered _ _ _ _ world.events _ _
      rw [none]
      exact .torn broken wrote
  | unwritten failed =>
      obtain ⟨directory, same, enabled, made, none⟩ := standing
      cases same
      refine ⟨_, _, rfl, enabled, made, ?_⟩
      rw [none]
      exact .unwritten failed
  | @ran _ _ _ _ plan pending _ call outcome tools store planned answered =>
      obtain ⟨directory, opened, written, done, same, enabled, made, wrote, before, split⟩ :=
        standing
      cases same
      have noted : tools.2 = world.events ++ [⟨call, outcome, store⟩] :=
        Toolbox.recorded_events answered
      change Phase.OnCourse _ _ _ (Phase.afterStage _ _ _
        (request.judge plan ⟨call, outcome, store⟩)) tools.2 store
      rw [noted]
      -- the verdict alone decides between the next stage and the way out
      cases judged : request.judge plan ⟨call, outcome, store⟩ with
      | error fault =>
          exact ⟨_, _, rfl, enabled, made, .faulted wrote before split planned judged⟩
      | ok verdict =>
          cases verdict with
          | stopped delivery =>
              exact ⟨_, _, rfl, enabled, made, .stopped wrote before split planned judged⟩
          | passed more =>
              refine ⟨_, _, _, done ++ [plan], rfl, enabled, made, wrote,
                .passed before planned judged, ?_⟩
              rw [split, List.append_assoc, List.singleton_append]
  | read =>
      obtain ⟨directory, opened, written, done, same, enabled, made, wrote, before, split⟩ :=
        standing
      cases same
      rw [List.append_nil] at split
      refine ⟨_, _, rfl, enabled, made, .finished wrote ?_⟩
      rw [split]
      exact before
  | removed gone =>
      obtain ⟨directory, opened, same, enabled, made, delivered⟩ := standing
      cases same
      exact .removed enabled made delivered gone
  | unremoved failed =>
      obtain ⟨directory, opened, same, enabled, made, delivered⟩ := standing
      cases same
      exact .unremoved enabled made delivered failed

/-- Every run takes one of the courses. -/
theorem compile_course (toolbox : Toolbox σ) (config : ToolchainConfig)
    (request : CompilationRequest) (world : World σ) :
    Course config request world.store
      (compile toolbox.recorded config request world.recorded).2.events
      (compile toolbox.recorded config request world.recorded).1
      (compile toolbox.recorded config request world.recorded).2.store := by
  have start : Phase.requested.OnCourse config request world.store
      world.recorded.events world.recorded.store := ⟨rfl, rfl⟩
  have active : Phase.requested.Active := trivial
  have reached := Phase.reaches_settle toolbox.recorded config request .requested world.recorded
  exact Phase.reaches_induction toolbox.recorded config request
    (fun phase here => phase.OnCourse config request world.store here.events here.store)
    (fun standing move => standing.move move) active start reached

section
variable {config : ToolchainConfig} {request : CompilationRequest} {directory : Path}

theorem Progress.calls_eq {written store : FileStore} {done : List StagePlan}
    {events : List ToolEvent} {warnings : List Diagnostic}
    (progress : Progress config request directory written done events store warnings) :
    events.map ToolEvent.call = done.map (request.toolCall config directory) := by
  induction progress with
  | start => rfl
  | passed before planned judged ih =>
      simp only [List.map_append, List.map_cons, List.map_nil, ih, planned]

theorem Progress.length_eq {written store : FileStore} {done : List StagePlan}
    {events : List ToolEvent} {warnings : List Diagnostic}
    (progress : Progress config request directory written done events store warnings) :
    done.length = events.length := by
  have same := congrArg List.length progress.calls_eq
  rw [List.length_map, List.length_map] at same
  exact same.symm

theorem CompilationRequest.stage_unique {done pending other rest : List StagePlan}
    {plan stage : StagePlan} (split : request.plan = done ++ plan :: pending)
    (again : request.plan = other ++ stage :: rest) (level : done.length = other.length) :
    plan = stage := by
  obtain ⟨_same, rows⟩ := List.append_inj (split.symm.trans again) level
  exact (List.cons.inj rows).1

theorem Progress.all_passed {written store : FileStore} {done : List StagePlan}
    {events : List ToolEvent} {warnings : List Diagnostic}
    (progress : Progress config request directory written done events store warnings) :
    ∀ event ∈ events, event.Passed := by
  induction progress with
  | start =>
      intro event member
      cases member
  | passed before planned judged ih =>
      intro event member
      rcases List.mem_append.mp member with earlier | last
      · exact ih event earlier
      · rw [List.mem_singleton.mp last]
        exact (CompilationRequest.judge_passed judged).1

theorem Progress.all_mild {written store : FileStore} {done : List StagePlan}
    {events : List ToolEvent} {warnings : List Diagnostic}
    (progress : Progress config request directory written done events store warnings) :
    ∀ warning ∈ warnings, warning.severity = .warning := by
  induction progress with
  | start =>
      intro warning member
      cases member
  | passed before planned judged ih =>
      intro warning member
      rcases List.mem_append.mp member with earlier | more
      · exact ih warning earlier
      · exact (CompilationRequest.judge_passed judged).2 warning more

inductive CompilationResult.FollowsFrom (request : CompilationRequest) (made : List StagePlan) :
    CompilationResult → Prop where
  | encoded {base64 : Text} {warnings : List Diagnostic} (all : made = request.plan)
      (mild : ∀ warning ∈ warnings, warning.severity = .warning)
      (binary : request.target = .spirv) :
      FollowsFrom request made (request.produced (.encoded base64) warnings)
  | source {text : Text} {warnings : List Diagnostic} (all : made = request.plan)
      (mild : ∀ warning ∈ warnings, warning.severity = .warning)
      (textual : request.target ≠ .spirv) :
      FollowsFrom request made (request.produced (.source text) warnings)
  | failed {done : List StagePlan} {plan : StagePlan} {diagnostics : List Diagnostic}
      (last : made = done ++ [plan]) (explained : diagnostics ≠ []) :
      FollowsFrom request made
        ⟨.failed plan.stage diagnostics, some request.target, some request.mode⟩

def Delivery.FollowsFrom (request : CompilationRequest) (made : List StagePlan) :
    Delivery → Prop
  | .fault _ => True
  | .result given => given.FollowsFrom request made
  | .text _ warnings => made = request.plan ∧
      (∀ warning ∈ warnings, warning.severity = .warning) ∧ request.target ≠ .spirv

theorem Delivery.FollowsFrom.handedOut {made : List StagePlan} {delivery : Delivery}
    (follows : delivery.FollowsFrom request made) {result : CompilationResult}
    (out : request.handedOut delivery = .ok result) : result.FollowsFrom request made := by
  cases delivery with
  | fault fault => cases out
  | result given =>
      cases out
      exact follows
  | text artifact warnings =>
      obtain ⟨all, mild, textual⟩ := follows
      obtain ⟨text, _exported, rfl⟩ := Attempt.map_eq_ok_iff.mp out
      exact .source all mild textual

theorem taken_followsFrom {store : FileStore} {warnings : List Diagnostic}
    (mild : ∀ warning ∈ warnings, warning.severity = .warning) :
    (Delivery.orFault (request.taken directory store warnings)).FollowsFrom request
      request.plan := by
  cases reading : request.taken directory store warnings with
  | error fault => exact trivial
  | ok delivery =>
      unfold CompilationRequest.taken at reading
      by_cases binary : request.target = .spirv
      · have isBinary : request.target.isBinary = true := by rw [binary]; rfl
        simp only [isBinary, if_true] at reading
        obtain ⟨content, _read, rfl⟩ := Attempt.map_eq_ok_iff.mp reading
        exact CompilationResult.FollowsFrom.encoded rfl mild binary
      · have isText : request.target.isBinary = false := beq_eq_false_iff_ne.mpr binary
        simp only [isText, Bool.false_eq_true, if_false] at reading
        split at reading
        · cases reading
          exact ⟨rfl, mild, binary⟩
        · obtain ⟨text, _read, rfl⟩ := Attempt.map_eq_ok_iff.mp reading
          exact ⟨rfl, mild, binary⟩

theorem Delivered.summary {opened store : FileStore} {events : List ToolEvent}
    {delivery : Delivery}
    (delivered : Delivered config request directory opened events store delivery) :
    ∃ made, made <+: request.plan ∧
      events.map ToolEvent.call = made.map (request.toolCall config directory) ∧
      (∀ event ∈ events.dropLast, event.Passed) ∧
      delivery.FollowsFrom request made := by
  cases delivered with
  | torn _ _ | unwritten _ =>
      refine ⟨[], List.nil_prefix, rfl, ?_, trivial⟩
      intro event member
      cases member
  | @stopped _ _ done pending plan events event _ delivery wrote before split planned judged =>
      obtain ⟨_run, diagnostics, _ended, explains, rfl⟩ := CompilationRequest.judge_stopped judged
      refine ⟨done ++ [plan], ?_, ?_, ?_, .failed rfl explains.ne_nil⟩
      · exact ⟨pending, by rw [split, List.append_assoc, List.singleton_append]⟩
      · simp only [List.map_append, List.map_cons, List.map_nil, before.calls_eq, planned]
      · rw [List.dropLast_concat]
        exact before.all_passed
  | @faulted _ _ done pending plan events event _ fault wrote before split planned judged =>
      refine ⟨done ++ [plan], ?_, ?_, ?_, trivial⟩
      · exact ⟨pending, by rw [split, List.append_assoc, List.singleton_append]⟩
      · simp only [List.map_append, List.map_cons, List.map_nil, before.calls_eq, planned]
      · rw [List.dropLast_concat]
        exact before.all_passed
  | finished wrote all =>
      refine ⟨request.plan, List.prefix_refl _, all.calls_eq, ?_, taken_followsFrom all.all_mild⟩
      intro event member
      exact all.all_passed event (List.dropLast_subset events member)

/-- What is common to all courses of a request whose target is accepted. -/
theorem Course.summary {start after : FileStore} {events : List ToolEvent}
    {outcome : Except Fault CompilationResult}
    (course : Course config request start events outcome after)
    (enabled : config.enabledTargets.contains request.target = true) :
    ∃ directory made, made <+: request.plan ∧
      events.map ToolEvent.call = made.map (request.toolCall config directory) ∧
      (∀ event ∈ events.dropLast, event.Passed) ∧
      ∀ result, outcome = .ok result → result.FollowsFrom request made := by
  cases course with
  | rejected disabled =>
      rw [enabled] at disabled
      cases disabled
  | unopened _ failed =>
      refine ⟨⟨.root, []⟩, [], List.nil_prefix, rfl, ?_, ?_⟩
      · intro event member
        cases member
      · intro result impossible
        cases impossible
  | @removed directory _ _ _ _ delivery _ made delivered gone =>
      obtain ⟨stages, ahead, calls, passed, follows⟩ := delivered.summary
      refine ⟨directory, stages, ahead, calls, passed, ?_⟩
      intro result out
      exact follows.handedOut out
  | @unremoved directory _ _ _ delivery _ _ made delivered failed =>
      obtain ⟨stages, ahead, calls, passed, _follows⟩ := delivered.summary
      refine ⟨directory, stages, ahead, calls, passed, ?_⟩
      intro result impossible
      cases delivery <;> cases impossible

theorem Course.of_disabled {start after : FileStore} {events : List ToolEvent}
    {outcome : Except Fault CompilationResult}
    (course : Course config request start events outcome after)
    (disabled : config.enabledTargets.contains request.target = false) :
    events = [] ∧ outcome = request.rejected ∧ after = start := by
  cases course with
  | rejected _ => exact ⟨rfl, rfl, rfl⟩
  | unopened enabled _ | removed enabled _ _ _ | unremoved enabled _ _ _ =>
      rw [disabled] at enabled
      cases enabled

end

/-- The world counts the calls that are on record. -/
theorem compile_calls (toolbox : Toolbox σ) (config : ToolchainConfig)
    (request : CompilationRequest) (world : World σ) :
    (compile toolbox.recorded config request world.recorded).2.calls =
      world.calls ++ (compile toolbox.recorded config request world.recorded).2.events.map
        ToolEvent.call := by
  have start : world.recorded.calls =
      world.calls ++ world.recorded.events.map ToolEvent.call := (List.append_nil _).symm
  have active : Phase.requested.Active := trivial
  have reached := Phase.reaches_settle toolbox.recorded config request .requested world.recorded
  refine Phase.reaches_induction toolbox.recorded config request
    (fun _phase here => here.calls = world.calls ++ here.events.map ToolEvent.call)
    ?_ active start reached
  intro phase next here there counted move
  cases move with
  | @ran _ _ _ _ _ _ _ call outcome tools store planned answered =>
      have noted : tools.2 = here.events ++ [⟨call, outcome, store⟩] :=
        Toolbox.recorded_events answered
      change here.calls ++ [call] = world.calls ++ tools.2.map ToolEvent.call
      rw [noted, counted, List.map_append, List.append_assoc]
      rfl
  | rejected _ | unopened _ _ | opened _ _ | written _ _ | torn _ _ | unwritten _ | read
  | removed _ | unremoved _ => exact counted

end ShaderBridge
