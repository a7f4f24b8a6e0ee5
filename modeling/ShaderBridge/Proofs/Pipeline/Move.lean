import Mathlib.Logic.Relation
import ShaderBridge.Pipeline.Compile
import ShaderBridge.Proofs.Effect
set_option autoImplicit false

/-! The moves of a run. `Phase.Move` lists all that one step can do, with the guard under which it
does it; a law about runs is then a case for each move (`Phase.step_move`). A run that ends where
`settle` says is a chain of such steps (`Phase.reaches_settle`, `Phase.settle_eq_of_reaches`).

The journal of a world is left open in every move: no law of this folder is about it. -/

namespace ShaderBridge

variable {σ : Type}

namespace CompilationRequest

def moduleBytes (request : CompilationRequest) : Bytes := request.rawModule.encode?.getD []

theorem encode?_rawModule (request : CompilationRequest) :
    request.rawModule.encode? =
      request.source.toText?.map fun _ => Utf8.encode request.module.text := by
  unfold rawModule RawText.encode? module text
  rw [toText?_wrapRaw]
  cases read : request.source.toText? with
  | none => rfl
  | some text => rw [RawText.eq_of_toText? read, RawText.lenient_ofText]; rfl

theorem moduleBytes_of_readable {request : CompilationRequest}
    (readable : request.source.toText?.isSome = true) :
    request.moduleBytes = Utf8.encode request.module.text := by
  obtain ⟨text, read⟩ := Option.isSome_iff_exists.mp readable
  rw [moduleBytes, encode?_rawModule, read]
  rfl

theorem moduleBytes_of_broken {request : CompilationRequest}
    (broken : request.source.toText? = none) : request.moduleBytes = [] := by
  rw [moduleBytes, encode?_rawModule, broken]
  rfl

def verdict (request : CompilationRequest) (plan : StagePlan) (timeout : Int) (run : ToolRun) :
    Except Fault StageVerdict :=
  if run.exitedCleanly = false then
    (request.failureDiagnostics plan timeout run).map fun diagnostics =>
      .stopped (.ofExcept (request.failed plan.stage diagnostics))
  else if run.produced.isNone then
    .ok (.stopped (.ofExcept (request.failed plan.stage
      [{ message := wireName plan.tool ++ " produced no output" }])))
  else
    (request.diagnosticsOf plan run).map fun found =>
      .passed (found.filter fun diagnostic => diagnostic.severity == .warning)

def taken (request : CompilationRequest) (directory : Path) (store : FileStore)
    (warnings : List Diagnostic) : Except Fault Delivery :=
  let output := (request.plan.getLast?.map StagePlan.output).getD []
  if request.target.isBinary then
    (Workspace.contentAt directory output store).map fun content =>
      .result (request.produced (.encoded (Base64.encode content)) warnings)
  else if request.language = .glsl ∧ request.target = .glsl then
    .ok (.text request.module.text warnings)
  else
    ((Workspace.contentAt directory output store).bind fileText).map fun text =>
      .text text warnings

def handedOut (request : CompilationRequest) : Delivery → Except Fault CompilationResult
  | .fault fault => .error fault
  | .result result => .ok result
  | .text artifact warnings =>
      (if isExported request.target request.clean then
        Fault.ofNumeral (exportArtifact request.target request.mode artifact)
      else .ok artifact).map fun artifact => request.produced (.source artifact) warnings

end CompilationRequest

/-- A value that is taken out, or the fault that stands in its place. -/
def Delivery.orFault : Except Fault Delivery → Delivery
  | .ok delivery => delivery
  | .error cause => .fault cause

def Delivery.leftBehind (directory : Path) (failure : StorageFailure) :
    Delivery → Except Fault CompilationResult
  | .fault cause => .error cause
  | .result _ | .text .. =>
      .error (.workspace (.notRemoved ⟨failure, directory.toText⟩) (some directory))

namespace Phase

def afterStage (workspace : Workspace) (pending : List StagePlan) (warnings : List Diagnostic) :
    Except Fault StageVerdict → Phase
  | .ok (.passed more) => .running workspace pending (warnings ++ more)
  | .ok (.stopped delivery) => .closing workspace delivery
  | .error fault => .closing workspace (.fault fault)

theorem openWorkspace_apply (config : ToolchainConfig) (request : CompilationRequest)
    (world : World σ) :
    ∃ journal, openWorkspace config request world =
      if config.enabledTargets.contains request.target then
        match Workspace.create (config.workspaceRoot.getD world.store.temporary) world.store with
        | .ok (directory, store) =>
            (.ok (some ⟨config.workspaceRoot, some directory⟩),
              { world with store := store, journal := journal })
        | .error cause =>
            (.error (Workspace.creationFault config.workspaceRoot cause),
              { world with journal := journal })
      else (.ok none, { world with journal := journal }) := by
  unfold openWorkspace
  simp only [Action.bind_apply, Action.log_apply]
  by_cases enabled : config.enabledTargets.contains request.target = true
  · simp only [if_pos enabled, Action.bind_apply, Workspace.enter_apply]
    cases Workspace.create (config.workspaceRoot.getD world.store.temporary) world.store with
    | ok made => exact ⟨_, rfl⟩
    | error cause => exact ⟨_, rfl⟩
  · simp only [if_neg enabled]
    exact ⟨_, rfl⟩

theorem runStage_apply (toolbox : Toolbox σ) (config : ToolchainConfig)
    (request : CompilationRequest) (root : Option Path) (directory : Path) (plan : StagePlan)
    (world : World σ) {call : ToolCall} (planned : call = request.toolCall config directory plan)
    {outcome : Except Fault ToolRun} {tools : σ} {store : FileStore}
    (answered : toolbox.run call world.tools world.store = (outcome, tools, store)) :
    ∃ journal, runStage toolbox config request ⟨root, some directory⟩ plan world =
      (outcome.bind (request.verdict plan call.timeout),
        { world with
          store := store
          tools := tools
          calls := world.calls ++ [call]
          journal := journal }) := by
  subst planned
  unfold runStage
  simp only [Workspace.activeDirectory, Action.bind_apply, Action.ofExcept_apply,
    Action.callTool_apply, answered]
  cases outcome with
  | error fault => exact ⟨world.journal, rfl⟩
  | ok run =>
      dsimp only [Except.bind, CompilationRequest.verdict]
      cases run.exitedCleanly with
      | false =>
          simp only [Bool.not_false, if_true, Action.bind_apply, Action.ofExcept_apply]
          cases request.failureDiagnostics plan
              (request.toolCall config directory plan).timeout run with
          | ok diagnostics => exact ⟨_, rfl⟩
          | error fault => exact ⟨world.journal, rfl⟩
      | true =>
          cases run.produced.isNone with
          | true => exact ⟨world.journal, rfl⟩
          | false =>
              simp only [Bool.not_true, Bool.true_eq_false, Bool.false_eq_true, if_false,
                Action.bind_apply, Action.ofExcept_apply]
              cases request.diagnosticsOf plan run with
              | ok found => exact ⟨world.journal, rfl⟩
              | error fault => exact ⟨world.journal, rfl⟩

theorem readArtifact_apply (request : CompilationRequest) (root : Option Path) (directory : Path)
    (warnings : List Diagnostic) (world : World σ) :
    ∃ journal, readArtifact request ⟨root, some directory⟩ warnings world =
      (request.taken directory world.store warnings, { world with journal := journal }) := by
  unfold readArtifact CompilationRequest.taken
  cases binary : request.target.isBinary with
  | true =>
      simp only [if_true, Action.bind_apply, Workspace.readBytes_apply]
      cases Workspace.contentAt directory _ world.store with
      | ok content => exact ⟨_, rfl⟩
      | error fault => exact ⟨world.journal, rfl⟩
  | false =>
      by_cases validated : request.language = .glsl ∧ request.target = .glsl
      · simp only [Bool.false_eq_true, if_false, if_pos validated]
        exact ⟨world.journal, rfl⟩
      · simp only [Bool.false_eq_true, if_false, if_neg validated, Action.bind_apply,
          Workspace.readText_apply]
        cases (Workspace.contentAt directory _ world.store).bind fileText with
        | ok text => exact ⟨world.journal, rfl⟩
        | error fault => exact ⟨world.journal, rfl⟩

theorem handOut_apply (request : CompilationRequest) (delivery : Delivery) (world : World σ) :
    ∃ journal, handOut request delivery world =
      (request.handedOut delivery, { world with journal := journal }) := by
  cases delivery with
  | fault fault => exact ⟨world.journal, rfl⟩
  | result result => exact ⟨world.journal, rfl⟩
  | text artifact warnings =>
      simp only [handOut, CompilationRequest.handedOut]
      cases isExported request.target request.clean with
      | false => exact ⟨_, rfl⟩
      | true =>
          simp only [if_true]
          cases Fault.ofNumeral (exportArtifact request.target request.mode artifact) with
          | ok artifact => exact ⟨_, rfl⟩
          | error fault => exact ⟨world.journal, rfl⟩

inductive Move (toolbox : Toolbox σ) (config : ToolchainConfig) (request : CompilationRequest) :
    Phase → World σ → Phase → World σ → Prop where
  | rejected {world : World σ} {journal : List LogLine}
      (disabled : config.enabledTargets.contains request.target = false) :
      Move toolbox config request .requested world
        (.ended request.rejected) { world with journal := journal }
  | unopened {world : World σ} {journal : List LogLine} {cause : StorageProblem}
      (enabled : config.enabledTargets.contains request.target = true)
      (failed : Workspace.create (config.workspaceRoot.getD world.store.temporary) world.store =
        .error cause) :
      Move toolbox config request .requested world
        (.ended (.error (Workspace.creationFault config.workspaceRoot cause)))
        { world with journal := journal }
  | opened {world : World σ} {journal : List LogLine} {directory : Path} {store : FileStore}
      (enabled : config.enabledTargets.contains request.target = true)
      (made : Workspace.create (config.workspaceRoot.getD world.store.temporary) world.store =
        .ok (directory, store)) :
      Move toolbox config request .requested world
        (.opened ⟨config.workspaceRoot, some directory⟩)
        { world with store := store, journal := journal }
  | written {world : World σ} {root : Option Path} {directory : Path} {store : FileStore}
      (readable : request.source.toText?.isSome = true)
      (wrote : world.store.write (directory.child (sourceFile request.language))
        (Utf8.encode request.module.text) = .ok store) :
      Move toolbox config request (.opened ⟨root, some directory⟩) world
        (.running ⟨root, some directory⟩ request.plan []) { world with store := store }
  | torn {world : World σ} {root : Option Path} {directory : Path} {store : FileStore}
      (broken : request.source.toText? = none)
      (wrote : world.store.write (directory.child (sourceFile request.language)) [] = .ok store) :
      Move toolbox config request (.opened ⟨root, some directory⟩) world
        (.closing ⟨root, some directory⟩ (.fault .unencodable)) { world with store := store }
  | unwritten {world : World σ} {root : Option Path} {directory : Path}
      {failure : StorageFailure}
      (failed : world.store.write (directory.child (sourceFile request.language))
        request.moduleBytes = .error failure) :
      Move toolbox config request (.opened ⟨root, some directory⟩) world
        (.closing ⟨root, some directory⟩ (.fault (Workspace.faultAt directory
          (directory.child (sourceFile request.language))
          (.notWritten (sourceFile request.language)) failure))) world
  | ran {world : World σ} {journal : List LogLine} {root : Option Path} {directory : Path}
      {plan : StagePlan} {pending : List StagePlan} {warnings : List Diagnostic}
      {call : ToolCall} {outcome : Except Fault ToolRun} {tools : σ} {store : FileStore}
      (planned : call = request.toolCall config directory plan)
      (answered : toolbox.run call world.tools world.store = (outcome, tools, store)) :
      Move toolbox config request (.running ⟨root, some directory⟩ (plan :: pending) warnings)
        world
        (afterStage ⟨root, some directory⟩ pending warnings
          (outcome.bind (request.verdict plan call.timeout)))
        { world with
          store := store
          tools := tools
          calls := world.calls ++ [call]
          journal := journal }
  | read {world : World σ} {journal : List LogLine} {root : Option Path} {directory : Path}
      {warnings : List Diagnostic} :
      Move toolbox config request (.running ⟨root, some directory⟩ [] warnings) world
        (.closing ⟨root, some directory⟩
          (.orFault (request.taken directory world.store warnings)))
        { world with journal := journal }
  | removed {world : World σ} {journal : List LogLine} {root : Option Path} {directory : Path}
      {delivery : Delivery} {store : FileStore}
      (gone : world.store.removeTree directory = .ok store) :
      Move toolbox config request (.closing ⟨root, some directory⟩ delivery) world
        (.ended (request.handedOut delivery)) { world with store := store, journal := journal }
  | unremoved {world : World σ} {journal : List LogLine} {root : Option Path}
      {directory : Path} {delivery : Delivery} {failure : StorageFailure}
      (failed : world.store.removeTree directory = .error failure) :
      Move toolbox config request (.closing ⟨root, some directory⟩ delivery) world
        (.ended (delivery.leftBehind directory failure)) { world with journal := journal }

def Active : Phase → Prop
  | .requested | .ended _ => True
  | .opened workspace | .running workspace _ _ | .closing workspace _ =>
      ∃ directory, workspace.directory = some directory

theorem Move.active {toolbox : Toolbox σ} {config : ToolchainConfig}
    {request : CompilationRequest} {phase next : Phase} {world after : World σ}
    (move : Move toolbox config request phase world next after) : next.Active := by
  cases move with
  | rejected disabled => exact trivial
  | unopened enabled failed => exact trivial
  | opened enabled made => exact ⟨_, rfl⟩
  | written readable wrote => exact ⟨_, rfl⟩
  | torn broken wrote => exact ⟨_, rfl⟩
  | unwritten failed => exact ⟨_, rfl⟩
  | @ran _ _ _ _ plan _ _ call outcome _ _ planned answered =>
      cases outcome.bind (request.verdict plan call.timeout) with
      | error fault => exact ⟨_, rfl⟩
      | ok verdict => cases verdict <;> exact ⟨_, rfl⟩
  | read => exact ⟨_, rfl⟩
  | removed gone => exact trivial
  | unremoved failed => exact trivial

theorem step_opened (toolbox : Toolbox σ) (config : ToolchainConfig)
    (request : CompilationRequest) (root : Option Path) (directory : Path) (world : World σ) :
    (Phase.opened ⟨root, some directory⟩).step toolbox config request world =
      match world.store.write (directory.child (sourceFile request.language))
          request.moduleBytes with
      | .ok store =>
          (if request.source.toText?.isSome then .running ⟨root, some directory⟩ request.plan []
            else .closing ⟨root, some directory⟩ (.fault .unencodable),
            { world with store := store })
      | .error failure =>
          (.closing ⟨root, some directory⟩ (.fault (Workspace.faultAt directory
            (directory.child (sourceFile request.language))
            (.notWritten (sourceFile request.language)) failure)), world) := by
  have encoded : request.rawModule.encode?.isSome = request.source.toText?.isSome := by
    rw [CompilationRequest.encode?_rawModule, Option.isSome_map]
  simp only [step, writeModule, Action.bind_apply, Workspace.writeText_apply, encoded]
  unfold CompilationRequest.moduleBytes
  cases world.store.write (directory.child (sourceFile request.language))
      (request.rawModule.encode?.getD []) with
  | error failure => rfl
  | ok store => cases request.source.toText?.isSome <;> rfl

/-- Every step is one of the moves. -/
theorem step_move (toolbox : Toolbox σ) (config : ToolchainConfig) (request : CompilationRequest)
    (world : World σ) {phase : Phase} (active : phase.Active)
    (unfinished : phase.outcome? = none) :
    Move toolbox config request phase world
      (phase.step toolbox config request world).1 (phase.step toolbox config request world).2 := by
  cases phase with
  | requested =>
      obtain ⟨journal, opening⟩ := openWorkspace_apply config request world
      simp only [step, opening]
      cases enabled : config.enabledTargets.contains request.target with
      | false => exact .rejected enabled
      | true =>
          cases made : Workspace.create
              (config.workspaceRoot.getD world.store.temporary) world.store with
          | ok found => exact .opened enabled made
          | error cause => exact .unopened enabled made
  | opened workspace =>
      obtain ⟨root, _⟩ := workspace
      obtain ⟨directory, rfl⟩ := active
      rw [step_opened]
      cases wrote : world.store.write (directory.child (sourceFile request.language))
          request.moduleBytes with
      | error failure => exact .unwritten wrote
      | ok store =>
          -- The file was opened before the text is encoded, so a broken source leaves it empty.
          cases read : request.source.toText? with
          | none =>
              rw [CompilationRequest.moduleBytes_of_broken read] at wrote
              exact .torn read wrote
          | some text =>
              have readable : request.source.toText?.isSome = true := by rw [read]; rfl
              rw [CompilationRequest.moduleBytes_of_readable readable] at wrote
              exact .written readable wrote
  | running workspace pending warnings =>
      obtain ⟨root, _⟩ := workspace
      obtain ⟨directory, rfl⟩ := active
      cases pending with
      | nil =>
          obtain ⟨journal, reading⟩ :=
            readArtifact_apply request root directory warnings world
          have move : Move toolbox config request _ world _ _ :=
            @Move.read σ toolbox config request world journal root directory warnings
          simp only [step, reading]
          cases taken : request.taken directory world.store warnings with
          | ok delivery => rwa [taken] at move
          | error fault => rwa [taken] at move
      | cons plan pending =>
          rcases answered : toolbox.run (request.toolCall config directory plan) world.tools
            world.store with ⟨outcome, tools, store⟩
          obtain ⟨journal, staging⟩ :=
            runStage_apply toolbox config request root directory plan world rfl answered
          have move : Move toolbox config request
              (.running ⟨root, some directory⟩ (plan :: pending) warnings) world _
              { world with store := store, tools := tools, calls := _, journal := journal } :=
            .ran rfl answered
          simp only [step, staging]
          cases judged : outcome.bind (request.verdict plan
              (request.toolCall config directory plan).timeout) with
          | error fault => rwa [judged] at move
          | ok verdict => cases verdict <;> rwa [judged] at move
  | closing workspace delivery =>
      obtain ⟨root, _⟩ := workspace
      obtain ⟨directory, rfl⟩ := active
      obtain ⟨journal, leaving⟩ :=
        Workspace.leave_apply root directory delivery.isFault world
      simp only [step, close, Action.bind_apply, leaving]
      cases gone : world.store.removeTree directory with
      | ok store =>
          obtain ⟨journal, handing⟩ :=
            handOut_apply request delivery { world with store := store, journal := journal }
          simp only [handing]
          exact .removed gone
      | error failure =>
          have move : Move toolbox config request (.closing ⟨root, some directory⟩ delivery)
              world _ { world with journal := journal } := .unremoved gone
          cases delivery <;> exact move
  | ended outcome => cases unfinished

def Next (toolbox : Toolbox σ) (config : ToolchainConfig) (request : CompilationRequest)
    (here there : Phase × World σ) : Prop :=
  here.1.outcome? = none ∧ here.1.step toolbox config request here.2 = there

/-- Steps lead from the first point of a run to the second. -/
abbrev Reaches (toolbox : Toolbox σ) (config : ToolchainConfig) (request : CompilationRequest) :
    Phase × World σ → Phase × World σ → Prop :=
  Relation.ReflTransGen (Next toolbox config request)

variable (toolbox : Toolbox σ) (config : ToolchainConfig) (request : CompilationRequest)

theorem eq_ended_of_outcome? {phase : Phase} {outcome : Except Fault CompilationResult}
    (finished : phase.outcome? = some outcome) : phase = .ended outcome := by
  cases phase with
  | ended reached => exact congrArg Phase.ended (Option.some.inj finished)
  | requested => cases finished
  | opened workspace => cases finished
  | running workspace pending warnings => cases finished
  | closing workspace delivery => cases finished

theorem settle_ended (outcome : Except Fault CompilationResult) (world : World σ) :
    (Phase.ended outcome).settle toolbox config request world = (outcome, world) := by
  rw [settle]
  rfl

theorem settle_unfinished {phase : Phase} (unfinished : phase.outcome? = none)
    (world : World σ) :
    phase.settle toolbox config request world =
      (phase.step toolbox config request world).1.settle toolbox config request
        (phase.step toolbox config request world).2 := by
  rw [settle]
  split
  · rename_i outcome finished
    rw [unfinished] at finished
    cases finished
  · rfl

theorem reaches_settle (phase : Phase) (world : World σ) :
    Reaches toolbox config request (phase, world)
      (.ended (phase.settle toolbox config request world).1,
        (phase.settle toolbox config request world).2) := by
  induction phase, world using settle.induct toolbox config request with
  | case1 phase world outcome finished =>
      have atEnd := eq_ended_of_outcome? finished
      subst atEnd
      rw [settle_ended]
  | case2 phase world unfinished next ih =>
      rw [settle_unfinished toolbox config request unfinished]
      exact Relation.ReflTransGen.head ⟨unfinished, rfl⟩ ih

theorem settle_eq_of_reaches {here there : Phase × World σ}
    (reached : Reaches toolbox config request here there) :
    here.1.settle toolbox config request here.2 =
      there.1.settle toolbox config request there.2 := by
  induction reached with
  | refl => rfl
  | tail steps step ih =>
      obtain ⟨unfinished, rfl⟩ := step
      rw [ih, settle_unfinished toolbox config request unfinished]

/-- What every move keeps holds wherever a run gets to. -/
theorem reaches_induction (invariant : Phase → World σ → Prop)
    (kept : ∀ {phase next : Phase} {world after : World σ}, invariant phase world →
      Move toolbox config request phase world next after → invariant next after)
    {phase next : Phase} {world after : World σ} (active : phase.Active)
    (start : invariant phase world)
    (reached : Reaches toolbox config request (phase, world) (next, after)) :
    invariant next after := by
  -- a step is one of the moves only while the workspace has its directory, so that is kept as well
  suffices both : ∀ there, Reaches toolbox config request (phase, world) there →
      there.1.Active ∧ invariant there.1 there.2 from (both (next, after) reached).2
  intro there reached
  induction reached with
  | refl => exact ⟨active, start⟩
  | @tail here there steps step ih =>
      obtain ⟨unfinished, rfl⟩ := step
      have move := step_move toolbox config request here.2 ih.1 unfinished
      exact ⟨move.active, kept ih.2 move⟩

end Phase
end ShaderBridge
