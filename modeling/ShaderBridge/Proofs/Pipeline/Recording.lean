import ShaderBridge.Proofs.Pipeline.Move
set_option autoImplicit false

/-! A record of the tool calls of a run. A toolbox is made to write down each call, its outcome and
the files that it left; forgetting the record gives back the run without it
(`compile_recorded`). What a run did with its tools can so be read off the record. -/

namespace ShaderBridge

variable {σ τ : Type}

/-- One tool call, how it ended, and the files as the tool left them. -/
structure ToolEvent where
  call : ToolCall
  outcome : Except Fault ToolRun
  store : FileStore

/-- The tools, each call of which is written down behind those before it. -/
def Toolbox.recorded (toolbox : Toolbox σ) : Toolbox (σ × List ToolEvent) where
  run call state store :=
    let answer := toolbox.run call state.1 store
    (answer.1, (answer.2.1, state.2 ++ [⟨call, answer.1, answer.2.2⟩]), answer.2.2)

namespace World

def mapTools (view : τ → σ) (world : World τ) : World σ :=
  { store := world.store
    tools := view world.tools
    calls := world.calls
    journal := world.journal
    printed := world.printed }

/-- The world with an empty record. -/
def recorded (world : World σ) : World (σ × List ToolEvent) :=
  world.mapTools fun tools => (tools, [])

/-- The world without the record. -/
def forgotten (world : World (σ × List ToolEvent)) : World σ := world.mapTools Prod.fst

/-- The tool calls on record. -/
def events (world : World (σ × List ToolEvent)) : List ToolEvent := world.tools.2

end World

/-- An action on worlds whose tools have a richer state does what another one does on the worlds
seen through `view`. -/
def Action.SeenAs {α : Type} (view : τ → σ) (rich : Action τ α) (plain : Action σ α) : Prop :=
  ∀ world, plain (world.mapTools view) = ((rich world).1, (rich world).2.mapTools view)

/-- Tools with a richer state answer as other tools do for the state seen through `view`. -/
def Toolbox.SeenAs (view : τ → σ) (rich : Toolbox τ) (plain : Toolbox σ) : Prop :=
  ∀ call state store,
    plain.run call (view state) store =
      ((rich.run call state store).1, view (rich.run call state store).2.1,
        (rich.run call state store).2.2)

theorem Toolbox.recorded_events {toolbox : Toolbox σ} {call : ToolCall}
    {state after : σ × List ToolEvent} {store left : FileStore}
    {outcome : Except Fault ToolRun}
    (answered : toolbox.recorded.run call state store = (outcome, after, left)) :
    after.2 = state.2 ++ [⟨call, outcome, left⟩] := by
  cases answered
  rfl

theorem Toolbox.recorded_seenAs (toolbox : Toolbox σ) :
    toolbox.recorded.SeenAs Prod.fst toolbox := by
  intro call state store
  rfl

namespace Action

variable {α β : Type} {view : τ → σ}

theorem SeenAs.bind {rich : Action τ α} {plain : Action σ α} {richNext : α → Action τ β}
    {plainNext : α → Action σ β} (first : SeenAs view rich plain)
    (rest : ∀ value, SeenAs view (richNext value) (plainNext value)) :
    SeenAs view (rich >>= richNext) (plain >>= plainNext) := by
  intro world
  rw [bind_apply, bind_apply, first world]
  rcases rich world with ⟨outcome, after⟩
  cases outcome with
  | ok value => exact rest value after
  | error fault => rfl

theorem SeenAs.pure (value : α) :
    SeenAs view (Pure.pure value : Action τ α) (Pure.pure value : Action σ α) :=
  fun _world => rfl

theorem SeenAs.throw (fault : Fault) :
    SeenAs view (MonadExcept.throw fault : Action τ α) (MonadExcept.throw fault : Action σ α) :=
  fun _world => rfl

theorem SeenAs.log (level : LogLevel) (message : Text) :
    SeenAs view (Action.log level message : Action τ Unit) (Action.log level message) :=
  fun _world => rfl

theorem SeenAs.ofExcept (value : Except Fault α) :
    SeenAs view (Action.ofExcept value : Action τ α) (Action.ofExcept value) := by
  intro world
  rw [ofExcept_apply, ofExcept_apply]

theorem SeenAs.get {richNext : World τ → Action τ α} {plainNext : World σ → Action σ α}
    (rest : ∀ world, plainNext (world.mapTools view) (world.mapTools view) =
      ((richNext world world).1, (richNext world world).2.mapTools view)) :
    SeenAs view (MonadState.get >>= richNext) (MonadState.get >>= plainNext) :=
  rest

theorem SeenAs.callTool {rich : Toolbox τ} {plain : Toolbox σ}
    (same : rich.SeenAs view plain) (call : ToolCall) :
    SeenAs view (Action.callTool rich call) (Action.callTool plain call) := by
  intro world
  have answered := same call world.tools world.store
  simp only [callTool_apply, World.mapTools, answered]

end Action

namespace Workspace

variable {view : τ → σ}

theorem enter_seenAs (workspace : Workspace) :
    Action.SeenAs view (workspace.enter : Action τ Workspace) workspace.enter := by
  refine .get fun world => ?_
  simp only [World.mapTools]
  cases create (workspace.root.getD world.store.temporary) world.store with
  | ok made => rfl
  | error cause => rfl

theorem leave_seenAs (workspace : Workspace) (faulty : Bool) :
    Action.SeenAs view (workspace.leave faulty : Action τ Unit) (workspace.leave faulty) := by
  unfold leave
  cases workspace.directory with
  | none => exact .pure ()
  | some directory =>
      refine .get fun world => ?_
      simp only [World.mapTools]
      cases world.store.removeTree directory with
      | ok store => rfl
      | error failure => cases faulty <;> rfl

theorem writeText_seenAs (workspace : Workspace) (name : Text) (text : RawText) :
    Action.SeenAs view (workspace.writeText name text : Action τ Path)
      (workspace.writeText name text) := by
  refine .bind (.ofExcept _) fun directory => .get fun world => ?_
  simp only [World.mapTools]
  cases world.store.write (directory.child name) (text.encode?.getD []) with
  | ok store => cases text.encode?.isSome <;> rfl
  | error failure => rfl

theorem readBytes_seenAs (workspace : Workspace) (name : Text) :
    Action.SeenAs view (workspace.readBytes name : Action τ Bytes)
      (workspace.readBytes name) := by
  refine .bind (.ofExcept _) fun directory => .get fun world => ?_
  simp only [World.mapTools]
  cases world.store.read (directory.child name) with
  | ok content => rfl
  | error failure => rfl

theorem readText_seenAs (workspace : Workspace) (name : Text) :
    Action.SeenAs view (workspace.readText name : Action τ Text) (workspace.readText name) :=
  .bind (readBytes_seenAs workspace name) fun content => .ofExcept (fileText content)

end Workspace

namespace Phase

variable {view : τ → σ} {rich : Toolbox τ} {plain : Toolbox σ}

theorem openWorkspace_seenAs (config : ToolchainConfig) (request : CompilationRequest) :
    Action.SeenAs view (openWorkspace config request : Action τ (Option Workspace))
      (openWorkspace config request) := by
  refine .bind (.log _ _) fun _noted => ?_
  cases config.enabledTargets.contains request.target with
  | true => exact .bind (Workspace.enter_seenAs _) fun workspace => .pure (some workspace)
  | false => exact .bind (.log _ _) fun _noted => .pure none

theorem runStage_seenAs (same : rich.SeenAs view plain) (config : ToolchainConfig)
    (request : CompilationRequest) (workspace : Workspace) (plan : StagePlan) :
    Action.SeenAs view (runStage rich config request workspace plan)
      (runStage plain config request workspace plan) := by
  refine .bind (.ofExcept _) fun directory => .bind (.callTool same _) fun run => ?_
  cases run.exitedCleanly with
  | false => exact .bind (.ofExcept _) fun diagnostics => .bind (.log _ _) fun _noted => .pure _
  | true =>
      cases run.produced.isNone with
      | true => exact .pure _
      | false => exact .bind (.ofExcept _) fun found => .pure _

theorem readArtifact_seenAs (request : CompilationRequest) (workspace : Workspace)
    (warnings : List Diagnostic) :
    Action.SeenAs view (readArtifact request workspace warnings : Action τ Delivery)
      (readArtifact request workspace warnings) := by
  unfold readArtifact
  cases request.target.isBinary with
  | true =>
      exact .bind (Workspace.readBytes_seenAs workspace _) fun content =>
        .bind (.log _ _) fun _noted => .pure _
  | false =>
      by_cases validated : request.language = .glsl ∧ request.target = .glsl
      · simp only [Bool.false_eq_true, if_false, if_pos validated]
        exact .pure _
      · simp only [Bool.false_eq_true, if_false, if_neg validated]
        exact .bind (Workspace.readText_seenAs workspace _) fun text => .pure _

theorem close_seenAs (request : CompilationRequest) (workspace : Workspace)
    (delivery : Delivery) :
    Action.SeenAs view (close request workspace delivery : Action τ CompilationResult)
      (close request workspace delivery) := by
  refine .bind (Workspace.leave_seenAs workspace _) fun _left => ?_
  cases delivery with
  | fault fault => exact .throw fault
  | result result => exact .pure result
  | text artifact warnings =>
      cases exported : isExported request.target request.clean with
      | true =>
          simp only [handOut, exported, if_true]
          exact .bind (.ofExcept _) fun artifact => .bind (.log _ _) fun _noted => .pure _
      | false =>
          simp only [handOut, exported, Bool.false_eq_true, if_false]
          exact .bind (.pure artifact) fun artifact => .bind (.log _ _) fun _noted => .pure _

/-- A step takes no notice of what the tools have in their state beyond `view`. -/
theorem step_seenAs (same : rich.SeenAs view plain) (config : ToolchainConfig)
    (request : CompilationRequest) (phase : Phase) (world : World τ) :
    phase.step plain config request (world.mapTools view) =
      ((phase.step rich config request world).1,
        (phase.step rich config request world).2.mapTools view) := by
  cases phase with
  | requested =>
      simp only [step, openWorkspace_seenAs config request world]
      rcases openWorkspace config request world with ⟨outcome, after⟩
      rcases outcome with fault | workspace | _ <;> rfl
  | opened workspace =>
      have wrote : Action.SeenAs view (writeModule request workspace : Action τ Unit)
          (writeModule request workspace) :=
        .bind (Workspace.writeText_seenAs workspace _ _) fun _path => .pure ()
      simp only [step, wrote world]
      rcases writeModule request workspace world with ⟨outcome, after⟩
      cases outcome <;> rfl
  | running workspace pending warnings =>
      cases pending with
      | nil =>
          simp only [step, readArtifact_seenAs request workspace warnings world]
          rcases readArtifact request workspace warnings world with ⟨outcome, after⟩
          cases outcome <;> rfl
      | cons plan pending =>
          simp only [step, runStage_seenAs same config request workspace plan world]
          rcases runStage rich config request workspace plan world with ⟨outcome, after⟩
          rcases outcome with fault | verdict | _ <;> rfl
  | closing workspace delivery =>
      simp only [step, close_seenAs request workspace delivery world]
  | ended outcome => rfl

/-- A run takes no notice either. -/
theorem settle_seenAs (same : rich.SeenAs view plain) (config : ToolchainConfig)
    (request : CompilationRequest) (phase : Phase) (world : World τ) :
    phase.settle plain config request (world.mapTools view) =
      ((phase.settle rich config request world).1,
        (phase.settle rich config request world).2.mapTools view) := by
  induction phase, world using settle.induct rich config request with
  | case1 phase world outcome finished =>
      have atEnd := eq_ended_of_outcome? finished
      subst atEnd
      rw [settle_ended, settle_ended]
  | case2 phase world unfinished next ih =>
      rw [settle_unfinished plain config request unfinished,
        settle_unfinished rich config request unfinished, step_seenAs same]
      exact ih

end Phase

/-- The record of a run changes nothing about it. -/
theorem compile_recorded (toolbox : Toolbox σ) (config : ToolchainConfig)
    (request : CompilationRequest) (world : World σ) :
    compile toolbox config request world =
      ((compile toolbox.recorded config request world.recorded).1,
        (compile toolbox.recorded config request world.recorded).2.forgotten) :=
  Phase.settle_seenAs toolbox.recorded_seenAs config request .requested world.recorded

/-- What a call of a tool comes to: how it ends, and what is written to the file it should make. -/
structure ToolAnswer where
  outcome : Except Fault ToolRun
  content : Option Bytes

/-- The store in which a call has written its file. -/
def FileStore.answered (store : FileStore) (call : ToolCall) (answer : ToolAnswer) : FileStore :=
  match call.output, answer.content with
  | some output, some content =>
      match store.write output content with
      | .ok written => written
      | .error _ => store
  | _, _ => store

/-- Tools that give the answers of a list, one for each call. -/
def Toolbox.answering : Toolbox (List ToolAnswer) where
  run call answers store :=
    match answers with
    | [] => (.error (.unforeseen "no answer is left"), [], store)
    | answer :: rest => (answer.outcome, rest, store.answered call answer)

/-- A small store: a directory for temporary files, with a note in it. -/
def FileStore.furnished : FileStore where
  entries := [(["tmp".toList], .directory),
    (["tmp".toList, "note".toList], .file [104, 105] false)]
  workingDirectory := ⟨.root, []⟩
  temporary := ⟨.root, ["tmp".toList]⟩

/-- The world with that store and tools that answer from a list. -/
def World.answering (answers : List ToolAnswer) : World (List ToolAnswer) :=
  { store := .furnished, tools := answers }

end ShaderBridge
