import ShaderBridge.Proofs.Pipeline.Cleanup
import ShaderBridge.Proofs.Storage.Twin
set_option autoImplicit false

/-! Runs that are alike. Two runs of one request in twin workspaces go the same way step by step,
with tools that know nothing but the directory in which they are called. No result says where a
workspace was; faults do, so faults are compared without the paths in them. -/

namespace ShaderBridge

variable {σ : Type}

def StorageProblem.placeless (problem : StorageProblem) : StorageProblem :=
  { problem with path := [] }

def WorkspaceProblem.placeless : WorkspaceProblem → WorkspaceProblem
  | .inactive => .inactive
  | .notCreated cause => .notCreated cause.placeless
  | .notWritten name cause => .notWritten name cause.placeless
  | .notRead name cause => .notRead name cause.placeless
  | .notRemoved cause => .notRemoved cause.placeless
  | .noWorkingDirectory => .noWorkingDirectory
  | .described message => .described message

/-- The fault without the path of the directory or file that it is about. All else stays: its kind,
the file operation, why that failed, the name of the file, the tool. -/
def Fault.placeless : Fault → Fault
  | .workspace problem _ => .workspace problem.placeless none
  | .storage problem => .storage problem.placeless
  | fault => fault

def ToolRun.placeless (run : ToolRun) : ToolRun :=
  { run with produced := run.produced.map fun _path => ⟨.relative, []⟩ }

/-- The same value, or faults that differ in their paths at most. -/
inductive Attempt.Alike {α : Type} : Except Fault α → Except Fault α → Prop where
  | value (value : α) : Alike (.ok value) (.ok value)
  | faults {first second : Fault} (same : first.placeless = second.placeless) :
      Alike (.error first) (.error second)

/-- The same delivery, or faults that differ in their paths at most. -/
inductive Delivery.Alike : Delivery → Delivery → Prop where
  | same (delivery : Delivery) : Alike delivery delivery
  | faults {first second : Fault} (same : first.placeless = second.placeless) :
      Alike (.fault first) (.fault second)

namespace Attempt

variable {α β : Type} {first second : Except Fault α}

theorem Alike.refl (attempt : Except Fault α) : Alike attempt attempt := by
  cases attempt with
  | ok value => exact .value value
  | error fault => exact .faults rfl

theorem Alike.bind (alike : Alike first second) (next : α → Except Fault β) :
    Alike (first.bind next) (second.bind next) := by
  cases alike with
  | value value => exact .refl (next value)
  | faults same => exact .faults same

theorem Alike.map (alike : Alike first second) (f : α → β) :
    Alike (first.map f) (second.map f) := by
  cases alike with
  | value value => exact .value (f value)
  | faults same => exact .faults same

theorem Alike.orFault {first second : Except Fault Delivery} (alike : Alike first second) :
    Delivery.Alike (.orFault first) (.orFault second) := by
  cases alike with
  | value delivery => exact .same delivery
  | faults same => exact .faults same

end Attempt

namespace CompilationRequest

variable (request : CompilationRequest)

theorem verdict_placeless (plan : StagePlan) (timeout : Int) (run : ToolRun) :
    request.verdict plan timeout run.placeless = request.verdict plan timeout run := by
  have made : run.placeless.produced.isNone = run.produced.isNone := Option.isNone_map
  unfold verdict
  rw [made]
  rfl

theorem verdict_alike (plan : StagePlan) (timeout : Int) {outcome other : Except Fault ToolRun}
    (alike : Attempt.Alike (outcome.map ToolRun.placeless) (other.map ToolRun.placeless)) :
    Attempt.Alike (outcome.bind (request.verdict plan timeout))
      (other.bind (request.verdict plan timeout)) := by
  have through : ∀ outcome : Except Fault ToolRun,
      (outcome.map ToolRun.placeless).bind (request.verdict plan timeout) =
        outcome.bind (request.verdict plan timeout) := by
    intro outcome
    cases outcome with
    | error fault => rfl
    | ok run => exact request.verdict_placeless plan timeout run
  rw [← through outcome, ← through other]
  exact alike.bind _

theorem handedOut_alike {delivery other : Delivery} (alike : Delivery.Alike delivery other) :
    Attempt.Alike (request.handedOut delivery) (request.handedOut other) := by
  cases alike with
  | same => exact .refl _
  | faults same => exact .faults same

end CompilationRequest

namespace Workspace

theorem faultAt_placeless (directory image path twin : Path) {problem : StorageProblem → WorkspaceProblem}
    (same : ∀ first second : StorageProblem, first.placeless = second.placeless →
      (problem first).placeless = (problem second).placeless) (failure : StorageFailure) :
    (faultAt directory path problem failure).placeless =
      (faultAt image twin problem failure).placeless := by
  have alike := same ⟨failure, path.toText⟩ ⟨failure, twin.toText⟩ rfl
  unfold faultAt StorageProblem.isReported
  by_cases reported : (failure != .nullCharacter) = true
  · simp only [reported, if_true, Fault.placeless, alike]
  · simp only [reported]
    rfl

theorem creationFault_placeless (root : Option Path) {cause other : StorageProblem}
    (same : cause.failure = other.failure) :
    (creationFault root cause).placeless =
      (creationFault root other).placeless := by
  have level : cause.placeless = other.placeless := by
    unfold StorageProblem.placeless
    rw [same]
  unfold creationFault StorageProblem.isReported
  rw [same]
  by_cases reported : (other.failure != .nullCharacter) = true
  · simp only [reported, if_true, Fault.placeless, WorkspaceProblem.placeless, level]
  · simp only [reported, Bool.false_eq_true, if_false, Fault.placeless, level]

end Workspace

namespace FileStore

variable {store other : FileStore} {directory image : Path} {place spot : Place}

theorem Twins.contentAt_alike (twins : Twins store directory place other image spot)
    {name : Text} (named : Path.IsName name) :
    Attempt.Alike (Workspace.contentAt directory name store)
      (Workspace.contentAt image name other) := by
  unfold Workspace.contentAt
  rw [twins.read_child named]
  cases other.read (image.child name) with
  | ok content => exact .value content
  | error failure =>
      refine .faults (Workspace.faultAt_placeless _ _ _ _ ?_ failure)
      intro first second same
      exact congrArg (WorkspaceProblem.notRead name) same

theorem Twins.taken_alike (twins : Twins store directory place other image spot)
    (request : CompilationRequest) (warnings : List Diagnostic) :
    Attempt.Alike (request.taken directory store warnings)
      (request.taken image other warnings) := by
  have named : Path.IsName ((request.plan.getLast?.map StagePlan.output).getD []) := by
    cases last : request.plan.getLast? with
    | none =>
        exact absurd (List.getLast?_eq_none_iff.mp last)
          (planStages_ne_nil request.language request.target)
    | some plan => exact isName_output (List.mem_of_getLast? last)
  have content := twins.contentAt_alike named
  unfold CompilationRequest.taken
  cases request.target.isBinary with
  | true => exact content.map _
  | false =>
      by_cases validated : request.language = .glsl ∧ request.target = .glsl
      · simp only [Bool.false_eq_true, if_false, if_pos validated]
        exact .value _
      · simp only [Bool.false_eq_true, if_false, if_neg validated]
        exact (content.bind fileText).map _

end FileStore

/-- Two calls of one tool with the same arguments and the same time limit, for a file of the same
name, each in its own directory. -/
structure ToolCall.Alike (call twin : ToolCall) : Prop where
  executable : call.executable = twin.executable
  arguments : call.arguments = twin.arguments
  timeout : call.timeout = twin.timeout
  output : ∃ name, Path.IsName name ∧ call.output = some (call.directory.child name) ∧
    twin.output = some (twin.directory.child name)

theorem CompilationRequest.toolCall_alike (request : CompilationRequest)
    (config : ToolchainConfig) (directory image : Path) {plan : StagePlan}
    (planned : plan ∈ request.plan) :
    (request.toolCall config directory plan).Alike (request.toolCall config image plan) :=
  ⟨rfl, rfl, rfl, plan.output, isName_output planned, rfl, rfl⟩

theorem FileStore.AltersOnlyBelow.refl (place : Place) (store : FileStore) :
    store.AltersOnlyBelow place store :=
  ⟨rfl, rfl, fun _other _apart => rfl⟩

/-- A path leads to a directory whatever becomes of what is in the directory. -/
def FileStore.Firm (store : FileStore) (path : Path) (place : Place) : Prop :=
  ∀ after, store.AltersOnlyBelow place after → after.locate path = .ok place

/-- What the tools do depends on the call and on what is in the directory in which they are called,
and is done in that directory. Where the directory is, what else is stored and what the tools did
before is nothing to them. -/
structure Toolbox.Local (toolbox : Toolbox σ) : Prop where
  confined : toolbox.Confined
  answers : ∀ {call twin : ToolCall} {store other : FileStore} {place spot : Place}
    (state elsewhere : σ), call.Alike twin → store.Firm call.directory place →
      other.Firm twin.directory spot →
      FileStore.Twins store call.directory place other twin.directory spot →
        Attempt.Alike ((toolbox.run call state store).1.map ToolRun.placeless)
          ((toolbox.run twin elsewhere other).1.map ToolRun.placeless) ∧
        FileStore.SameBelow (toolbox.run call state store).2.2 place
          (toolbox.run twin elsewhere other).2.2 spot

namespace Phase

/-- Runs of one request that have come as far as each other in two directories. -/
inductive Alike (request : CompilationRequest) (directory image : Path) : Phase → Phase → Prop where
  | opened (root : Option Path) :
      Alike request directory image (.opened ⟨root, some directory⟩) (.opened ⟨root, some image⟩)
  | running (root : Option Path) {pending : List StagePlan} (warnings : List Diagnostic)
      (planned : pending ⊆ request.plan) :
      Alike request directory image (.running ⟨root, some directory⟩ pending warnings)
        (.running ⟨root, some image⟩ pending warnings)
  | closing (root : Option Path) {delivery other : Delivery}
      (alike : Delivery.Alike delivery other) :
      Alike request directory image (.closing ⟨root, some directory⟩ delivery)
        (.closing ⟨root, some image⟩ other)

variable {request : CompilationRequest} {directory image : Path} {phase twin : Phase}

theorem Alike.unfinished (alike : Alike request directory image phase twin) :
    twin.outcome? = none := by
  cases alike <;> rfl

theorem Alike.afterStage (root : Option Path) {pending : List StagePlan}
    (warnings : List Diagnostic) (planned : pending ⊆ request.plan)
    {verdict other : Except Fault StageVerdict} (alike : Attempt.Alike verdict other) :
    Alike request directory image
      (Phase.afterStage ⟨root, some directory⟩ pending warnings verdict)
      (Phase.afterStage ⟨root, some image⟩ pending warnings other) := by
  cases alike with
  | value verdict =>
      cases verdict with
      | stopped delivery => exact .closing root (.same delivery)
      | passed more => exact .running root (warnings ++ more) planned
  | faults same => exact .closing root (.faults same)

/-- How two runs that are alike go on: side by side, or both to their end. -/
inductive GoneOn (request : CompilationRequest) (directory image : Path) (place spot : Place)
    (now : World σ) : Phase × World σ → Phase × World σ → Prop where
  | further {next other : Phase} {after beside : World σ}
      (alike : Alike request directory image next other)
      (altered : now.store.AltersOnlyBelow place after.store)
      (same : FileStore.SameBelow after.store place beside.store spot) :
      GoneOn request directory image place spot now (next, after) (other, beside)
  | finished {outcome other : Except Fault CompilationResult} {after beside : World σ}
      (alike : Attempt.Alike outcome other) (gone : after.store = now.store.without place) :
      GoneOn request directory image place spot now (.ended outcome, after) (.ended other, beside)

/-- The first step of a run checks the target and makes the workspace. -/
theorem step_requested (toolbox : Toolbox σ) (config : ToolchainConfig)
    (request : CompilationRequest) (world : World σ) :
    ∃ journal, requested.step toolbox config request world =
      if config.enabledTargets.contains request.target then
        match Workspace.create (config.workspaceRoot.getD world.store.temporary) world.store with
        | .ok (directory, store) =>
            (.opened ⟨config.workspaceRoot, some directory⟩,
              { world with store := store, journal := journal })
        | .error cause =>
            (.ended (.error (Workspace.creationFault config.workspaceRoot cause)),
              { world with journal := journal })
      else (.ended request.rejected, { world with journal := journal }) := by
  obtain ⟨journal, opening⟩ := openWorkspace_apply config request world
  refine ⟨journal, ?_⟩
  simp only [step, opening]
  cases config.enabledTargets.contains request.target with
  | false => rfl
  | true =>
      cases Workspace.create (config.workspaceRoot.getD world.store.temporary) world.store <;> rfl

section
variable (toolbox : Toolbox σ) (config : ToolchainConfig) (request : CompilationRequest)
variable (root : Option Path) {directory : Path}

theorem step_closing {world : World σ} {store : FileStore} (delivery : Delivery)
    (gone : world.store.removeTree directory = .ok store) :
    ∃ journal, (Phase.closing ⟨root, some directory⟩ delivery).step toolbox config request world =
      (.ended (request.handedOut delivery), { world with store := store, journal := journal }) := by
  have active : (Phase.closing ⟨root, some directory⟩ delivery).Active := ⟨directory, rfl⟩
  have move := step_move toolbox config request world active rfl
  generalize Phase.step toolbox config request world _ = next at move ⊢
  obtain ⟨next, after⟩ := next
  cases move with
  | unremoved failed =>
      rw [gone] at failed
      cases failed
  | removed left =>
      rw [gone] at left
      cases left
      exact ⟨_, rfl⟩

end

/-- A step in a workspace goes as it goes in a twin. -/
theorem Alike.step {toolbox : Toolbox σ} (homely : toolbox.Local) (config : ToolchainConfig)
    {place spot : Place} {now there : World σ}
    (alike : Alike request directory image phase twin)
    (firm : now.store.Firm directory place) (firmToo : there.store.Firm image spot)
    (twins : now.store.Twins directory place there.store image spot) :
    GoneOn request directory image place spot now (phase.step toolbox config request now)
      (twin.step toolbox config request there) := by
  have untouched := FileStore.AltersOnlyBelow.refl place now.store
  cases alike with
  | opened root =>
      have named := isName_sourceFile request.language
      rw [step_opened, step_opened]
      rcases twins.write_child named request.moduleBytes with
        ⟨failure, here, beside⟩ | ⟨left, leftToo, here, beside, same⟩
      · rw [here, beside]
        refine .further (.closing root (.faults ?_)) untouched twins.same
        refine Workspace.faultAt_placeless _ _ _ _ ?_ failure
        intro first second level
        exact congrArg (WorkspaceProblem.notWritten _) level
      · rw [here, beside]
        have altered := FileStore.write_altersOnlyBelow named twins.located here
        cases request.source.toText?.isSome with
        | true => exact .further (.running root [] (List.Subset.refl request.plan)) altered same
        | false => exact .further (.closing root (.same _)) altered same
  | @running root pending warnings planned =>
      have active (directory : Path) :
          (Phase.running ⟨root, some directory⟩ pending warnings).Active := ⟨directory, rfl⟩
      -- Both runs are in the same phase, so the move of the one says which move the other makes.
      have move := step_move toolbox config request now (active directory) rfl
      have copy := step_move toolbox config request there (active image) rfl
      generalize Phase.step toolbox config request now _ = next at move ⊢
      generalize Phase.step toolbox config request there _ = nextToo at copy ⊢
      obtain ⟨next, after⟩ := next
      obtain ⟨nextToo, afterToo⟩ := nextToo
      cases pending with
      | nil =>
          cases move with
          | read =>
              cases copy with
              | read =>
                  exact .further (.closing root (twins.taken_alike request warnings).orFault)
                    untouched twins.same
      | cons plan pending =>
          have member := planned List.mem_cons_self
          have rest := List.subset_of_cons_subset planned
          have calls := request.toolCall_alike config directory image member
          have altered := homely.confined (request.toolCall config directory plan) now.tools
            now.store place twins.located
          obtain ⟨answers, same⟩ := homely.answers now.tools there.tools calls firm firmToo twins
          cases move with
          | ran ours answered =>
              subst ours
              rw [answered] at answers same altered
              cases copy with
              | ran theirs answeredToo =>
                  subst theirs
                  rw [answeredToo] at answers same
                  exact .further (.afterStage root warnings rest
                    (request.verdict_alike plan _ answers)) altered same
  | closing root alike =>
      obtain ⟨journal, here⟩ := step_closing toolbox config request root _
        (FileStore.removeTree_eq_ok twins.located twins.stands)
      obtain ⟨journalToo, beside⟩ := step_closing toolbox config request root _
        (FileStore.removeTree_eq_ok twins.met twins.stands_too)
      rw [here, beside]
      exact .finished (request.handedOut_alike alike) rfl

end Phase
end ShaderBridge
