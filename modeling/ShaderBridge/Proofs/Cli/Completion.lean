import ShaderBridge.Proofs.Cli.Commission
set_option autoImplicit false

/-! How a compile command ends. `JobOptions.Commanded` lists the ways, and the exit statuses are read
off the list. -/

namespace ShaderBridge.Cli

open Attempt (Fails)

variable {σ α β : Type}

def chooseCommission (options : JobOptions) (formatName : Text) : Step σ Commission := do
  let target ← choose "target" options.target
  let mode ← choose "mode" options.mode
  let language ← chooseLanguage options.file options.language
  let format ← chooseFormat formatName
  return ⟨⟨options.file, language, target, mode, options.clean⟩, options.output, format⟩

theorem chooseCommission_reads (options : JobOptions) (formatName : Text) :
    (chooseCommission options formatName : Step σ Commission).Reads
      (options.commission? formatName) :=
  (choose_reads "target" options.target).bind fun _target =>
    (choose_reads "mode" options.mode).bind fun _mode =>
      (chooseLanguage_reads options).bind fun _language =>
        (chooseFormat_reads formatName).bind fun _format => Step.reads_pure _

theorem configured_apply (surroundings : Surroundings) (here : World σ) :
    configured surroundings here =
      match ToolchainConfig.ofEnvironment surroundings.environment with
      | .ok config => (.ok config, here)
      | .error fault => (.error (.fault fault), here) := by
  unfold configured Step.ofAction
  rw [Action.ofExcept_apply]
  cases ToolchainConfig.ofEnvironment surroundings.environment with
  | ok config => rfl
  | error fault => rfl

/-- A command reads its choices, then its settings, and then does its work. -/
theorem runCompile_eq (toolbox : Toolbox σ) (surroundings : Surroundings) (options : JobOptions)
    (formatName : Text) :
    runCompile toolbox surroundings options formatName = (do
      let commission ← chooseCommission options formatName
      let config ← configured surroundings
      commission.work toolbox surroundings config) := by
  unfold runCompile chooseCommission chooseFormat
  cases Format.ofText? formatName with
  | some format =>
      simp only [bind_assoc, pure_bind]
      rfl
  | none =>
      simp only [bind_assoc, pure_bind]
      rfl

/-- What the caller sees of an outcome. -/
def Completion.ofOutcome : Except Stop Unit → Completion
  | .ok () => {}
  | .error (.exit status) => { status := status }
  | .error (.fault fault) => { status := 1, fault := some fault }

theorem Step.completion_apply (step : Step σ Unit) (here : World σ) :
    step.completion here = (Completion.ofOutcome (step here).1, (step here).2) := by
  unfold completion
  rcases step here with ⟨outcome, after⟩
  cases outcome with
  | ok done => rfl
  | error stop => cases stop <;> rfl

def compileCommand (toolbox : Toolbox σ) (surroundings : Surroundings) (options : JobOptions)
    (formatName : Text) : Step σ Unit :=
  match (Command.compile options formatName).badOutput? with
  | some fault => throw (.fault fault)
  | none => runCompile toolbox surroundings options formatName

theorem run_compile (toolbox : Toolbox σ) (surroundings : Surroundings) {options : JobOptions}
    {formatName : Text} {arguments : List Text} {verbose : Bool} (here : World σ)
    (parsed : Invocation.ofArguments arguments =
      .ok (.run verbose (.compile options formatName))) :
    ∃ shown, run toolbox surroundings arguments here =
      ({ Completion.ofOutcome (compileCommand toolbox surroundings options formatName here).1 with
          verbose := shown },
        (compileCommand toolbox surroundings options formatName here).2) := by
  unfold run compileCommand
  simp only [parsed]
  cases (Command.compile options formatName).badOutput? with
  | some fault => exact ⟨false, rfl⟩
  | none =>
      simp only [Command.run, Step.completion_apply]
      exact ⟨verbose, rfl⟩

namespace JobOptions

/-- The path for the artifact, if there is one, can be looked up. -/
def Clear (options : JobOptions) : Prop :=
  ∀ path, options.output = some path → '\x00' ∉ path.toText

section
variable (options : JobOptions) (surroundings : Surroundings) (formatName : Text)

/-- A command commissions some work: the path of its output, its choices and the settings can all
be read. -/
structure Commissions (commission : Commission) (config : ToolchainConfig) : Prop where
  clear : options.Clear
  known : options.commission? formatName = some commission
  configured : ToolchainConfig.ofEnvironment surroundings.environment = .ok config

variable (toolbox : Toolbox σ)

/-- The ways in which a compile command ends, with the files that it leaves. -/
inductive Commanded (here : World σ) : Except Stop Unit → FileStore → Prop where
  | output {path : Path} (somewhere : options.output = some path) (null : '\x00' ∈ path.toText) :
      Commanded here (.error (.fault (.storage ⟨.nullCharacter, path.toText⟩))) here.store
  | unknown (clear : options.Clear)
      (unknown : options.commission? formatName = none) :
      Commanded here (.error (.exit operationalStatus)) here.store
  | setting {commission : Commission} {fault : Fault}
      (clear : options.Clear)
      (known : options.commission? formatName = some commission)
      (misset : ToolchainConfig.ofEnvironment surroundings.environment = .error fault) :
      Commanded here (.error (.fault fault)) here.store
  | worked {commission : Commission} {config : ToolchainConfig} {outcome : Except Stop Unit}
      {left : FileStore}
      (commissions : options.Commissions surroundings formatName commission config)
      (worked : commission.Worked toolbox surroundings config here outcome left) :
      Commanded here outcome left

end

section
variable {options : JobOptions} {surroundings : Surroundings} {formatName : Text}
variable {toolbox : Toolbox σ} {here : World σ} {outcome : Except Stop Unit} {left : FileStore}

theorem compileCommand_of_clear (clear : options.Clear) :
    compileCommand toolbox surroundings options formatName =
      runCompile toolbox surroundings options formatName := by
  unfold compileCommand Command.badOutput? Command.output?
  cases somewhere : options.output with
  | none => simp only [somewhere]
  | some path =>
      have bare : path.toText.contains '\x00' = false := by simpa using clear path somewhere
      simp only [somewhere, bare, Bool.false_eq_true, if_false]

theorem compileCommand_of_commissions {commission : Commission} {config : ToolchainConfig}
    (commissions : options.Commissions surroundings formatName commission config) :
    compileCommand toolbox surroundings options formatName here =
      commission.work toolbox surroundings config here := by
  obtain ⟨clear, known, ready⟩ := commissions
  obtain ⟨journal, chosen⟩ := chooseCommission_reads options formatName here
  rw [compileCommand_of_clear clear, runCompile_eq]
  have set := configured_apply surroundings here
  simp only [known] at chosen
  simp only [ready] at set
  rw [Step.bind_apply_ok chosen, Step.bind_apply_ok set]

theorem Commanded.ends
    (commanded : options.Commanded surroundings formatName toolbox here outcome left) :
    (compileCommand toolbox surroundings options formatName here).1 = outcome ∧
      (compileCommand toolbox surroundings options formatName here).2.store = left := by
  cases commanded with
  | output somewhere null =>
      unfold compileCommand Command.badOutput? Command.output?
      simp only [somewhere, List.contains_iff_mem.mpr null, if_true]
      exact ⟨rfl, rfl⟩
  | unknown clear unknown =>
      obtain ⟨journal, chosen⟩ := chooseCommission_reads options formatName here
      simp only [unknown] at chosen
      rw [compileCommand_of_clear clear, runCompile_eq, Step.bind_apply_error chosen]
      exact ⟨rfl, rfl⟩
  | setting clear known misset =>
      obtain ⟨journal, chosen⟩ := chooseCommission_reads options formatName here
      simp only [known] at chosen
      have stopped := configured_apply surroundings here
      simp only [misset] at stopped
      rw [compileCommand_of_clear clear, runCompile_eq, Step.bind_apply_ok chosen,
        Step.bind_apply_error stopped]
      exact ⟨rfl, rfl⟩
  | worked commissions worked =>
      rw [compileCommand_of_commissions commissions]
      exact Commission.worked_iff.mp worked

/-- Every compile command ends in one of the ways. -/
theorem commanded (options : JobOptions) (surroundings : Surroundings) (formatName : Text)
    (toolbox : Toolbox σ) (here : World σ) :
    options.Commanded surroundings formatName toolbox here
      (compileCommand toolbox surroundings options formatName here).1
      (compileCommand toolbox surroundings options formatName here).2.store := by
  have reached {outcome : Except Stop Unit} {left : FileStore}
      (commanded : options.Commanded surroundings formatName toolbox here outcome left) :
      options.Commanded surroundings formatName toolbox here
        (compileCommand toolbox surroundings options formatName here).1
        (compileCommand toolbox surroundings options formatName here).2.store := by
    obtain ⟨ended, stored⟩ := commanded.ends
    rw [ended, stored]
    exact commanded
  by_cases null : ∃ path, options.output = some path ∧ '\x00' ∈ path.toText
  · obtain ⟨path, somewhere, null⟩ := null
    exact reached (.output somewhere null)
  · have clear : options.Clear := fun path somewhere member => null ⟨path, somewhere, member⟩
    cases known : options.commission? formatName with
    | none => exact reached (.unknown clear known)
    | some commission =>
        cases ready : ToolchainConfig.ofEnvironment surroundings.environment with
        | error fault => exact reached (.setting clear known ready)
        | ok config =>
            exact reached (.worked ⟨clear, known, ready⟩ (Commission.worked_iff.mpr ⟨rfl, rfl⟩))

end

section
variable (options : JobOptions) (surroundings : Surroundings) (formatName : Text)
variable (toolbox : Toolbox σ)

/-- The pipeline succeeds and the artifact, behind its header, is printed or written where it
belongs. -/
inductive Delivers (here : World σ) (left : FileStore) : Prop where
  | printed {commission : Commission} {config : ToolchainConfig} {result : CompilationResult}
      {artifact : Artifact}
      (commissions : options.Commissions surroundings formatName commission config)
      (compiled : commission.watch.Compiled toolbox config here (.ok result) left)
      (made : result.artifact? = some artifact) (nowhere : commission.output = none)
      (whole : ¬ commission.Spoils surroundings artifact)
  | written {commission : Commission} {config : ToolchainConfig} {result : CompilationResult}
      {after : FileStore} {artifact : Artifact} {path : Path} {content : Bytes}
      (commissions : options.Commissions surroundings formatName commission config)
      (compiled : commission.watch.Compiled toolbox config here (.ok result) after)
      (made : result.artifact? = some artifact) (somewhere : commission.output = some path)
      (writes : commission.Writes surroundings artifact content)
      (wrote : after.write path content = .ok left)

/-- The pipeline returns a failure. -/
def Rejected (here : World σ) : Prop :=
  ∃ commission config result after,
    options.Commissions surroundings formatName commission config ∧
      commission.watch.Compiled toolbox config here (.ok result) after ∧ result.succeeded = false

/-- A choice is unknown, the file cannot be read, or the pipeline ends in a fault that the command
expects: a missing tool or an unusable workspace. -/
inductive Refuses (here : World σ) : Prop where
  | unknown (clear : options.Clear)
      (unknown : options.commission? formatName = none)
  | missing {commission : Commission} {config : ToolchainConfig}
      (commissions : options.Commissions surroundings formatName commission config)
      (held : textAt commission.job.file here.store = .ok none)
  | unusable {commission : Commission} {config : ToolchainConfig} {fault : Fault}
      {after : FileStore}
      (commissions : options.Commissions surroundings formatName commission config)
      (compiled : commission.watch.Compiled toolbox config here (.error fault) after)
      (expected : fault.isOperational = true)

/-- What lets a fault out of a compile command. -/
inductive Breaks (here : World σ) : Prop where
  | output {path : Path} (somewhere : options.output = some path) (null : '\x00' ∈ path.toText)
  | setting (clear : options.Clear)
      (known : options.commission? formatName ≠ none)
      (misset : Fails (ToolchainConfig.ofEnvironment surroundings.environment))
  | work {commission : Commission} {config : ToolchainConfig}
      (commissions : options.Commissions surroundings formatName commission config)
      (breaks : commission.watch.Breaks toolbox config here)
  | header {commission : Commission} {config : ToolchainConfig} {result : CompilationResult}
      {after : FileStore} {artifact : Artifact}
      (commissions : options.Commissions surroundings formatName commission config)
      (compiled : commission.watch.Compiled toolbox config here (.ok result) after)
      (made : result.artifact? = some artifact)
      (spoils : commission.Spoils surroundings artifact)

end

section
variable {options : JobOptions} {surroundings : Surroundings} {formatName : Text}
variable {toolbox : Toolbox σ} {here : World σ} {outcome : Except Stop Unit} {left : FileStore}

theorem Commanded.outcome_eq {other : Except Stop Unit} {rest : FileStore}
    (commanded : options.Commanded surroundings formatName toolbox here outcome left)
    (again : options.Commanded surroundings formatName toolbox here other rest) :
    outcome = other :=
  commanded.ends.1.symm.trans again.ends.1

theorem Commanded.delivers_iff
    (commanded : options.Commanded surroundings formatName toolbox here outcome left) :
    outcome = .ok () ↔ options.Delivers surroundings formatName toolbox here left := by
  constructor
  · rintro rfl
    cases commanded with
    | worked commissions worked =>
        cases worked with
        | printed compiled made nowhere whole =>
            exact .printed commissions compiled made nowhere whole
        | saved compiled made somewhere writes wrote =>
            exact .written commissions compiled made somewhere writes wrote
  · intro delivers
    cases delivers with
    | printed commissions compiled made nowhere whole =>
        exact commanded.outcome_eq (.worked commissions (.printed compiled made nowhere whole))
    | written commissions compiled made somewhere writes wrote =>
        exact commanded.outcome_eq
          (.worked commissions (.saved compiled made somewhere writes wrote))

theorem Commanded.rejected_iff
    (commanded : options.Commanded surroundings formatName toolbox here outcome left) :
    outcome = .error (.exit compileFailureStatus) ↔
      options.Rejected surroundings formatName toolbox here := by
  constructor
  · rintro rfl
    cases commanded with
    | worked commissions worked =>
        cases worked with
        | failed compiled none =>
            exact ⟨_, _, _, _, commissions, compiled,
              CompilationResult.artifact?_eq_none_iff.mp none⟩
  · rintro ⟨commission, config, result, after, commissions, compiled, failed⟩
    have none := CompilationResult.artifact?_eq_none_iff.mpr failed
    exact commanded.outcome_eq (.worked commissions (.failed compiled none))

theorem Commanded.refuses_iff
    (commanded : options.Commanded surroundings formatName toolbox here outcome left) :
    outcome = .error (.exit operationalStatus) ↔
      options.Refuses surroundings formatName toolbox here := by
  constructor
  · rintro rfl
    cases commanded with
    | unknown clear unknown => exact .unknown clear unknown
    | worked commissions worked =>
        cases worked with
        | missing held => exact .missing commissions held
        | refused compiled expected => exact .unusable commissions compiled expected
  · intro refuses
    cases refuses with
    | unknown clear unknown => exact commanded.outcome_eq (.unknown clear unknown)
    | missing commissions held =>
        exact commanded.outcome_eq (.worked commissions (.missing held))
    | unusable commissions compiled expected =>
        exact commanded.outcome_eq (.worked commissions (.refused compiled expected))

theorem Commanded.breaks_iff
    (commanded : options.Commanded surroundings formatName toolbox here outcome left) :
    (∃ fault, outcome = .error (.fault fault)) ↔
      options.Breaks surroundings formatName toolbox here := by
  constructor
  · rintro ⟨fault, rfl⟩
    cases commanded with
    | output somewhere null => exact .output somewhere null
    | setting clear known misset =>
        exact .setting clear (known ▸ Option.some_ne_none _) ⟨fault, misset⟩
    | worked commissions worked =>
        rcases (Commission.work_fault_iff _).mp ⟨fault, left, worked⟩ with
          breaks | ⟨_, _, _, compiled, made, spoils⟩
        · exact .work commissions breaks
        · exact .header commissions compiled made spoils
  · intro breaks
    cases breaks with
    | output somewhere null => exact ⟨_, commanded.outcome_eq (.output somewhere null)⟩
    | setting clear known misset =>
        obtain ⟨commission, known⟩ := Option.ne_none_iff_exists'.mp known
        obtain ⟨fault, misset⟩ := misset
        exact ⟨_, commanded.outcome_eq (.setting clear known misset)⟩
    | work commissions breaks =>
        obtain ⟨fault, left, worked⟩ :=
          (Commission.work_fault_iff surroundings).mpr (.inl breaks)
        exact ⟨_, commanded.outcome_eq (.worked commissions worked)⟩
    | header commissions compiled made spoils =>
        obtain ⟨fault, left, worked⟩ := (Commission.work_fault_iff surroundings).mpr
          (.inr ⟨_, _, _, compiled, made, spoils⟩)
        exact ⟨_, commanded.outcome_eq (.worked commissions worked)⟩

theorem Commanded.outcome_cases
    (commanded : options.Commanded surroundings formatName toolbox here outcome left) :
    outcome = .ok () ∨ outcome = .error (.exit compileFailureStatus) ∨
      outcome = .error (.exit operationalStatus) ∨ ∃ fault, outcome = .error (.fault fault) := by
  cases commanded with
  | output | setting => simp
  | unknown clear unknown => simp
  | worked commissions worked => cases worked <;> simp

end
end JobOptions

/-- The exit status of a compile command, for every file, every options, every environment and
everything that tools do. A command line that cannot be read ends with status 2. Of one that can,
status 0 says that the artifact was made and emitted, and status 2 that the command refused; but
status 1 stands for a failure of the compilation and just as well for every fault that gets out. -/
theorem run_compile_status_iff (toolbox : Toolbox σ) (surroundings : Surroundings)
    (arguments : List Text) (here : World σ) :
    (Fails (Invocation.ofArguments arguments) →
      (run toolbox surroundings arguments here).1.status = 2) ∧
    ∀ verbose options formatName,
      Invocation.ofArguments arguments = .ok (.run verbose (.compile options formatName)) →
        ((run toolbox surroundings arguments here).1.status = 0 ↔
          options.Delivers surroundings formatName toolbox here
            (run toolbox surroundings arguments here).2.store) ∧
        ((run toolbox surroundings arguments here).1.status = 1 ↔
          options.Rejected surroundings formatName toolbox here ∨
            options.Breaks surroundings formatName toolbox here) ∧
        ((run toolbox surroundings arguments here).1.status = 2 ↔
          options.Refuses surroundings formatName toolbox here) ∧
        ((run toolbox surroundings arguments here).1.fault.isSome ↔
          options.Breaks surroundings formatName toolbox here) := by
  refine ⟨?_, ?_⟩
  · rintro ⟨problem, unread⟩
    unfold run
    rw [unread]
    rfl
  · intro verbose options formatName parsed
    obtain ⟨shown, ran⟩ := run_compile toolbox surroundings here parsed
    have commanded := JobOptions.commanded options surroundings formatName toolbox here
    simp only [ran, ← commanded.delivers_iff, ← commanded.rejected_iff, ← commanded.refuses_iff,
      ← commanded.breaks_iff]
    rcases commanded.outcome_cases with done | failed | refused | ⟨fault, raised⟩
    · simp [done, Completion.ofOutcome]
    · simp [failed, Completion.ofOutcome, compileFailureStatus, operationalStatus]
    · simp [refused, Completion.ofOutcome, compileFailureStatus, operationalStatus]
    · simp [raised, Completion.ofOutcome]

/-- A file with a byte that is not UTF-8 ends a command with the status of a failed compilation. -/
theorem run_compile_status_iff_of_undecodable :
    let store : FileStore := FileStore.furnished.install (Path.ofText "/a.slang") [255] false
    let world : World (List ToolAnswer) := { store := store, tools := [] }
    let surroundings : Surroundings := { environment := [], now := ⟨2024, 1, 2, 3, 4, 5⟩ }
    let arguments : List Text := ["compile".toList, "/a.slang".toList]
    (run .answering surroundings arguments world).1.status = 1 ∧
      (run .answering surroundings arguments world).1.fault.isSome := by
  intro store world surroundings arguments
  let options : JobOptions :=
    ⟨"/a.slang".toList, none, "glsl".toList, [], "materialLibrary".toList, false⟩
  let commission : Commission :=
    ⟨⟨"/a.slang".toList, .slang, .glsl, .materialLibrary, false⟩, none, .plain⟩
  have parsed : Invocation.ofArguments arguments =
      .ok (.run false (.compile options "plain".toList)) := by decide +kernel
  have commissions : options.Commissions surroundings "plain".toList commission {} :=
    ⟨nofun, by decide +kernel, by decide +kernel⟩
  have read : store.read (Path.ofText "/a.slang".toList) = .ok [255] := by decide +kernel
  have breaks : options.Breaks surroundings "plain".toList .answering world :=
    .work commissions (.text read (by decide +kernel))
  obtain ⟨_done, failed, _refused, raised⟩ :=
    (run_compile_status_iff .answering surroundings arguments world).2 _ _ _ parsed
  exact ⟨failed.mpr (.inr breaks), raised.mpr breaks⟩

end ShaderBridge.Cli
