import ShaderBridge.Cli.Run
import ShaderBridge.Proofs.Cli.Job
set_option autoImplicit false

namespace ShaderBridge.Cli

variable {σ α β : Type}

namespace Step

theorem bind_apply_ok {step : Step σ α} {next : α → Step σ β} {world after : World σ} {value : α}
    (stepped : step world = (.ok value, after)) : (step >>= next) world = next value after := by
  change (match step world with
    | (outcome, world) => ExceptT.bindCont next outcome world) = _
  rw [stepped]
  rfl

theorem bind_eq_ok {step : Step σ α} {next : α → Step σ β} {world after : World σ} {value : β}
    (ended : (step >>= next) world = (.ok value, after)) :
    ∃ middle between, step world = (.ok middle, between) ∧
      next middle between = (.ok value, after) := by
  change (match step world with
    | (outcome, world) => ExceptT.bindCont next outcome world) = _ at ended
  rcases stepped : step world with ⟨outcome, between⟩
  rw [stepped] at ended
  cases outcome with
  | ok middle => exact ⟨middle, between, rfl, ended⟩
  | error stop => cases ended

theorem ofAction_apply_ok {action : Action σ α} {world after : World σ} {value : α}
    (acted : action world = (.ok value, after)) : ofAction action world = (.ok value, after) := by
  unfold ofAction
  rw [acted]

theorem guarded_apply_ok {action : Action σ α} {world after : World σ} {value : α}
    (acted : action world = (.ok value, after)) : guarded action world = (.ok value, after) := by
  unfold guarded
  rw [acted]

end Step

theorem choose_apply_some {α : Type} [Vocabulary α] {kind name : Text} {member : α}
    (known : ofWireName? α name = some member) (world : World σ) :
    (choose kind name : Step σ α) world = (.ok member, world) := by
  unfold choose
  rw [known]
  rfl

/-- A watch is for the absolute path of its file. -/
theorem watchOf_file {surroundings : Surroundings} {options : JobOptions} {watch : Watch}
    {config : ToolchainConfig} {world after : World σ}
    (set : watchOf surroundings options world = (.ok (watch, config), after)) :
    watch.job.file =
      (Path.absolute world.store.workingDirectory (Path.ofText options.file)).toText := by
  unfold watchOf at set
  obtain ⟨_, _, got, set⟩ := Step.bind_eq_ok set
  cases got
  obtain ⟨_, _, _configured, set⟩ := Step.bind_eq_ok set
  obtain ⟨_, _, _target, set⟩ := Step.bind_eq_ok set
  obtain ⟨_, _, _language, set⟩ := Step.bind_eq_ok set
  obtain ⟨_, _, _mode, set⟩ := Step.bind_eq_ok set
  cases set
  rfl

def JobOptions.language? (options : JobOptions) : Option SourceLanguage :=
  if options.language.isEmpty then some (languageOfFile options.file)
  else ofWireName? SourceLanguage options.language

theorem chooseLanguage_apply_some {options : JobOptions} {language : SourceLanguage}
    (known : options.language? = some language) (world : World σ) :
    (chooseLanguage options.file options.language : Step σ SourceLanguage) world =
      (.ok language, world) := by
  unfold JobOptions.language? at known
  unfold chooseLanguage
  cases unnamed : options.language.isEmpty with
  | true =>
      simp only [unnamed, if_true] at known ⊢
      cases known
      rfl
  | false =>
      simp only [unnamed, Bool.false_eq_true, if_false] at known ⊢
      exact choose_apply_some known world

/-- Options, with a format, ask for a request in some surroundings. -/
structure Asks (surroundings : Surroundings) (options : JobOptions) (formatName : Text)
    (config : ToolchainConfig) (request : CompilationRequest) : Prop where
  target : ofWireName? TargetFormat options.target = some request.target
  mode : ofWireName? ExecutionMode options.mode = some request.mode
  language : options.language? = some request.language
  format : (Format.ofText? formatName).isSome = true
  clean : options.clean = request.clean
  configured : ToolchainConfig.ofEnvironment surroundings.environment = .ok config

/-- A request that compiles to a binary artifact writes the data of the artifact. -/
theorem runCompile_binary {toolbox : Toolbox σ} {surroundings : Surroundings}
    {options : JobOptions} {formatName : Text} {config : ToolchainConfig}
    {request : CompilationRequest} {world : World σ} {source base64 : Text}
    {warnings : List Diagnostic} {path : Path} {content : Bytes} {stored : FileStore}
    (asks : Asks surroundings options formatName config request)
    (held : textAt options.file world.store = .ok (some source)) (same : request.source = source)
    (compiled : (compile toolbox config request world).1 =
      .ok (request.produced (.encoded base64) warnings))
    (decoded : Base64.decode base64 = .ok content) (output : options.output = some path)
    (wrote : (compile toolbox config request world).2.store.write path content = .ok stored) :
    ∃ after, runCompile toolbox surroundings options formatName world = (.ok (), after) ∧
      after.store = stored := by
  obtain ⟨target, mode, language, format, clean, ready⟩ := asks
  obtain ⟨shape, format⟩ := Option.isSome_iff_exists.mp format
  have job : Job.request ⟨options.file, request.language, request.target, request.mode,
      options.clean⟩ source = request := by
    rw [clean, Job.request, ← same]
  obtain ⟨journal, compiling⟩ := compileFile_apply toolbox config
    ⟨options.file, request.language, request.target, request.mode, options.clean⟩ world
  simp only [held, job, compiled, Except.map] at compiling
  have setting : (configured surroundings : Step σ ToolchainConfig) world = (.ok config, world) := by
    refine Step.ofAction_apply_ok ?_
    rw [Action.ofExcept_apply, ready]
  have guarded := Step.guarded_apply_ok compiling
  have emitted (header : RawText) : ∃ after : World σ,
      Step.ofAction (emit (some path) header (.encoded base64))
        { (compile toolbox config request world).2 with journal := journal } = (.ok (), after) ∧
        after.store = stored := by
    obtain ⟨more, emitting⟩ := emit_file_apply path header (.encoded base64)
      { (compile toolbox config request world).2 with journal := journal }
    simp only [Artifact.headed?, Artifact.bytes, decoded, wrote] at emitting
    exact ⟨_, Step.ofAction_apply_ok emitting, rfl⟩
  unfold runCompile
  rw [Step.bind_apply_ok (choose_apply_some target world),
    Step.bind_apply_ok (choose_apply_some mode world),
    Step.bind_apply_ok (chooseLanguage_apply_some language world)]
  simp only [format]
  rw [pure_bind, Step.bind_apply_ok setting, Step.bind_apply_ok guarded]
  simp only [CompilationRequest.produced, output]
  exact emitted _

/-- Such a command line ends well and writes nothing but the data. -/
theorem run_binary {toolbox : Toolbox σ} {surroundings : Surroundings} {arguments : List Text}
    {verbose : Bool} {options : JobOptions} {formatName : Text} {config : ToolchainConfig}
    {request : CompilationRequest} {world : World σ} {source base64 : Text}
    {warnings : List Diagnostic} {path : Path} {content : Bytes} {stored : FileStore}
    (parsed : Invocation.ofArguments arguments =
      .ok (.run verbose (.compile options formatName)))
    (asks : Asks surroundings options formatName config request)
    (held : textAt options.file world.store = .ok (some source)) (same : request.source = source)
    (compiled : (compile toolbox config request world).1 =
      .ok (request.produced (.encoded base64) warnings))
    (decoded : Base64.decode base64 = .ok content) (output : options.output = some path)
    (wrote : (compile toolbox config request world).2.store.write path content = .ok stored) :
    (run toolbox surroundings arguments world).1 = { verbose := verbose } ∧
      (run toolbox surroundings arguments world).2.store = stored := by
  obtain ⟨after, ran, left⟩ := runCompile_binary asks held same compiled decoded output wrote
  have clear : path.toText.contains '\x00' = false := by
    have found : '\x00' ∉ path.toText := by
      intro null
      rw [FileStore.write_null_iff.mpr null] at wrote
      cases wrote
    simpa using found
  have good : (Command.compile options formatName).badOutput? = none := by
    unfold Command.badOutput? Command.output?
    simp only [output, clear, Bool.false_eq_true, if_false]
  have completed : (Command.compile options formatName).run toolbox surroundings world =
      ({}, after) := by
    unfold Command.run Step.completion
    simp only [ran]
  unfold run
  simp only [parsed, good, completed, left, and_self]

end ShaderBridge.Cli
