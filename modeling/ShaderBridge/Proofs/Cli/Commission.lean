import ShaderBridge.Proofs.Cli.Rebuild
import ShaderBridge.Proofs.Cli.Run
import ShaderBridge.Proofs.Storage.Content
set_option autoImplicit false

/-! What a compile command is to do and how the work on it ends. A `Commission` is what the options of
a command ask for once every choice is known by its name; `Commission.Worked` lists the ways in
which the work on it ends, and `Commission.Writes` says what it writes. -/

namespace ShaderBridge

theorem CompilationResult.artifact?_eq_none_iff {result : CompilationResult} :
    result.artifact? = none ↔ result.succeeded = false := by
  unfold artifact? succeeded
  cases result.ending with
  | produced artifact warnings => simp
  | failed stage diagnostics => simp

theorem Artifact.bytes_of_headed {header : RawText} {artifact headed : Artifact} {content : Bytes}
    (whole : artifact.headed? header = some headed) (bytes : artifact.bytes = .ok content) :
    ∃ other, headed.bytes = .ok other := by
  cases artifact with
  | source text =>
      obtain ⟨head, _read, rfl⟩ := Option.map_eq_some_iff.mp whole
      exact ⟨_, rfl⟩
  | encoded base64 =>
      cases whole
      exact ⟨content, bytes⟩

def RawText.ofLines (lines : List RawText) : RawText := lines.flatMap (· ++ [.char '\n'])

namespace Cli

open Attempt (Fails)

variable {σ α β : Type}

theorem commentHeader_eq (name : RawText) (target : TargetFormat) (mode : ExecutionMode)
    (now : Moment) :
    commentHeader name target mode now = RawText.ofLines
      [.ofText "// Generated by shadercross v0.1.0",
        .ofText ("// Generation time: " ++ now.toText), .ofText "// Source file: " ++ name,
        .ofText ("// Target: " ++ target.displayName), .ofText ("// Mode: " ++ wireName mode),
        []] := by
  simp [commentHeader, RawText.ofLines, RawText.ofText, programVersion]

theorem toText?_commentHeader_eq_none_iff {name : RawText} {target : TargetFormat}
    {mode : ExecutionMode} {now : Moment} :
    (commentHeader name target mode now).toText? = none ↔ name.toText? = none := by
  simp only [commentHeader, RawText.toText?_eq_none_iff, List.mem_append,
    RawText.surrogate_not_mem_ofText, false_or, or_false]

theorem Surroundings.toText?_spelling_eq_none_iff (surroundings : Surroundings) {word : Text} :
    (surroundings.spelling word).toText? = none ↔
      ∃ char ∈ word, (surroundings.strays.lookup char).isSome := by
  simp only [RawText.toText?_eq_none_iff, spelling, List.mem_map]
  constructor
  · rintro ⟨code, char, member, same⟩
    refine ⟨char, member, ?_⟩
    cases found : surroundings.strays.lookup char with
    | none =>
        rw [found] at same
        cases same
    | some byte => rfl
  · rintro ⟨char, member, stray⟩
    obtain ⟨byte, found⟩ := Option.isSome_iff_exists.mp stray
    refine ⟨0xDC00 + byte.toNat, char, member, ?_⟩
    rw [found]

namespace Step

theorem bind_apply_error {step : Step σ α} {next : α → Step σ β} {world after : World σ}
    {stop : Stop} (stopped : step world = (.error stop, after)) :
    (step >>= next) world = (.error stop, after) := by
  change (match step world with
    | (outcome, world) => ExceptT.bindCont next outcome world) = _
  rw [stopped]
  rfl

theorem refuse_apply (message : Text) (world : World σ) :
    ∃ journal, (refuse message : Step σ α) world =
      (.error (.exit operationalStatus), { world with journal := journal }) :=
  ⟨_, rfl⟩

theorem guarded_apply_error {action : Action σ α} {world after : World σ} {fault : Fault}
    (acted : action world = (.error fault, after)) :
    ∃ journal, guarded action world =
      (.error (if fault.isOperational then .exit operationalStatus else .fault fault),
        { after with journal := journal }) := by
  unfold guarded
  rw [acted]
  simp only
  cases fault.isOperational with
  | true => exact refuse_apply fault.message after
  | false => exact ⟨after.journal, rfl⟩

end Step

def Step.Reads (step : Step σ α) (value? : Option α) : Prop :=
  ∀ world, ∃ journal, step world =
    match value? with
    | some value => (.ok value, world)
    | none => (.error (.exit operationalStatus), { world with journal := journal })

theorem Step.Reads.bind {step : Step σ α} {next : α → Step σ β} {value? : Option α}
    {rest : α → Option β} (reads : step.Reads value?)
    (readsOn : ∀ value, (next value).Reads (rest value)) :
    (step >>= next).Reads (value?.bind rest) := by
  intro world
  obtain ⟨journal, stepped⟩ := reads world
  cases value? with
  | some value =>
      rw [Step.bind_apply_ok stepped]
      exact readsOn value world
  | none => exact ⟨journal, Step.bind_apply_error stepped⟩

theorem Step.reads_pure (value : α) : (pure value : Step σ α).Reads (some value) :=
  fun world => ⟨world.journal, rfl⟩

theorem Step.reads_refuse (message : Text) : (refuse message : Step σ α).Reads none :=
  fun world => Step.refuse_apply message world

theorem choose_reads [Vocabulary α] (kind name : Text) :
    (choose kind name : Step σ α).Reads (ofWireName? α name) := by
  unfold choose
  cases ofWireName? α name with
  | some member => exact Step.reads_pure member
  | none => exact Step.reads_refuse _

theorem chooseLanguage_reads (options : JobOptions) :
    (chooseLanguage options.file options.language : Step σ SourceLanguage).Reads
      options.language? := by
  unfold chooseLanguage JobOptions.language?
  cases options.language.isEmpty with
  | true => exact Step.reads_pure _
  | false => exact choose_reads "language" options.language

def chooseFormat (name : Text) : Step σ Format :=
  match Format.ofText? name with
  | some format => pure format
  | none => Step.refuse ("Unknown format: " ++ name ++ ". Choose one of: plain, commented")

theorem chooseFormat_reads (name : Text) :
    (chooseFormat name : Step σ Format).Reads (Format.ofText? name) := by
  unfold chooseFormat
  cases Format.ofText? name with
  | some format => exact Step.reads_pure format
  | none => exact Step.reads_refuse _

/-! ### Commissions -/

/-- What a command is to make: an artifact of a file, where it goes and whether it carries a
comment header. -/
structure Commission where
  job : Job
  output : Option Path
  format : Format
  deriving DecidableEq, Repr

/-- What options ask for; none when one of the choices has a name that is not known. -/
def JobOptions.commission? (options : JobOptions) (formatName : Text) : Option Commission := do
  let target ← ofWireName? TargetFormat options.target
  let mode ← ofWireName? ExecutionMode options.mode
  let language ← options.language?
  let format ← Format.ofText? formatName
  return ⟨⟨options.file, language, target, mode, options.clean⟩, options.output, format⟩

namespace Commission

/-- The watch that makes the same, without a header, at each rebuild. -/
def watch (commission : Commission) : Watch := ⟨commission.job, commission.output⟩

/-- What stands before the artifact when it is emitted. -/
def header (commission : Commission) (surroundings : Surroundings) : RawText :=
  match commission.format with
  | .plain => []
  | .commented =>
      commentHeader (surroundings.spelling (commission.job.file.afterLast '/'))
        commission.job.target commission.job.mode surroundings.now

def deliver (commission : Commission) (surroundings : Surroundings) (result : CompilationResult) :
    Step σ Unit := do
  match result.ending with
  | .failed stage _ =>
    Step.ofAction (Action.log .error ("Compilation failed at stage " ++ wireName stage))
    throw (.exit compileFailureStatus)
  | .produced artifact _ =>
    Step.ofAction (emit commission.output (commission.header surroundings) artifact)

/-- The work of a command, when its options and settings have been read. -/
def work (commission : Commission) (toolbox : Toolbox σ) (surroundings : Surroundings)
    (config : ToolchainConfig) : Step σ Unit := do
  match ← Step.guarded (compileFile toolbox config commission.job) with
  | none => throw (.exit operationalStatus)
  | some result => commission.deliver surroundings result

section
variable (commission : Commission) (surroundings : Surroundings)

/-- What a commission writes for an artifact: binary data, or the UTF-8 form of a text, which in the
commented format stands behind six lines. -/
inductive Writes : Artifact → Bytes → Prop where
  | data {base64 : Text} {content : Bytes} (decoded : Base64.decode base64 = .ok content) :
      Writes (.encoded base64) content
  | plain {text : Text} (plain : commission.format = .plain) :
      Writes (.source text) (Utf8.encode text)
  | commented {text : Text} {content : Bytes} (commented : commission.format = .commented)
      (encoded : RawText.encode? (RawText.ofLines
        [.ofText "// Generated by shadercross v0.1.0",
          .ofText ("// Generation time: " ++ surroundings.now.toText),
          .ofText "// Source file: " ++ surroundings.spelling (commission.job.file.afterLast '/'),
          .ofText ("// Target: " ++ commission.job.target.displayName),
          .ofText ("// Mode: " ++ wireName commission.job.mode), []] ++ .ofText text) =
        some content) :
      Writes (.source text) content

/-- A text in the commented format, whose header quotes a byte of the command line that belongs to no
character, has no UTF-8 form. -/
structure Spoils (artifact : Artifact) : Prop where
  textual : ∃ text, artifact = .source text
  commented : commission.format = .commented
  stray : ∃ char ∈ commission.job.file.afterLast '/', (surroundings.strays.lookup char).isSome

end

section
variable (commission : Commission) (toolbox : Toolbox σ) (surroundings : Surroundings)
variable (config : ToolchainConfig)

/-- The ways in which the work on a commission ends, with the files that it leaves. -/
inductive Worked (here : World σ) : Except Stop Unit → FileStore → Prop where
  | unreadable {fault : Fault}
      (held : textAt commission.job.file here.store = .error fault) :
      Worked here (.error (.fault fault)) here.store
  | missing (held : textAt commission.job.file here.store = .ok none) :
      Worked here (.error (.exit operationalStatus)) here.store
  | raised {fault : Fault} {after : FileStore}
      (compiled : commission.watch.Compiled toolbox config here (.error fault) after)
      (grave : fault.isOperational = false) : Worked here (.error (.fault fault)) after
  | refused {fault : Fault} {after : FileStore}
      (compiled : commission.watch.Compiled toolbox config here (.error fault) after)
      (expected : fault.isOperational = true) :
      Worked here (.error (.exit operationalStatus)) after
  | failed {result : CompilationResult} {after : FileStore}
      (compiled : commission.watch.Compiled toolbox config here (.ok result) after)
      (none : result.artifact? = none) : Worked here (.error (.exit compileFailureStatus)) after
  | printed {result : CompilationResult} {after : FileStore} {artifact : Artifact}
      (compiled : commission.watch.Compiled toolbox config here (.ok result) after)
      (made : result.artifact? = some artifact) (nowhere : commission.output = none)
      (whole : ¬ commission.Spoils surroundings artifact) : Worked here (.ok ()) after
  | unprinted {result : CompilationResult} {after : FileStore} {artifact : Artifact}
      (compiled : commission.watch.Compiled toolbox config here (.ok result) after)
      (made : result.artifact? = some artifact) (nowhere : commission.output = none)
      (spoils : commission.Spoils surroundings artifact) :
      Worked here (.error (.fault .unencodable)) after
  | unsaved {result : CompilationResult} {after : FileStore} {artifact : Artifact} {path : Path}
      {failure : StorageFailure}
      (compiled : commission.watch.Compiled toolbox config here (.ok result) after)
      (made : result.artifact? = some artifact) (somewhere : commission.output = some path)
      (rejected : after.write path [] = .error failure) :
      Worked here (.error (.fault (.storage ⟨failure, path.toText⟩))) after
  | torn {result : CompilationResult} {after : FileStore} {artifact : Artifact} {path : Path}
      {opened : FileStore}
      (compiled : commission.watch.Compiled toolbox config here (.ok result) after)
      (made : result.artifact? = some artifact) (somewhere : commission.output = some path)
      (spoils : commission.Spoils surroundings artifact)
      (opens : after.write path [] = .ok opened) : Worked here (.error (.fault .unencodable)) opened
  | saved {result : CompilationResult} {after : FileStore} {artifact : Artifact} {path : Path}
      {content : Bytes} {stored : FileStore}
      (compiled : commission.watch.Compiled toolbox config here (.ok result) after)
      (made : result.artifact? = some artifact) (somewhere : commission.output = some path)
      (writes : commission.Writes surroundings artifact content)
      (wrote : after.write path content = .ok stored) : Worked here (.ok ()) stored

end

section
variable (commission : Commission) (toolbox : Toolbox σ) (surroundings : Surroundings)
variable (config : ToolchainConfig)

theorem spoils_iff {artifact : Artifact} : commission.Spoils surroundings artifact ↔
    artifact.headed? (commission.header surroundings) = none := by
  cases artifact with
  | encoded base64 =>
      constructor
      · intro spoils
        obtain ⟨_, impossible⟩ := spoils.textual
        cases impossible
      · intro none
        cases none
  | source text =>
      rw [Artifact.headed?, Option.map_eq_none_iff]
      unfold header
      cases format : commission.format with
      | plain =>
          constructor
          · intro spoils
            rw [spoils.commented] at format
            cases format
          · intro none
            cases none
      | commented =>
          rw [toText?_commentHeader_eq_none_iff, surroundings.toText?_spelling_eq_none_iff]
          exact ⟨fun spoils => spoils.stray, fun stray => ⟨⟨text, rfl⟩, format, stray⟩⟩

theorem writes_iff {artifact : Artifact} {content : Bytes} :
    commission.Writes surroundings artifact content ↔
      ∃ headed, artifact.headed? (commission.header surroundings) = some headed ∧
        headed.bytes = .ok content := by
  cases artifact with
  | encoded base64 =>
      constructor
      · rintro ⟨decoded⟩
        exact ⟨_, rfl, decoded⟩
      · rintro ⟨_, same, decoded⟩
        cases same
        exact .data decoded
  | source text =>
      have spelled : (∃ headed, Artifact.headed? (commission.header surroundings) (.source text) =
          some headed ∧ headed.bytes = .ok content) ↔
          (commission.header surroundings ++ .ofText text).encode? = some content := by
        rw [Artifact.headed?, RawText.encode?, RawText.toText?_append_ofText]
        cases (commission.header surroundings).toText? <;> simp [Artifact.bytes]
      rw [spelled]
      unfold header
      constructor
      · intro writes
        cases writes with
        | plain plain => simp [plain, RawText.encode?_ofText]
        | commented commented encoded =>
            rw [commented, ← encoded, ← commentHeader_eq]
      · intro encoded
        cases format : commission.format with
        | plain =>
            simp only [format, List.nil_append, RawText.encode?_ofText] at encoded
            cases encoded
            exact .plain format
        | commented =>
            simp only [format, commentHeader_eq] at encoded
            exact .commented format encoded

def settle (result : CompilationResult) (store : FileStore) : Except Stop Unit × FileStore :=
  match result.artifact? with
  | none => (.error (.exit compileFailureStatus), store)
  | some artifact =>
      match artifact.headed? (commission.header surroundings), commission.output with
      | none, none => (.error (.fault .unencodable), store)
      | some _, none => (.ok (), store)
      | none, some path =>
          match store.write path [] with
          | .ok opened => (.error (.fault .unencodable), opened)
          | .error failure => (.error (.fault (.storage ⟨failure, path.toText⟩)), store)
      | some headed, some path =>
          match headed.bytes with
          | .error problem => (.error (.fault (.unforeseen problem.message)), store)
          | .ok content =>
              match store.write path content with
              | .ok stored => (.ok (), stored)
              | .error failure => (.error (.fault (.storage ⟨failure, path.toText⟩)), store)

/-- What becomes of the end of a compilation. -/
def conclude (store : FileStore) : Except Fault CompilationResult → Except Stop Unit × FileStore
  | .error fault =>
      (.error (if fault.isOperational then .exit operationalStatus else .fault fault), store)
  | .ok result => commission.settle surroundings result store

theorem deliver_apply (result : CompilationResult) (here : World σ) :
    ((commission.deliver surroundings result here).1,
      (commission.deliver surroundings result here).2.store) =
      commission.settle surroundings result here.store := by
  unfold deliver settle CompilationResult.artifact?
  cases result.ending with
  | failed stage diagnostics => rfl
  | produced artifact warnings =>
      cases commission.output with
      | none =>
          obtain ⟨printed, printing⟩ :=
            emit_printed_apply (commission.header surroundings) artifact here
          simp only [Step.ofAction, printing]
          cases artifact.headed? (commission.header surroundings) with
          | none => rfl
          | some headed => rfl
      | some path =>
          obtain ⟨journal, writing⟩ :=
            emit_file_apply path (commission.header surroundings) artifact here
          simp only [Step.ofAction, writing]
          cases artifact.headed? (commission.header surroundings) with
          | none =>
              simp only
              cases here.store.write path [] with
              | ok opened => rfl
              | error failure => rfl
          | some headed =>
              simp only
              cases headed.bytes with
              | error problem => rfl
              | ok content =>
                  simp only
                  cases here.store.write path content with
                  | ok stored => rfl
                  | error failure => rfl

/-- The work on a commission, as far as it ends and leaves files. -/
theorem work_apply (here : World σ) :
    ((commission.work toolbox surroundings config here).1,
      (commission.work toolbox surroundings config here).2.store) =
      match textAt commission.job.file here.store with
      | .error fault => (.error (.fault fault), here.store)
      | .ok none => (.error (.exit operationalStatus), here.store)
      | .ok (some source) =>
          let ended := compile toolbox config (commission.job.request source) here
          commission.conclude surroundings ended.2.store ended.1 := by
  obtain ⟨noted, compiling⟩ := compileFile_apply toolbox config commission.job here
  cases held : textAt commission.job.file here.store with
  | error fault =>
      simp only [held] at compiling
      obtain ⟨journal, stopped⟩ := Step.guarded_apply_error compiling
      unfold work
      rw [Step.bind_apply_error stopped, textAt_eq_error held]
      rfl
  | ok text? =>
      cases text? with
      | none =>
          simp only [held] at compiling
          unfold work
          rw [Step.bind_apply_ok (Step.guarded_apply_ok compiling)]
          rfl
      | some source =>
          simp only [held] at compiling
          cases ended : (compile toolbox config (commission.job.request source) here).1 with
          | error fault =>
              rw [ended] at compiling
              obtain ⟨journal, stopped⟩ := Step.guarded_apply_error compiling
              unfold work
              rw [Step.bind_apply_error stopped]
              simp only [ended, conclude]
          | ok result =>
              rw [ended] at compiling
              unfold work
              rw [Step.bind_apply_ok (Step.guarded_apply_ok compiling)]
              simp only [ended, conclude]
              exact commission.deliver_apply surroundings result _

end

section
variable {commission : Commission} {toolbox : Toolbox σ} {surroundings : Surroundings}
variable {config : ToolchainConfig} {here : World σ}
variable {outcome : Except Stop Unit} {left after : FileStore}

/-- A result that has no artifact fails the command, and one that has is emitted. -/
theorem worked_of_result (surroundings : Surroundings) {result : CompilationResult}
    (compiled : commission.watch.Compiled toolbox config here (.ok result) after) :
    commission.Worked toolbox surroundings config here
      (commission.settle surroundings result after).1
      (commission.settle surroundings result after).2 := by
  unfold settle
  cases made : result.artifact? with
  | none => exact .failed compiled made
  | some artifact =>
      simp only
      cases headed : artifact.headed? (commission.header surroundings) with
      | none =>
          have spoils := (commission.spoils_iff surroundings).mpr headed
          cases somewhere : commission.output with
          | none => exact .unprinted compiled made somewhere spoils
          | some path =>
              simp only
              cases opens : after.write path [] with
              | error failure => exact .unsaved compiled made somewhere opens
              | ok opened => exact .torn compiled made somewhere spoils opens
      | some whole =>
          have unspoiled : ¬ commission.Spoils surroundings artifact := by
            rw [spoils_iff, headed]
            exact nofun
          cases somewhere : commission.output with
          | none => exact .printed compiled made somewhere unspoiled
          | some path =>
              obtain ⟨source, _held, ran, _left⟩ := id compiled
              obtain ⟨_content, bytes⟩ := compile_artifact_bytes ran made
              obtain ⟨content, bytes⟩ := artifact.bytes_of_headed headed bytes
              have writes := (commission.writes_iff surroundings).mpr ⟨whole, headed, bytes⟩
              simp only [bytes]
              cases wrote : after.write path content with
              | error failure =>
                  exact .unsaved compiled made somewhere
                    (FileStore.write_eq_error_of_content wrote [])
              | ok stored => exact .saved compiled made somewhere writes wrote

/-- The work from the end of its compilation on. -/
private theorem work_of_compiled (surroundings : Surroundings)
    {ended : Except Fault CompilationResult}
    (compiled : commission.watch.Compiled toolbox config here ended after) :
    ((commission.work toolbox surroundings config here).1,
      (commission.work toolbox surroundings config here).2.store) =
      commission.conclude surroundings after ended := by
  obtain ⟨source, held, rfl, rfl⟩ := compiled
  simp only [watch] at held ⊢
  rw [work_apply, held]

theorem Worked.ends (worked : commission.Worked toolbox surroundings config here outcome left) :
    ((commission.work toolbox surroundings config here).1,
      (commission.work toolbox surroundings config here).2.store) = (outcome, left) := by
  cases worked with
  | unreadable held | missing held => rw [work_apply, held]
  | raised compiled kind | refused compiled kind =>
      simp [work_of_compiled surroundings compiled, conclude, kind]
  | failed compiled none =>
      simp [work_of_compiled surroundings compiled, conclude, settle, none]
  | printed compiled made nowhere whole =>
      rw [spoils_iff] at whole
      obtain ⟨headed, whole⟩ := Option.ne_none_iff_exists'.mp whole
      simp [work_of_compiled surroundings compiled, conclude, settle, made, nowhere, whole]
  | unprinted compiled made nowhere spoils =>
      rw [spoils_iff] at spoils
      simp [work_of_compiled surroundings compiled, conclude, settle, made, nowhere, spoils]
  | torn compiled made somewhere spoils opens =>
      rw [spoils_iff] at spoils
      simp [work_of_compiled surroundings compiled, conclude, settle, made, somewhere, spoils,
        opens]
  | saved compiled made somewhere writes wrote =>
      obtain ⟨headed, whole, bytes⟩ := (commission.writes_iff surroundings).mp writes
      simp [work_of_compiled surroundings compiled, conclude, settle, made, somewhere, whole,
        bytes, wrote]
  | @unsaved result after artifact path failure compiled made somewhere rejected =>
      -- A file that cannot be opened takes no content, whether the header spoils it or not.
      obtain ⟨source, _held, ran, _left⟩ := id compiled
      obtain ⟨_content, bytes⟩ := compile_artifact_bytes ran made
      rw [work_of_compiled surroundings compiled]
      cases headed : artifact.headed? (commission.header surroundings) with
      | none => simp [conclude, settle, made, somewhere, headed, rejected]
      | some whole =>
          obtain ⟨other, bytes⟩ := Artifact.bytes_of_headed headed bytes
          have rejected := FileStore.write_eq_error_of_content rejected other
          simp [conclude, settle, made, somewhere, headed, bytes, rejected]

/-- The list of the ways in which the work ends is complete. -/
theorem worked_of_work
    (ended : ((commission.work toolbox surroundings config here).1,
      (commission.work toolbox surroundings config here).2.store) = (outcome, left)) :
    commission.Worked toolbox surroundings config here outcome left := by
  cases held : textAt commission.job.file here.store with
  | error fault =>
      rw [work_apply, held] at ended
      cases ended
      exact .unreadable held
  | ok text? =>
      cases text? with
      | none =>
          rw [work_apply, held] at ended
          cases ended
          exact .missing held
      | some source =>
          have compiled : commission.watch.Compiled toolbox config here
              (compile toolbox config (commission.job.request source) here).1
              (compile toolbox config (commission.job.request source) here).2.store :=
            ⟨source, held, rfl, rfl⟩
          rw [work_of_compiled surroundings compiled] at ended
          generalize (compile toolbox config (commission.job.request source) here).2.store =
            after at ended compiled
          generalize (compile toolbox config (commission.job.request source) here).1 =
            ran at ended compiled
          cases ran with
          | error fault =>
              simp only [conclude] at ended
              cases kind : fault.isOperational with
              | false =>
                  rw [kind] at ended
                  cases ended
                  exact .raised compiled kind
              | true =>
                  rw [kind] at ended
                  cases ended
                  exact .refused compiled kind
          | ok result =>
              have worked := worked_of_result surroundings compiled
              simp only [conclude] at ended
              rw [ended] at worked
              exact worked

theorem worked_iff : commission.Worked toolbox surroundings config here outcome left ↔
    (commission.work toolbox surroundings config here).1 = outcome ∧
      (commission.work toolbox surroundings config here).2.store = left := by
  rw [← Prod.mk.injEq]
  exact ⟨Worked.ends, worked_of_work⟩

/-- The work on a commission lets a fault out exactly when a rebuild does or its header spoils the
artifact. -/
theorem work_fault_iff (surroundings : Surroundings) :
    (∃ fault left,
        commission.Worked toolbox surroundings config here (.error (.fault fault)) left) ↔
      commission.watch.Breaks toolbox config here ∨
        ∃ result after artifact,
          commission.watch.Compiled toolbox config here (.ok result) after ∧
            result.artifact? = some artifact ∧ commission.Spoils surroundings artifact := by
  rw [← Watch.rebuild_fails_iff]
  have rebuilt := commission.watch.rebuild_rebuilt toolbox config here
  generalize (commission.watch.rebuild toolbox config here).1 = outcome at rebuilt
  generalize (commission.watch.rebuild toolbox config here).2.store = rest at rebuilt
  constructor
  · rintro ⟨fault, left, worked⟩
    cases worked with
    | unreadable held => exact .inl (rebuilt.of_unreadable ⟨fault, held⟩)
    | raised compiled grave =>
        have ended := rebuilt.of_error compiled
        simp only [grave, Bool.false_eq_true, if_false] at ended
        exact .inl ⟨fault, ended⟩
    | unprinted compiled made _ spoils | torn compiled made _ spoils _ =>
        exact .inr ⟨_, _, _, compiled, made, spoils⟩
    | unsaved compiled made somewhere rejected =>
        obtain ⟨source, _held, ran, _left⟩ := id compiled
        obtain ⟨content, bytes⟩ := compile_artifact_bytes ran made
        rcases rebuilt.of_file compiled made somewhere bytes with
          ⟨_rejected, fails⟩ | ⟨wrote, _ended⟩
        · exact .inl fails
        · rw [FileStore.write_eq_error_of_content rejected content] at wrote
          cases wrote
  · rintro (⟨fault, rfl⟩ | ⟨result, after, artifact, compiled, made, spoils⟩)
    · cases rebuilt with
      | unreadable held => exact ⟨fault, _, .unreadable held⟩
      | raised compiled grave => exact ⟨fault, _, .raised compiled grave⟩
      | unsaved compiled made somewhere bytes rejected =>
          exact ⟨_, _, .unsaved compiled made somewhere
            (FileStore.write_eq_error_of_content rejected [])⟩
    · cases somewhere : commission.output with
      | none => exact ⟨_, _, .unprinted compiled made somewhere spoils⟩
      | some path =>
          cases opens : after.write path [] with
          | ok opened => exact ⟨_, _, .torn compiled made somewhere spoils opens⟩
          | error failure => exact ⟨_, _, .unsaved compiled made somewhere opens⟩

end
end Commission

end Cli
end ShaderBridge
