import ShaderBridge.Cli.Emission
import ShaderBridge.Cli.Job
import ShaderBridge.Proofs.Storage.FileStore
set_option autoImplicit false

/-! What it takes to compile a file and to emit the artifact, as equations. The journal is left
open: no law about files and artifacts is about what is logged. -/

namespace ShaderBridge

variable {σ α : Type}

theorem Action.tryCatch_apply (action : Action σ α) (handle : Fault → Action σ α)
    (world : World σ) :
    (tryCatch action handle : Action σ α) world =
      match action world with
      | (.ok value, after) => (.ok value, after)
      | (.error fault, after) => handle fault after := by
  change ExceptT.tryCatch action handle world = _
  simp only [ExceptT.tryCatch, ExceptT.mk, bind, StateT.bind]
  rcases action world with ⟨outcome, after⟩
  cases outcome with
  | ok value => rfl
  | error fault => rfl

namespace Cli

/-- The request that comes of a text in the file of a job. -/
def Job.request (job : Job) (source : Text) : CompilationRequest :=
  ⟨source, job.language, job.target, job.mode, job.clean⟩

/-- What reading the text of a file comes to, by what the file holds: none where it cannot be read. -/
def textOf (file : Text) : Except StorageFailure Bytes → Except Fault (Option Text)
  | .ok content => (fileText content).map some
  | .error failure =>
      if failure = .nullCharacter then
        .error (.storage ⟨failure, (Path.ofText file).toText⟩)
      else .ok none

def textAt (file : Text) (store : FileStore) : Except Fault (Option Text) :=
  textOf file (store.read (Path.ofText file))

theorem textAt_fails_iff {file : Text} {store : FileStore} :
    Attempt.Fails (textAt file store) ↔
      '\x00' ∈ (Path.ofText file).toText ∨
      ∃ content, store.read (Path.ofText file) = .ok content ∧ Utf8.decode? content = none := by
  rw [← @FileStore.read_null_iff store]
  unfold textAt textOf
  cases store.read (Path.ofText file) with
  | ok content =>
      rw [Attempt.map_fails_iff]
      unfold fileText
      cases decoded : Utf8.decode? content with
      | none => simp [Attempt.Fails, decoded]
      | some text => simp [Attempt.Fails, decoded]
  | error failure => by_cases null : failure = .nullCharacter <;> simp [Attempt.Fails, null]

theorem textAt_eq_some {file : Text} {store : FileStore} {source : Text}
    (held : textAt file store = .ok (some source)) :
    ∃ content, store.read (Path.ofText file) = .ok content ∧ fileText content = .ok source := by
  unfold textAt textOf at held
  cases reading : store.read (Path.ofText file) with
  | ok content =>
      rw [reading] at held
      obtain ⟨text, decoded, same⟩ := Attempt.map_eq_ok_iff.mp held
      cases same
      exact ⟨content, rfl, decoded⟩
  | error failure =>
      simp only [reading] at held
      split at held <;> cases held

/-- A file whose text cannot be had is no matter of tools and workspaces. -/
theorem textAt_eq_error {file : Text} {store : FileStore} {fault : Fault}
    (failed : textAt file store = .error fault) : fault.isOperational = false := by
  unfold textAt textOf at failed
  cases reading : store.read (Path.ofText file) with
  | ok content =>
      rw [reading] at failed
      have undecoded := Attempt.map_eq_error_iff.mp failed
      unfold fileText at undecoded
      cases decoded : Utf8.decode? content with
      | none =>
          rw [decoded] at undecoded
          cases undecoded
          rfl
      | some text =>
          rw [decoded] at undecoded
          cases undecoded
  | error failure =>
      simp only [reading] at failed
      split at failed
      · cases failed
        rfl
      · cases failed

/-- A file that is read leaves everything as it is; one that is not is logged. -/
theorem readShader_apply (file : Text) (world : World σ) :
    ∃ journal, readShader file world =
        (textAt file world.store, { world with journal := journal }) ∧
      (textAt file world.store ≠ .ok none → journal = world.journal) := by
  simp only [readShader, textAt, textOf, Action.bind_apply, Action.get_apply]
  cases world.store.read (Path.ofText file) with
  | ok content =>
      simp only [Action.bind_apply, Action.ofExcept_apply]
      cases fileText content with
      | ok text => exact ⟨world.journal, rfl, fun _given => rfl⟩
      | error fault => exact ⟨world.journal, rfl, fun _given => rfl⟩
  | error failure =>
      by_cases null : failure = .nullCharacter
      · subst null
        exact ⟨world.journal, rfl, fun _given => rfl⟩
      · have reported : StorageProblem.isReported ⟨failure, (Path.ofText file).toText⟩ = true := by
          simp [StorageProblem.isReported, null]
        simp only [reported, if_neg null]
        exact ⟨_, rfl, fun given => absurd rfl given⟩

theorem report_apply (result : CompilationResult) (world : World σ) :
    ∃ journal, report result world = (.ok (), { world with journal := journal }) := by
  unfold report
  rw [List.forM_eq_forM]
  generalize result.diagnostics = diagnostics
  induction diagnostics generalizing world with
  | nil => exact ⟨world.journal, rfl⟩
  | cons diagnostic diagnostics ih =>
      rw [List.forM_cons]
      simp only [Action.bind_apply, Action.log_apply]
      exact ih _

theorem compileText_apply (toolbox : Toolbox σ) (config : ToolchainConfig) (job : Job)
    (source : Text) (world : World σ) :
    ∃ journal, compileText toolbox config job source world =
      ((compile toolbox config (job.request source) world).1,
        { (compile toolbox config (job.request source) world).2 with journal := journal }) := by
  simp only [compileText, Action.bind_apply, Job.request]
  rcases compile toolbox config _ world with ⟨outcome, after⟩
  cases outcome with
  | error fault => exact ⟨after.journal, rfl⟩
  | ok result =>
      obtain ⟨journal, reporting⟩ := report_apply result after
      simp only [reporting]
      exact ⟨journal, rfl⟩

/-- Compiling a file whose text can be read is compiling the text. -/
theorem compileFile_apply (toolbox : Toolbox σ) (config : ToolchainConfig) (job : Job)
    (world : World σ) :
    ∃ journal, compileFile toolbox config job world =
      match textAt job.file world.store with
      | .ok (some source) =>
          ((compile toolbox config (job.request source) world).1.map some,
            { (compile toolbox config (job.request source) world).2 with journal := journal })
      | .ok none => (.ok none, { world with journal := journal })
      | .error fault => (.error fault, world) := by
  obtain ⟨noted, reading, quiet⟩ := readShader_apply job.file world
  simp only [compileFile, Action.bind_apply, reading]
  cases held : textAt job.file world.store with
  | error fault =>
      rw [quiet (held ▸ nofun)]
      exact ⟨noted, rfl⟩
  | ok text? =>
      cases text? with
      | none => exact ⟨noted, rfl⟩
      | some source =>
          rw [quiet (held ▸ nofun)]
          obtain ⟨journal, compiling⟩ := compileText_apply toolbox config job source world
          simp only [Action.bind_apply, compiling]
          cases (compile toolbox config (job.request source) world).1 with
          | error fault => exact ⟨journal, rfl⟩
          | ok result => exact ⟨journal, rfl⟩

end Cli

def Artifact.headed? (header : RawText) : Artifact → Option Artifact
  | .source text => header.toText?.map fun header => .source (header ++ text)
  | .encoded base64 => some (.encoded base64)

theorem Artifact.headed?_nil (artifact : Artifact) : artifact.headed? [] = some artifact := by
  cases artifact with
  | source text => rfl
  | encoded base64 => rfl

namespace Cli

theorem save_apply (path : Path) (content : Bytes) (world : World σ) :
    save path content world =
      match world.store.write path content with
      | .ok store => (.ok (), { world with store := store })
      | .error failure => (.error (.storage ⟨failure, path.toText⟩), world) := by
  simp only [save, Action.bind_apply, Action.get_apply]
  cases world.store.write path content with
  | ok store => rfl
  | error failure => rfl

theorem saveText_apply (path : Path) (text : RawText) (world : World σ) :
    saveText path text world =
      match world.store.write path (text.encode?.getD []) with
      | .ok store =>
          (if text.encode?.isSome then .ok () else .error .unencodable,
            { world with store := store })
      | .error failure => (.error (.storage ⟨failure, path.toText⟩), world) := by
  simp only [saveText, Action.bind_apply, save_apply]
  cases world.store.write path (text.encode?.getD []) with
  | ok store => cases text.encode?.isSome <;> rfl
  | error failure => rfl

/-- An artifact is emitted to a file by writing its bytes there. A header that is no Unicode text
leaves the file empty. -/
theorem emit_file_apply (path : Path) (header : RawText) (artifact : Artifact) (world : World σ) :
    ∃ journal, emit (some path) header artifact world =
      match artifact.headed? header with
      | none =>
          match world.store.write path [] with
          | .ok store => (.error .unencodable, { world with store := store })
          | .error failure => (.error (.storage ⟨failure, path.toText⟩), world)
      | some headed =>
          match headed.bytes with
          | .error problem => (.error (.unforeseen problem.message), world)
          | .ok content =>
              match world.store.write path content with
              | .ok store => (.ok (), { world with store := store, journal := journal })
              | .error failure => (.error (.storage ⟨failure, path.toText⟩), world) := by
  cases artifact with
  | source text =>
      simp only [emit, Artifact.headed?, Action.bind_apply, saveText_apply, RawText.encode?,
        RawText.toText?_append_ofText]
      cases header.toText? with
      | none =>
          refine ⟨world.journal, ?_⟩
          simp only [Option.map_none, Option.getD_none]
          cases world.store.write path [] with
          | ok store => rfl
          | error failure => rfl
      | some head =>
          simp only [Option.map_some, Option.getD_some, Option.isSome_some, Artifact.bytes]
          cases world.store.write path (Utf8.encode (head ++ text)) with
          | ok store => exact ⟨_, rfl⟩
          | error failure => exact ⟨world.journal, rfl⟩
  | encoded base64 =>
      simp only [emit, Artifact.headed?, Artifact.bytes]
      cases Base64.decode base64 with
      | error problem => exact ⟨world.journal, rfl⟩
      | ok content =>
          simp only [Action.bind_apply, save_apply]
          cases world.store.write path content with
          | ok store => exact ⟨_, rfl⟩
          | error failure => exact ⟨world.journal, rfl⟩

/-- Printing an artifact fails only for a header that is no Unicode text. -/
theorem emit_printed_apply (header : RawText) (artifact : Artifact) (world : World σ) :
    ∃ printed, emit none header artifact world =
      (if (artifact.headed? header).isSome then .ok () else .error .unencodable,
        { world with printed := printed }) := by
  cases artifact with
  | source text =>
      cases read : header.toText? with
      | none =>
          simp only [emit, Artifact.headed?, RawText.toText?_append_ofText, read, Option.map_none]
          exact ⟨world.printed, rfl⟩
      | some head =>
          simp only [emit, Artifact.headed?, RawText.toText?_append_ofText, read, Option.map_some,
            Option.isSome_some]
          cases Text.endsWith ['\n'] (head ++ text) with
          | true => exact ⟨_, rfl⟩
          | false => exact ⟨_, rfl⟩
  | encoded base64 => exact ⟨_, rfl⟩

end Cli
end ShaderBridge
