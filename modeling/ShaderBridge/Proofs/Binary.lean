import ShaderBridge.Proofs.Cli.Run
import ShaderBridge.Proofs.Http.Answer
import ShaderBridge.Proofs.Pipeline.Artifact
set_option autoImplicit false

/-! The way of a binary artifact, from the file that the last stage leaves to the callers of a
compilation: the result has it in standard Base64, a command line writes it to a file as it is, and
the server sends its Base64 form. -/

namespace ShaderBridge

open Attempt (Fails)
open Cli (Invocation JobOptions Surroundings textAt)

variable {σ : Type}

/-- A compilation for a binary target whose stages succeed and leave `content` fails exactly when a
line number that the last stage printed is too long to be read. In every other case its result has
the standard Base64 form of `content`, command lines that ask for it write `content` to their
output, and the server answers with that Base64 form. -/
theorem compile_binary_round_trip (toolbox : Toolbox σ) (config : ToolchainConfig)
    (request : CompilationRequest) (world : World σ) {last : ToolEvent} {output : Path}
    {content : Bytes} (binary : request.target = .spirv)
    (finished : Finished request
      (compile toolbox.recorded config request world.recorded).2.events last)
    (expected : last.call.output = some output) (left : last.store.read output = .ok content) :
    (Fails (compile toolbox config request world).1 ↔
      ∃ stage ∈ request.plan, last.Overlong stage) ∧
    ∀ result, (compile toolbox config request world).1 = .ok result →
      ∃ base64, result.succeeded = true ∧ result.artifactBase64 = some base64 ∧
        Base64.IsStandard content base64 ∧
        result.artifact?.map Artifact.bytes = some (.ok content) ∧
        (∀ surroundings arguments verbose (options : JobOptions) formatName source path stored,
          Invocation.ofArguments arguments = .ok (.run verbose (.compile options formatName)) →
          Cli.Asks surroundings options formatName config request →
          textAt options.file world.store = .ok (some source) → request.source = source →
          options.output = some path →
          (compile toolbox config request world).2.store.write path content = .ok stored →
            (Cli.run toolbox surroundings arguments world).1 = { verbose := verbose } ∧
              (Cli.run toolbox surroundings arguments world).2.store = stored ∧
              stored.read path = .ok content) ∧
        ∀ (call : Http.Request) (body : Http.CompileBody),
          Http.Endpoint.ofPath? call.path = some .compile →
          call.method = Http.Endpoint.method .compile →
          Http.CompileBody.ofBytes call.body = .ok body → body.request = .ok request →
            ∃ answer : Http.CompileAnswer,
              (Http.answer toolbox config call world).1 = ⟨200, .json answer.toJson⟩ ∧
                answer.success = true ∧ answer.encoding = some "base64".toList ∧
                answer.code = some base64 ∧ Base64.decode base64 = .ok content := by
  have decoded := Base64.decode_encode content
  rcases compile_binary binary finished expected left with
    ⟨overlong, problem, failed⟩ | ⟨legible, warnings, _mild, compiled⟩
  · refine ⟨⟨fun _failed => overlong, fun _overlong => ⟨_, failed⟩⟩, ?_⟩
    intro result succeeded
    rw [failed] at succeeded
    cases succeeded
  · constructor
    · constructor
      · intro fails
        rw [compiled] at fails
        exact absurd fails (Attempt.not_fails_ok _)
      · intro overlong
        exact absurd overlong legible
    · intro result succeeded
      rw [compiled] at succeeded
      cases succeeded
      refine ⟨Base64.encode content, rfl, rfl, Base64.isStandard_encode content,
        congrArg some decoded, ?_, ?_⟩
      · intro surroundings arguments verbose options formatName source path stored parsed asks
          held same target wrote
        obtain ⟨completed, stands⟩ :=
          Cli.run_binary parsed asks held same compiled decoded target wrote
        exact ⟨completed, stands, FileStore.read_of_write wrote⟩
      · intro call body route method read named
        have answered := Http.answer_of_compiled route method read named compiled
        exact ⟨_, answered, rfl, rfl, rfl, decoded⟩

/-- Four bytes that a command line writes and the server sends. -/
theorem compile_binary_round_trip_of_magic_number :
    let request : CompilationRequest := { source := "x", target := .spirv }
    let magic : Bytes := [3, 2, 35, 7]
    let passed : ToolRun := ⟨true, [], [], some ⟨.root, []⟩, some 0, false⟩
    let store := FileStore.furnished.install (Path.ofText "/a.slang") (Utf8.encode "x") false
    let world : World (List ToolAnswer) := { store := store, tools := [⟨.ok passed, some magic⟩] }
    let arguments : List Text := ["compile", "a.slang", "a.spv", "--target", "spirv"]
    let body : Text := "\x7b\"source\": \"x\", \"target\": \"spirv\"\x7d"
    let surroundings : Cli.Surroundings := { environment := [], now := ⟨2024, 1, 2, 3, 4, 5⟩ }
    let ran := Cli.run .answering surroundings arguments world
    let sent := Http.answer .answering {} ⟨"POST", "/api/compile", Utf8.encode body⟩ world
    (∃ result, (compile .answering {} request world).1 = .ok result ∧ ∃ base64,
        result.artifactBase64 = some base64 ∧ Base64.IsStandard magic base64) ∧
      ran.2.store.read (Path.ofText "a.spv") = .ok magic ∧
      ∃ answer : Http.CompileAnswer, sent.1 = ⟨200, .json answer.toJson⟩ ∧
        ∃ base64, answer.code = some base64 ∧ Base64.decode base64 = .ok magic := by
  intro request magic passed store world arguments body surroundings ran sent
  let events := (compile Toolbox.answering.recorded {} request world.recorded).2.events
  let spare : ToolEvent := ⟨⟨[], [], ⟨.root, []⟩, 0, none⟩, .ok passed, store⟩
  let last := events.getLast?.getD spare
  obtain ⟨present, planned, answered, expected, left⟩ :
      events.getLast?.isSome ∧ events.length = request.plan.length ∧ last.outcome = .ok passed ∧
        last.call.output = some (last.call.directory.child spirvFile) ∧
        last.store.read (last.call.directory.child spirvFile) = .ok magic := by
    decide +kernel
  have final : events.getLast? = some last := by
    obtain ⟨event, found⟩ := Option.isSome_iff_exists.mp present
    simp [last, found]
  have finished : Finished request events last :=
    ⟨final, planned, passed, answered, rfl, rfl⟩
  obtain ⟨_fails, round⟩ :=
    compile_binary_round_trip .answering {} request world rfl finished expected left
  obtain ⟨made, free⟩ : (compile .answering {} request world).1.isOk = true ∧
      ((compile .answering {} request world).2.store.write
        (Path.ofText "a.spv") magic).isOk = true := by
    decide +kernel
  cases compiled : (compile .answering {} request world).1 with
  | error fault =>
      rw [compiled] at made
      cases made
  | ok result =>
      obtain ⟨base64, _succeeded, form, standard, _bytes, command, service⟩ := round result compiled
      refine ⟨⟨result, rfl, base64, form, standard⟩, ?_, ?_⟩
      · let options : JobOptions :=
          ⟨"a.slang", some (Path.ofText "a.spv"), "spirv", [], "materialLibrary", false⟩
        have parsed : Invocation.ofArguments arguments =
            .ok (.run false (.compile options "plain")) := by decide +kernel
        have asks : Cli.Asks surroundings options "plain" {} request :=
          ⟨by decide, by decide, by decide, by decide, rfl, by decide +kernel⟩
        have held : textAt options.file world.store = .ok (some "x".toList) := by
          decide +kernel
        cases wrote : (compile .answering {} request world).2.store.write
            (Path.ofText "a.spv") magic with
        | error failure =>
            rw [wrote] at free
            cases free
        | ok stored =>
            obtain ⟨_completed, stands, holds⟩ :=
              command _ _ _ options _ _ _ _ parsed asks held rfl rfl wrote
            change ran.2.store = stored at stands
            rw [stands]
            exact holds
      · obtain ⟨answer, answered, _success, _encoding, code, decoded⟩ :=
          service ⟨"POST", "/api/compile", Utf8.encode body⟩
            ⟨.ofText "x", .ofText "slang", .ofText "spirv", .ofText "materialLibrary", false⟩
            (by decide +kernel) rfl (by rfl) (by rfl)
        exact ⟨answer, answered, base64, code, decoded⟩

end ShaderBridge
