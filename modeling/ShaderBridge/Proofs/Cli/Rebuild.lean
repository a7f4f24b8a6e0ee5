import ShaderBridge.Cli.Run
import ShaderBridge.Proofs.Cli.Job
import ShaderBridge.Proofs.Pipeline.Artifact
set_option autoImplicit false

/-! Whether a rebuild succeeds, fails or ends the watch. `Watch.Rebuilt` lists the ways in which a
rebuild ends; the conditions for each outcome are read off it, and the loop of a watch goes on as long
as none of its rebuilds ends in a fault. -/

namespace ShaderBridge.Cli.Watch

open Attempt (Fails)

variable {σ : Type}

section
variable (watch : Watch) (toolbox : Toolbox σ) (config : ToolchainConfig)

def Compiled (here : World σ) (outcome : Except Fault CompilationResult) (after : FileStore) :
    Prop :=
  ∃ source, textAt watch.job.file here.store = .ok (some source) ∧
    (compile toolbox config (watch.job.request source) here).1 = outcome ∧
    (compile toolbox config (watch.job.request source) here).2.store = after

/-- The ways in which a rebuild ends, with the files that it leaves. -/
inductive Rebuilt (here : World σ) : Except Fault Bool → FileStore → Prop where
  | unreadable {fault : Fault} (held : textAt watch.job.file here.store = .error fault) :
      Rebuilt here (.error fault) here.store
  | missing (held : textAt watch.job.file here.store = .ok none) :
      Rebuilt here (.ok false) here.store
  | raised {fault : Fault} {after : FileStore}
      (compiled : watch.Compiled toolbox config here (.error fault) after)
      (grave : fault.isOperational = false) : Rebuilt here (.error fault) after
  | refused {fault : Fault} {after : FileStore}
      (compiled : watch.Compiled toolbox config here (.error fault) after)
      (expected : fault.isOperational = true) : Rebuilt here (.ok false) after
  | failed {result : CompilationResult} {after : FileStore}
      (compiled : watch.Compiled toolbox config here (.ok result) after)
      (none : result.artifact? = none) : Rebuilt here (.ok false) after
  | printed {result : CompilationResult} {after : FileStore} {artifact : Artifact}
      (compiled : watch.Compiled toolbox config here (.ok result) after)
      (made : result.artifact? = some artifact) (nowhere : watch.output = none) :
      Rebuilt here (.ok true) after
  | unsaved {result : CompilationResult} {after : FileStore} {artifact : Artifact} {path : Path}
      {content : Bytes} {failure : StorageFailure}
      (compiled : watch.Compiled toolbox config here (.ok result) after)
      (made : result.artifact? = some artifact) (somewhere : watch.output = some path)
      (bytes : artifact.bytes = .ok content)
      (rejected : after.write path content = .error failure) :
      Rebuilt here (.error (.storage ⟨failure, path.toText⟩)) after
  | saved {result : CompilationResult} {after : FileStore} {artifact : Artifact} {path : Path}
      {content : Bytes} {stored : FileStore}
      (compiled : watch.Compiled toolbox config here (.ok result) after)
      (made : result.artifact? = some artifact) (somewhere : watch.output = some path)
      (bytes : artifact.bytes = .ok content)
      (wrote : after.write path content = .ok stored) : Rebuilt here (.ok true) stored

end

section
variable (watch : Watch) (toolbox : Toolbox σ) (config : ToolchainConfig)

theorem deliver_apply (result : CompilationResult) (world : World σ) :
    ∃ journal printed, watch.deliver result world =
      match result.artifact?, watch.output with
      | none, _ => (.ok false, { world with journal := journal })
      | some _, none => (.ok true, { world with printed := printed })
      | some artifact, some path =>
          match artifact.bytes with
          | .error problem => (.error (.unforeseen problem.message), world)
          | .ok content =>
              match world.store.write path content with
              | .ok store => (.ok true, { world with store := store, journal := journal })
              | .error failure => (.error (.storage ⟨failure, path.toText⟩), world) := by
  unfold deliver
  cases result.artifact? with
  | none => exact ⟨_, world.printed, rfl⟩
  | some artifact =>
      cases watch.output with
      | none =>
          obtain ⟨printed, printing⟩ := emit_printed_apply [] artifact world
          rw [Artifact.headed?_nil] at printing
          simp only [Action.bind_apply, printing, Option.isSome_some, if_true]
          exact ⟨world.journal, _, rfl⟩
      | some path =>
          obtain ⟨journal, writing⟩ := emit_file_apply path [] artifact world
          rw [Artifact.headed?_nil] at writing
          simp only [Action.bind_apply, writing]
          cases artifact.bytes with
          | error problem => exact ⟨journal, world.printed, rfl⟩
          | ok content =>
              simp only
              cases world.store.write path content with
              | error failure => exact ⟨journal, world.printed, rfl⟩
              | ok store => exact ⟨journal, world.printed, rfl⟩

/-- Every rebuild ends in one of the ways. -/
theorem rebuild_rebuilt (here : World σ) :
    watch.Rebuilt toolbox config here (watch.rebuild toolbox config here).1
      (watch.rebuild toolbox config here).2.store := by
  obtain ⟨noted, compiling⟩ := compileFile_apply toolbox config watch.job here
  simp only [rebuild, Action.bind_apply, Action.tryCatch_apply, compiling]
  cases held : textAt watch.job.file here.store with
  | error fault =>
      simp only [textAt_eq_error held]
      exact .unreadable held
  | ok text? =>
      cases text? with
      | none => exact .missing held
      | some source =>
          rcases ran : compile toolbox config (watch.job.request source) here with
            ⟨outcome, after⟩
          have compiled : watch.Compiled toolbox config here outcome after.store :=
            ⟨source, held, congrArg Prod.fst ran, congrArg (·.2.store) ran⟩
          cases outcome with
          | error fault =>
              cases grave : fault.isOperational with
              | false =>
                  simp only [ran, Except.map, grave]
                  exact .raised compiled grave
              | true =>
                  simp only [ran, Except.map, grave, if_true]
                  exact .refused compiled grave
          | ok result =>
              obtain ⟨journal, printed, delivering⟩ :=
                watch.deliver_apply result { after with journal := noted }
              simp only [ran, Except.map, delivering]
              cases made : result.artifact? with
              | none => exact .failed compiled made
              | some artifact =>
                  obtain ⟨content, bytes⟩ := compile_artifact_bytes (congrArg Prod.fst ran) made
                  cases target : watch.output with
                  | none => exact .printed compiled made target
                  | some path =>
                      simp only [bytes]
                      cases wrote : after.store.write path content with
                      | error failure => exact .unsaved compiled made target bytes wrote
                      | ok stored => exact .saved compiled made target bytes wrote

end

section
variable {watch : Watch} {toolbox : Toolbox σ} {config : ToolchainConfig} {here : World σ}
variable {outcome : Except Fault Bool} {left after : FileStore}

theorem Compiled.readable {ended : Except Fault CompilationResult}
    (compiled : watch.Compiled toolbox config here ended after) :
    ∃ source, textAt watch.job.file here.store = .ok (some source) := by
  obtain ⟨source, held, _out, _left⟩ := compiled
  exact ⟨source, held⟩

theorem Compiled.unique {ended again : Except Fault CompilationResult} {other : FileStore}
    (compiled : watch.Compiled toolbox config here ended after)
    (same : watch.Compiled toolbox config here again other) : again = ended ∧ other = after := by
  obtain ⟨source, held, rfl, rfl⟩ := compiled
  obtain ⟨_, once, rfl, rfl⟩ := same
  rw [held] at once
  cases once
  exact ⟨rfl, rfl⟩

theorem Rebuilt.of_unreadable (rebuilt : watch.Rebuilt toolbox config here outcome left)
    (unreadable : Fails (textAt watch.job.file here.store)) : Fails outcome := by
  obtain ⟨cause, failed⟩ := unreadable
  cases rebuilt with
  | unreadable held => exact ⟨_, rfl⟩
  | missing held =>
      rw [failed] at held
      cases held
  | raised compiled _ | refused compiled _ | failed compiled _ | printed compiled _ _
  | unsaved compiled _ _ _ _ | saved compiled _ _ _ _ =>
      obtain ⟨source, held⟩ := compiled.readable
      rw [failed] at held
      cases held

theorem Rebuilt.of_error {fault : Fault}
    (rebuilt : watch.Rebuilt toolbox config here outcome left)
    (compiled : watch.Compiled toolbox config here (.error fault) after) :
    outcome = if fault.isOperational then .ok false else .error fault := by
  cases rebuilt with
  | unreadable held | missing held =>
      obtain ⟨source, readable⟩ := compiled.readable
      rw [held] at readable
      cases readable
  | raised other grave =>
      obtain ⟨same, _left⟩ := compiled.unique other
      cases same
      simp [grave]
  | refused other expected =>
      obtain ⟨same, _left⟩ := compiled.unique other
      cases same
      simp [expected]
  | failed other _ | printed other _ _ | unsaved other _ _ _ _ | saved other _ _ _ _ =>
      obtain ⟨same, _left⟩ := compiled.unique other
      cases same

/-- What becomes of a result. -/
theorem Rebuilt.of_ok {result : CompilationResult} {artifact : Artifact}
    (rebuilt : watch.Rebuilt toolbox config here outcome left)
    (compiled : watch.Compiled toolbox config here (.ok result) after)
    (made : result.artifact? = some artifact) :
    (watch.output = none ∧ outcome = .ok true ∧ left = after) ∨
    ∃ path content, watch.output = some path ∧ artifact.bytes = .ok content ∧
      ((Fails (after.write path content) ∧ Fails outcome) ∨
        (after.write path content = .ok left ∧ outcome = .ok true)) := by
  cases rebuilt with
  | unreadable held | missing held =>
      obtain ⟨source, readable⟩ := compiled.readable
      rw [held] at readable
      cases readable
  | raised other _ | refused other _ =>
      obtain ⟨same, _left⟩ := compiled.unique other
      cases same
  | failed other none =>
      obtain ⟨same, _left⟩ := compiled.unique other
      cases same
      rw [made] at none
      cases none
  | printed other _ nowhere =>
      obtain ⟨_same, rfl⟩ := compiled.unique other
      exact .inl ⟨nowhere, rfl, rfl⟩
  | unsaved other again somewhere bytes rejected =>
      obtain ⟨same, rfl⟩ := compiled.unique other
      cases same
      rw [made] at again
      cases again
      exact .inr ⟨_, _, somewhere, bytes, .inl ⟨⟨_, rejected⟩, ⟨_, rfl⟩⟩⟩
  | saved other again somewhere bytes wrote =>
      obtain ⟨same, rfl⟩ := compiled.unique other
      cases same
      rw [made] at again
      cases again
      exact .inr ⟨_, _, somewhere, bytes, .inr ⟨wrote, rfl⟩⟩

/-- An artifact for a file is written there, or the rebuild fails. -/
theorem Rebuilt.of_file {result : CompilationResult} {artifact : Artifact} {path : Path}
    {content : Bytes} (rebuilt : watch.Rebuilt toolbox config here outcome left)
    (compiled : watch.Compiled toolbox config here (.ok result) after)
    (made : result.artifact? = some artifact) (somewhere : watch.output = some path)
    (bytes : artifact.bytes = .ok content) :
    (Fails (after.write path content) ∧ Fails outcome) ∨
      (after.write path content = .ok left ∧ outcome = .ok true) := by
  rcases rebuilt.of_ok compiled made with ⟨nowhere, _ended, _left⟩ | ⟨_, _, target, again, ends⟩
  · rw [somewhere] at nowhere
    cases nowhere
  · rw [somewhere] at target
    cases target
    rw [bytes] at again
    cases again
    exact ends

end

section
variable (watch : Watch) (toolbox : Toolbox σ) (config : ToolchainConfig)

/-- The tool calls on record when the text of the file is compiled. -/
def calls (here : World σ) (source : Text) : List ToolEvent :=
  (compile toolbox.recorded config (watch.job.request source) here.recorded).2.events

/-- What lets a fault out of a rebuild. -/
inductive Breaks (here : World σ) : Prop where
  | path (null : '\x00' ∈ (Path.ofText watch.job.file).toText)
  | text {content : Bytes} (read : here.store.read (Path.ofText watch.job.file) = .ok content)
      (malformed : Utf8.decode? content = none)
  | tool {source : Text} {event : ToolEvent} {fault : Fault}
      (held : textAt watch.job.file here.store = .ok (some source))
      (member : event ∈ watch.calls toolbox config here source)
      (raised : event.outcome = .error fault) (grave : fault.isOperational = false)
  | pipeline {source : Text} (held : textAt watch.job.file here.store = .ok (some source))
      (enabled : config.enabledTargets.contains watch.job.target = true)
      (escapes : Escapes config (watch.job.request source) here.store
        (watch.calls toolbox config here source))
  | output {result : CompilationResult} {after : FileStore} {artifact : Artifact} {path : Path}
      {content : Bytes} (compiled : watch.Compiled toolbox config here (.ok result) after)
      (made : result.artifact? = some artifact) (somewhere : watch.output = some path)
      (bytes : artifact.bytes = .ok content) (rejected : Fails (after.write path content))

/-- The text of the file is compiled to an artifact, and that is printed or written where it
belongs. -/
inductive Delivers (here : World σ) (left : FileStore) : Prop where
  | printed {result : CompilationResult} {artifact : Artifact}
      (compiled : watch.Compiled toolbox config here (.ok result) left)
      (made : result.artifact? = some artifact) (nowhere : watch.output = none)
  | written {result : CompilationResult} {after : FileStore} {artifact : Artifact} {path : Path}
      {content : Bytes} (compiled : watch.Compiled toolbox config here (.ok result) after)
      (made : result.artifact? = some artifact) (somewhere : watch.output = some path)
      (bytes : artifact.bytes = .ok content) (wrote : after.write path content = .ok left)

private theorem compiled_grave_iff (here : World σ) :
    (∃ fault after, watch.Compiled toolbox config here (.error fault) after ∧
        fault.isOperational = false) ↔
      ∃ source, textAt watch.job.file here.store = .ok (some source) ∧
        ((∃ event ∈ watch.calls toolbox config here source, ∃ fault,
            event.outcome = .error fault ∧ fault.isOperational = false) ∨
          (config.enabledTargets.contains watch.job.target = true ∧
            Escapes config (watch.job.request source) here.store
              (watch.calls toolbox config here source))) := by
  constructor
  · rintro ⟨fault, after, ⟨source, held, out, _left⟩, grave⟩
    exact ⟨source, held, (compile_grave_iff toolbox config _ here).mp ⟨fault, out, grave⟩⟩
  · rintro ⟨source, held, sources⟩
    obtain ⟨fault, out, grave⟩ :=
      (compile_grave_iff toolbox config (watch.job.request source) here).mpr sources
    exact ⟨fault, _, ⟨source, held, out, rfl⟩, grave⟩

theorem rebuild_fails_iff (here : World σ) :
    Fails (watch.rebuild toolbox config here).1 ↔ watch.Breaks toolbox config here := by
  have rebuilt := watch.rebuild_rebuilt toolbox config here
  generalize (watch.rebuild toolbox config here).1 = outcome at rebuilt
  generalize (watch.rebuild toolbox config here).2.store = left at rebuilt
  constructor
  · rintro ⟨fault, rfl⟩
    cases rebuilt with
    | unreadable held =>
        rcases textAt_fails_iff.mp ⟨fault, held⟩ with null | ⟨content, read, malformed⟩
        · exact .path null
        · exact .text read malformed
    | raised compiled grave =>
        obtain ⟨source, held, sources⟩ :=
          (watch.compiled_grave_iff toolbox config here).mp ⟨fault, left, compiled, grave⟩
        rcases sources with ⟨event, member, cause, raised, grave⟩ | ⟨enabled, escapes⟩
        · exact .tool held member raised grave
        · exact .pipeline held enabled escapes
    | unsaved compiled made somewhere bytes rejected =>
        exact .output compiled made somewhere bytes ⟨_, rejected⟩
  · -- a compilation with a grave fault decides the rebuild, whichever way it came about
    have graveFails : (∃ fault after, watch.Compiled toolbox config here (.error fault) after ∧
        fault.isOperational = false) → Fails outcome := by
      rintro ⟨fault, after, compiled, grave⟩
      have ended := rebuilt.of_error compiled
      simp only [grave, Bool.false_eq_true, if_false] at ended
      exact ⟨fault, ended⟩
    intro breaks
    cases breaks with
    | path null => exact rebuilt.of_unreadable (textAt_fails_iff.mpr (.inl null))
    | text read malformed =>
        exact rebuilt.of_unreadable (textAt_fails_iff.mpr (.inr ⟨_, read, malformed⟩))
    | tool held member raised grave =>
        exact graveFails ((watch.compiled_grave_iff toolbox config here).mpr
          ⟨_, held, .inl ⟨_, member, _, raised, grave⟩⟩)
    | pipeline held enabled escapes =>
        exact graveFails ((watch.compiled_grave_iff toolbox config here).mpr
          ⟨_, held, .inr ⟨enabled, escapes⟩⟩)
    | output compiled made somewhere bytes rejected =>
        rcases rebuilt.of_file compiled made somewhere bytes with
          ⟨_rejected, fails⟩ | ⟨wrote, _ended⟩
        · exact fails
        · rw [wrote] at rejected
          exact absurd rejected (Attempt.not_fails_ok left)

theorem rebuild_true_iff (here : World σ) :
    (watch.rebuild toolbox config here).1 = .ok true ↔
      watch.Delivers toolbox config here (watch.rebuild toolbox config here).2.store := by
  have rebuilt := watch.rebuild_rebuilt toolbox config here
  generalize (watch.rebuild toolbox config here).1 = outcome at rebuilt
  generalize (watch.rebuild toolbox config here).2.store = left at rebuilt
  constructor
  · rintro rfl
    cases rebuilt with
    | printed compiled made nowhere => exact .printed compiled made nowhere
    | saved compiled made somewhere bytes wrote =>
        exact .written compiled made somewhere bytes wrote
  · intro delivers
    cases delivers with
    | printed compiled made nowhere =>
        rcases rebuilt.of_ok compiled made with ⟨_nowhere, ended, _left⟩ | ⟨path, _, target, _⟩
        · exact ended
        · rw [nowhere] at target
          cases target
    | written compiled made somewhere bytes wrote =>
        rcases rebuilt.of_file compiled made somewhere bytes with
          ⟨rejected, _fails⟩ | ⟨_wrote, ended⟩
        · rw [wrote] at rejected
          exact absurd rejected (Attempt.not_fails_ok left)
        · exact ended

def Concerns (store : FileStore) (changed : Text) : Bool :=
  (Path.absolute store.workingDirectory (Path.ofText changed)).toText = watch.job.file

theorem notice_apply (changed : Text) (flag : Bool) (world : World σ) :
    ∃ journal, watch.notice changed flag world =
      (.ok (watch.Concerns world.store changed || flag), { world with journal := journal }) := by
  unfold notice Concerns
  simp only [Action.bind_apply, Action.get_apply]
  by_cases own : (Path.absolute world.store.workingDirectory (Path.ofText changed)).toText =
      watch.job.file
  · simp only [if_pos own, Action.bind_apply, Action.log_apply]
    exact ⟨_, by simp [own]; rfl⟩
  · simp only [if_neg own]
    exact ⟨world.journal, by simp [own]; rfl⟩

private theorem notices_apply (modified : List Text) (flag : Bool) (world : World σ) :
    ∃ journal, modified.foldlM (fun flag changed => watch.notice changed flag) flag world =
      (.ok (modified.any (watch.Concerns world.store) || flag),
        { world with journal := journal }) := by
  induction modified generalizing flag world with
  | nil => exact ⟨world.journal, rfl⟩
  | cons changed modified ih =>
      obtain ⟨noted, noticing⟩ := watch.notice_apply changed flag world
      obtain ⟨journal, more⟩ := ih (watch.Concerns world.store changed || flag)
        { world with journal := noted }
      refine ⟨journal, ?_⟩
      rw [List.foldlM_cons, Action.bind_apply, noticing]
      simp only [more, List.any_cons]
      congr 2
      cases watch.Concerns world.store changed <;> simp

theorem sleep_apply (tick : Tick) (flag : Bool) (world : World σ) :
    ∃ journal, watch.sleep tick flag world =
      (.ok (tick.modified.any
          (watch.Concerns (tick.written.foldl sleep.install world.store)) || flag),
        { world with
          store := tick.written.foldl sleep.install world.store
          journal := journal }) :=
  watch.notices_apply tick.modified flag
    { world with store := tick.written.foldl sleep.install world.store }

/-- The worlds in which the loop of a watch begins its rebuilds, as far as it gets. -/
def rebuilds : List Tick → (flag : Bool) → World σ → List (World σ)
  | [], flag, here => if flag then [here] else []
  | tick :: ticks, flag, here =>
      let rest (after : World σ) : List (World σ) :=
        match watch.sleep tick false after with
        | (.ok flag, woken) => rebuilds ticks flag woken
        | (.error _, _) => []
      if flag then
        here :: match watch.rebuild toolbox config here with
          | (.ok _, after) => rest after
          | (.error _, _) => []
      else rest here

/-- The loop ends in a fault exactly when one of its rebuilds does. -/
theorem loop_fails_iff (ticks : List Tick) (flag : Bool) (here : World σ) :
    Fails (watch.loop toolbox config ticks flag here).1 ↔
      ∃ point ∈ watch.rebuilds toolbox config ticks flag here,
        watch.Breaks toolbox config point := by
  induction ticks generalizing flag here with
  | nil =>
      cases flag with
      | false => simp [loop, rebuilds, Fails]
      | true =>
          have first := watch.rebuild_fails_iff toolbox config here
          simp only [loop, rebuilds, if_true, Action.bind_apply, List.mem_singleton,
            exists_eq_left, ← first]
          rcases watch.rebuild toolbox config here with ⟨outcome, after⟩
          cases outcome with
          | error fault => simp [Fails]
          | ok done => simp [Fails]
  | cons tick ticks ih =>
      cases flag with
      | false =>
          obtain ⟨journal, sleeping⟩ := watch.sleep_apply tick false here
          simp only [loop, rebuilds, Bool.false_eq_true, if_false, Action.bind_apply, sleeping]
          exact ih _ _
      | true =>
          have first := watch.rebuild_fails_iff toolbox config here
          simp only [loop, rebuilds, if_true, Action.bind_apply, List.mem_cons,
            exists_eq_or_imp, ← first]
          rcases watch.rebuild toolbox config here with ⟨outcome, after⟩
          cases outcome with
          | error fault => simp [Fails]
          | ok done =>
              obtain ⟨journal, sleeping⟩ := watch.sleep_apply tick false after
              simp only [sleeping, ih]
              simp [Fails]

/-- A rebuild ends in a fault exactly for one of the reasons in `Breaks`, and says that it succeeded
exactly when the artifact is delivered; so a loop goes on, whatever its ticks do, exactly as long as
there is no such reason at one of its rebuilds. -/
theorem rebuild_survives_iff (here : World σ) (ticks : List Tick) (flag : Bool) :
    (Fails (watch.rebuild toolbox config here).1 ↔ watch.Breaks toolbox config here) ∧
    ((watch.rebuild toolbox config here).1 = .ok true ↔
      watch.Delivers toolbox config here (watch.rebuild toolbox config here).2.store) ∧
    ((watch.loop toolbox config ticks flag here).1 = .ok () ↔
      ∀ point ∈ watch.rebuilds toolbox config ticks flag here,
        ¬ watch.Breaks toolbox config point) := by
  refine ⟨watch.rebuild_fails_iff toolbox config here,
    watch.rebuild_true_iff toolbox config here, ?_⟩
  have ends := watch.loop_fails_iff toolbox config ticks flag here
  have survives : (watch.loop toolbox config ticks flag here).1 = .ok () ↔
      ¬ Fails (watch.loop toolbox config ticks flag here).1 := by
    cases (watch.loop toolbox config ticks flag here).1 <;> simp [Fails]
  rw [survives, ends]
  simp only [not_exists, not_and]

end

/-- A file with a byte that is not UTF-8 ends a watch at once, a file that is missing does not. -/
example :
    let store : FileStore := FileStore.furnished.install (Path.ofText "/a.slang") [255] false
    let world : World (List ToolAnswer) := { store := store, tools := [] }
    let watch (file : Text) : Watch := ⟨⟨file, .slang, .hlsl, .materialLibrary, false⟩, none⟩
    ((watch "/a.slang").rebuild Toolbox.answering {} world).1 = .error .undecodable ∧
      ((watch "/b.slang").rebuild Toolbox.answering {} world).1 = .ok false := by
  decide +kernel

end ShaderBridge.Cli.Watch
