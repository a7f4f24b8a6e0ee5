import ShaderBridge.Proofs.Cli.Completion
import ShaderBridge.Proofs.Pipeline.Cleanup
set_option autoImplicit false

/-! What the file for an artifact holds between the operations that may write it. An operation
leaves all files as they are, writes what its compilation made, or, where the comment header of a text
has no UTF-8 form, leaves the file empty. So over any history the file holds what the latest success
made, unless a command has emptied it since. -/

namespace ShaderBridge

variable {σ : Type}

namespace FileStore

section
variable {before after left : FileStore} {place : Place} {path : Path} {content : Bytes}

/-- A file can be written at a place, in a store where the directory for temporary files is named by
a path. -/
structure Offers (store : FileStore) (place : Place) : Prop where
  tree : store.IsTree
  scratch : store.temporary.IsRead
  takes : store.Takes place

theorem Same.contentAt? (same : before.Same after) (place : Place) :
    after.contentAt? place = before.contentAt? place := by
  unfold FileStore.contentAt?
  rw [same.entries]

theorem Same.offers (same : before.Same after) (offers : before.Offers place) :
    after.Offers place := by
  obtain ⟨tree, scratch, free, room⟩ := offers
  refine ⟨same.isTree tree, ?_, ?_⟩
  · rw [same.scratch]
    exact scratch
  · unfold Takes
    rw [same.entries, same.entries]
    exact ⟨free, room⟩

theorem Same.locate (same : before.Same after) (located : before.locate path = .ok place) :
    after.locate path = .ok place := by
  refine locate_kept same.stays ?_ located
  intro other stands
  rw [same.entries]
  exact stands

inductive Yields (place : Place) (before : FileStore) : Option Bytes → FileStore → Prop where
  | untouched {after : FileStore} (same : before.Same after) : Yields place before none after
  | written {after left : FileStore} {path : Path} {content : Bytes} (same : before.Same after)
      (located : before.locate path = .ok place) (wrote : after.write path content = .ok left) :
      Yields place before (some content) left

theorem Yields.contentAt? {made : Option Bytes} (yields : Yields place before made left) :
    left.contentAt? place = made.or (before.contentAt? place) := by
  cases yields with
  | untouched same => exact same.contentAt? place
  | written same located wrote =>
      obtain ⟨spot, found, takes, rfl⟩ := write_eq_ok_iff.mp wrote
      rw [same.locate located] at found
      cases found
      exact contentAt?_put takes

theorem Yields.offers {made : Option Bytes} (yields : Yields place before made left)
    (offers : before.Offers place) : left.Offers place := by
  cases yields with
  | untouched same => exact same.offers offers
  | written same located wrote =>
      obtain ⟨spot, found, takes, rfl⟩ := write_eq_ok_iff.mp wrote
      rw [same.locate located] at found
      cases found
      obtain ⟨tree, scratch, _takes⟩ := same.offers offers
      exact ⟨tree.put takes, scratch, takes.put⟩

theorem Yields.locate {made : Option Bytes} {spot : Place} (yields : Yields place before made left)
    (located : before.locate path = .ok spot) : left.locate path = .ok spot := by
  cases yields with
  | untouched same => exact same.locate located
  | written same found wrote =>
      obtain ⟨target, _found, takes, rfl⟩ := write_eq_ok_iff.mp wrote
      refine locate_kept (by rfl) ?_ (same.locate located)
      intro other stands
      rw [entryAt?_put _ takes.inner, if_neg]
      · exact stands
      · rintro rfl
        exact takes.1 stands

theorem Offers.exists_write (offers : before.Offers place) (same : before.Same after)
    (located : before.locate path = .ok place) (content : Bytes) :
    ∃ left, after.write path content = .ok left :=
  ⟨_, write_eq_ok_iff.mpr ⟨place, same.locate located, (same.offers offers).takes, rfl⟩⟩

end
end FileStore

namespace Cli

open FileStore (Yields)

/-- An operation that may write an artifact: a command line, or a rebuild of a watch. -/
inductive Operation (σ : Type) where
  | command (toolbox : Toolbox σ) (surroundings : Surroundings) (arguments : List Text)
  | rebuild (toolbox : Toolbox σ) (config : ToolchainConfig) (watch : Watch)

namespace Operation

def run (here : World σ) : Operation σ → World σ
  | command toolbox surroundings arguments => (Cli.run toolbox surroundings arguments here).2
  | rebuild toolbox config watch => (watch.rebuild toolbox config here).2

/-- Whether an operation says that it went well. -/
def Reports (here : World σ) : Operation σ → Prop
  | command toolbox surroundings arguments =>
      (Cli.run toolbox surroundings arguments here).1.status = 0
  | rebuild toolbox config watch => (watch.rebuild toolbox config here).1 = .ok true

/-- The pipeline of an operation succeeds, and this is what its artifact comes to in a file. -/
inductive Makes (here : World σ) : Operation σ → Bytes → Prop where
  | command {toolbox : Toolbox σ} {surroundings : Surroundings} {arguments : List Text}
      {verbose : Bool} {options : JobOptions} {formatName : Text} {commission : Commission}
      {config : ToolchainConfig} {result : CompilationResult} {after : FileStore}
      {artifact : Artifact} {content : Bytes}
      (parsed : Invocation.ofArguments arguments =
        .ok (.run verbose (.compile options formatName)))
      (commissions : options.Commissions surroundings formatName commission config)
      (compiled : commission.watch.Compiled toolbox config here (.ok result) after)
      (made : result.artifact? = some artifact)
      (writes : commission.Writes surroundings artifact content) :
      Makes here (command toolbox surroundings arguments) content
  | rebuild {toolbox : Toolbox σ} {config : ToolchainConfig} {watch : Watch}
      {result : CompilationResult} {after : FileStore} {artifact : Artifact} {content : Bytes}
      (compiled : watch.Compiled toolbox config here (.ok result) after)
      (made : result.artifact? = some artifact) (bytes : artifact.bytes = .ok content) :
      Makes here (rebuild toolbox config watch) content

/-- The pipeline of a command succeeds with a text that its header spoils. -/
inductive Tears (here : World σ) : Operation σ → Prop where
  | command {toolbox : Toolbox σ} {surroundings : Surroundings} {arguments : List Text}
      {verbose : Bool} {options : JobOptions} {formatName : Text} {commission : Commission}
      {config : ToolchainConfig} {result : CompilationResult} {after : FileStore}
      {artifact : Artifact}
      (parsed : Invocation.ofArguments arguments =
        .ok (.run verbose (.compile options formatName)))
      (commissions : options.Commissions surroundings formatName commission config)
      (compiled : commission.watch.Compiled toolbox config here (.ok result) after)
      (made : result.artifact? = some artifact)
      (spoils : commission.Spoils surroundings artifact) :
      Tears here (command toolbox surroundings arguments)

/-- An operation writes to a place if to any, with tools that keep to their workspaces. -/
def Fits (place : Place) (here : World σ) : Operation σ → Prop
  | command toolbox _ arguments =>
      toolbox.Confined ∧ ∀ verbose command,
        Invocation.ofArguments arguments = .ok (.run verbose command) →
          ∃ options formatName path, command = .compile options formatName ∧
            options.output = some path ∧ here.store.locate path = .ok place
  | rebuild toolbox config watch =>
      toolbox.Confined ∧ (∀ root, config.workspaceRoot = some root → root.IsRead) ∧
        ∃ path, watch.output = some path ∧ here.store.locate path = .ok place

end Operation

section
variable {toolbox : Toolbox σ} {config : ToolchainConfig} {here : World σ} {place : Place}

theorem workspaceRoot_isRead {environment : Environment}
    (configured : ToolchainConfig.ofEnvironment environment = .ok config) :
    ∀ root, config.workspaceRoot = some root → root.IsRead := by
  intro root rooted
  obtain ⟨direct, _direct, configured⟩ := Attempt.bind_eq_ok_iff.mp configured
  obtain ⟨multistage, _multistage, configured⟩ := Attempt.bind_eq_ok_iff.mp configured
  cases configured
  simp only at rooted
  split at rooted
  · cases rooted
  · cases rooted
    exact Path.isRead_ofText _

theorem Watch.Compiled.same {watch : Watch} {outcome : Except Fault CompilationResult}
    {after : FileStore} (compiled : watch.Compiled toolbox config here outcome after)
    (confined : toolbox.Confined) (offers : here.store.Offers place)
    (read : ∀ root, config.workspaceRoot = some root → root.IsRead) : here.store.Same after := by
  obtain ⟨source, _held, _ended, rfl⟩ := compiled
  refine compile_same confined offers.tree ?_ _
  cases rooted : config.workspaceRoot with
  | none => exact offers.scratch
  | some root => exact read root rooted

theorem JobOptions.Commissions.output_eq {options : JobOptions} {surroundings : Surroundings}
    {formatName : Text} {commission : Commission}
    (commissions : options.Commissions surroundings formatName commission config) :
    commission.output = options.output := by
  have known := commissions.known
  unfold JobOptions.commission? at known
  obtain ⟨target, _target, known⟩ := Option.bind_eq_some_iff.mp known
  obtain ⟨mode, _mode, known⟩ := Option.bind_eq_some_iff.mp known
  obtain ⟨language, _language, known⟩ := Option.bind_eq_some_iff.mp known
  obtain ⟨format, _format, known⟩ := Option.bind_eq_some_iff.mp known
  cases known
  rfl

theorem rebuild_yields_of_makes {watch : Watch} {content : Bytes}
    (offers : here.store.Offers place)
    (fits : (Operation.rebuild toolbox config watch).Fits place here)
    (makes : (Operation.rebuild toolbox config watch).Makes here content) :
    Yields place here.store (some content) (watch.rebuild toolbox config here).2.store ∧
      (watch.rebuild toolbox config here).1 = .ok true := by
  obtain ⟨confined, read, path, somewhere, located⟩ := fits
  cases makes with
  | rebuild compiled made bytes =>
      have same := compiled.same confined offers read
      have rebuilt := watch.rebuild_rebuilt toolbox config here
      obtain ⟨left, wrote⟩ := offers.exists_write same located content
      rcases rebuilt.of_file compiled made somewhere bytes with
        ⟨rejected, _fails⟩ | ⟨wrote, done⟩
      · rw [wrote] at rejected
        exact absurd rejected (Attempt.not_fails_ok left)
      · exact ⟨.written same located wrote, done⟩

theorem rebuild_yields_of_not_makes {watch : Watch} (offers : here.store.Offers place)
    (fits : (Operation.rebuild toolbox config watch).Fits place here)
    (fails : ¬ ∃ content, (Operation.rebuild toolbox config watch).Makes here content) :
    Yields place here.store none (watch.rebuild toolbox config here).2.store := by
  obtain ⟨confined, read, path, somewhere, located⟩ := fits
  have rebuilt := watch.rebuild_rebuilt toolbox config here
  generalize (watch.rebuild toolbox config here).1 = outcome at rebuilt
  generalize (watch.rebuild toolbox config here).2.store = left at rebuilt
  cases rebuilt with
  | unreadable | missing => exact .untouched (.refl _)
  | raised compiled _ | refused compiled _ | failed compiled _ =>
      exact .untouched (compiled.same confined offers read)
  | printed _ _ nowhere =>
      rw [somewhere] at nowhere
      cases nowhere
  | unsaved compiled made _ bytes _ | saved compiled made _ bytes _ =>
      exact absurd ⟨_, .rebuild compiled made bytes⟩ fails

/-- A command that commissions nothing makes no artifact and tears none. -/
theorem Operation.idle_of_unknown (toolbox : Toolbox σ) (surroundings : Surroundings)
    (here : World σ) {arguments : List Text} {verbose : Bool} {options : JobOptions}
    {formatName : Text}
    (parsed : Invocation.ofArguments arguments = .ok (.run verbose (.compile options formatName)))
    (unknown : options.commission? formatName = none) :
    (¬ ∃ content, (Operation.command toolbox surroundings arguments).Makes here content) ∧
      ¬ (Operation.command toolbox surroundings arguments).Tears here := by
  constructor
  · rintro ⟨_, makes⟩
    cases makes with
    | command read commissions _ _ _ =>
        rw [parsed] at read
        cases read
        rw [commissions.known] at unknown
        cases unknown
  · intro tears
    cases tears with
    | command read commissions _ _ _ =>
        rw [parsed] at read
        cases read
        rw [commissions.known] at unknown
        cases unknown

theorem command_yields_of_makes {surroundings : Surroundings} {arguments : List Text}
    {content : Bytes} (offers : here.store.Offers place)
    (fits : (Operation.command toolbox surroundings arguments).Fits place here)
    (makes : (Operation.command toolbox surroundings arguments).Makes here content) :
    Yields place here.store (some content) (run toolbox surroundings arguments here).2.store ∧
      (run toolbox surroundings arguments here).1.status = 0 := by
  obtain ⟨confined, written⟩ := fits
  cases makes with
  | command parsed commissions compiled made writes =>
      obtain ⟨_, _, path, same, somewhere, located⟩ := written _ _ parsed
      cases same
      have kept := compiled.same confined offers (workspaceRoot_isRead commissions.configured)
      have target := commissions.output_eq.trans somewhere
      obtain ⟨left, wrote⟩ := offers.exists_write kept located content
      obtain ⟨done, stored⟩ := (JobOptions.Commanded.worked commissions
        (.saved compiled made target writes wrote)).ends
      obtain ⟨shown, ran⟩ := run_compile toolbox surroundings here parsed
      rw [ran, done, stored]
      exact ⟨.written kept located wrote, rfl⟩

theorem command_yields_of_tears {surroundings : Surroundings} {arguments : List Text}
    (offers : here.store.Offers place)
    (fits : (Operation.command toolbox surroundings arguments).Fits place here)
    (tears : (Operation.command toolbox surroundings arguments).Tears here) :
    Yields place here.store (some []) (run toolbox surroundings arguments here).2.store ∧
      (run toolbox surroundings arguments here).1.status ≠ 0 := by
  obtain ⟨confined, written⟩ := fits
  cases tears with
  | command parsed commissions compiled made spoils =>
      obtain ⟨_, _, path, same, somewhere, located⟩ := written _ _ parsed
      cases same
      have kept := compiled.same confined offers (workspaceRoot_isRead commissions.configured)
      have target := commissions.output_eq.trans somewhere
      obtain ⟨opened, opens⟩ := offers.exists_write kept located []
      obtain ⟨raised, left⟩ := (JobOptions.Commanded.worked commissions
        (.torn compiled made target spoils opens)).ends
      obtain ⟨shown, ran⟩ := run_compile toolbox surroundings here parsed
      rw [ran, raised, left]
      exact ⟨.written kept located opens, nofun⟩

theorem command_yields_of_not_makes {surroundings : Surroundings} {arguments : List Text}
    (offers : here.store.Offers place)
    (fits : (Operation.command toolbox surroundings arguments).Fits place here)
    (fails : ¬ ∃ content, (Operation.command toolbox surroundings arguments).Makes here content)
    (whole : ¬ (Operation.command toolbox surroundings arguments).Tears here) :
    Yields place here.store none (run toolbox surroundings arguments here).2.store := by
  obtain ⟨confined, written⟩ := fits
  cases parsed : Invocation.ofArguments arguments with
  | error problem =>
      unfold run
      rw [parsed]
      exact .untouched (.refl _)
  | ok invocation =>
      cases invocation with
      | help =>
          unfold run
          rw [parsed]
          exact .untouched (.refl _)
      | run verbose command =>
          obtain ⟨options, formatName, path, rfl, somewhere, located⟩ := written _ _ parsed
          obtain ⟨shown, ran⟩ := run_compile toolbox surroundings here parsed
          have commanded := JobOptions.commanded options surroundings formatName toolbox here
          rw [ran]
          generalize (compileCommand toolbox surroundings options formatName here).1 = outcome
            at commanded
          generalize (compileCommand toolbox surroundings options formatName here).2.store = left
            at commanded
          cases commanded with
          | output | unknown | setting => exact .untouched (.refl _)
          | worked commissions worked =>
              have read := workspaceRoot_isRead commissions.configured
              cases worked with
              | unreadable | missing => exact .untouched (.refl _)
              | raised compiled _ | refused compiled _ | failed compiled _ =>
                  exact .untouched (compiled.same confined offers read)
              | printed _ _ nowhere _ | unprinted _ _ nowhere _ =>
                  rw [commissions.output_eq, somewhere] at nowhere
                  cases nowhere
              | unsaved compiled made target rejected =>
                  rw [commissions.output_eq, somewhere] at target
                  cases target
                  obtain ⟨opened, opens⟩ :=
                    offers.exists_write (compiled.same confined offers read) located []
                  rw [opens] at rejected
                  cases rejected
              | torn compiled made _ spoils _ =>
                  exact absurd (.command parsed commissions compiled made spoils) whole
              | saved compiled made _ writes _ =>
                  exact absurd ⟨_, .command parsed commissions compiled made writes⟩ fails

theorem Operation.yields_of_makes {operation : Operation σ} {content : Bytes}
    (offers : here.store.Offers place) (fits : operation.Fits place here)
    (makes : operation.Makes here content) :
    Yields place here.store (some content) (operation.run here).store ∧ operation.Reports here := by
  cases operation with
  | command => exact command_yields_of_makes offers fits makes
  | rebuild => exact rebuild_yields_of_makes offers fits makes

theorem Operation.yields_of_tears {operation : Operation σ} (offers : here.store.Offers place)
    (fits : operation.Fits place here) (tears : operation.Tears here) :
    Yields place here.store (some []) (operation.run here).store ∧ ¬ operation.Reports here := by
  cases operation with
  | command => exact command_yields_of_tears offers fits tears
  | rebuild => cases tears

theorem Operation.yields_of_not_makes {operation : Operation σ}
    (offers : here.store.Offers place) (fits : operation.Fits place here)
    (fails : ¬ ∃ content, operation.Makes here content) (whole : ¬ operation.Tears here) :
    Yields place here.store none (operation.run here).store := by
  cases operation with
  | command => exact command_yields_of_not_makes offers fits fails whole
  | rebuild => exact rebuild_yields_of_not_makes offers fits fails

end

/-- A history of operations on the file at a place, with what the latest one that wrote it left there:
what a success made, or nothing where an artifact was torn. Between two operations anything may
change but that file and the room for it. -/
inductive History (place : Place) (first : World σ) : Option Bytes → World σ → Prop where
  | start (offers : first.store.Offers place) : History place first none first
  | changed {made : Option Bytes} {here after : World σ} (history : History place first made here)
      (kept : after.store.contentAt? place = here.store.contentAt? place)
      (offers : after.store.Offers place) : History place first made after
  | succeeded {made : Option Bytes} {here : World σ} {operation : Operation σ} {content : Bytes}
      (history : History place first made here) (fits : operation.Fits place here)
      (makes : operation.Makes here content) :
      History place first (some content) (operation.run here)
  | torn {made : Option Bytes} {here : World σ} {operation : Operation σ}
      (history : History place first made here) (fits : operation.Fits place here)
      (tears : operation.Tears here) : History place first (some []) (operation.run here)
  | failed {made : Option Bytes} {here : World σ} {operation : Operation σ}
      (history : History place first made here) (fits : operation.Fits place here)
      (fails : ¬ ∃ content, operation.Makes here content) (whole : ¬ operation.Tears here) :
      History place first made (operation.run here)

section
variable {place : Place} {first last : World σ} {made : Option Bytes}

theorem History.offers (history : History place first made last) : last.store.Offers place := by
  induction history with
  | start offers => exact offers
  | changed _ _ offers _ => exact offers
  | succeeded _ fits makes offers =>
      exact (Operation.yields_of_makes offers fits makes).1.offers offers
  | torn _ fits tears offers => exact (Operation.yields_of_tears offers fits tears).1.offers offers
  | failed _ fits fails whole offers =>
      exact (Operation.yields_of_not_makes offers fits fails whole).offers offers

theorem History.holds (history : History place first made last) :
    last.store.contentAt? place = made.or (first.store.contentAt? place) := by
  induction history with
  | start _ => rfl
  | changed _ kept _ holds => rw [kept, holds]
  | succeeded history fits makes _ =>
      exact (Operation.yields_of_makes history.offers fits makes).1.contentAt?
  | torn history fits tears _ =>
      exact (Operation.yields_of_tears history.offers fits tears).1.contentAt?
  | failed history fits fails whole holds =>
      have yields := Operation.yields_of_not_makes history.offers fits fails whole
      rw [yields.contentAt?, Option.none_or, holds]

/-- Over every history of commands and rebuilds, the file for their artifacts holds what the latest
success made, or what it held at first, unless a command has torn it since; and an operation that
does not say that it went well leaves it as it was. Only a command whose comment header quotes a byte
that belongs to no character tears the file: it leaves it empty and says that it failed. -/
theorem output_keeps_last_artifact (history : History place first made last) :
    last.store.contentAt? place = made.or (first.store.contentAt? place) ∧
      ∀ operation : Operation σ, operation.Fits place last →
        (¬ operation.Reports last → ¬ operation.Tears last →
          (operation.run last).store.contentAt? place = last.store.contentAt? place) ∧
        (operation.Tears last → ¬ operation.Reports last ∧
          (operation.run last).store.contentAt? place = some []) := by
  refine ⟨history.holds, ?_⟩
  intro operation fits
  constructor
  · intro bad whole
    have fails : ¬ ∃ content, operation.Makes last content := by
      rintro ⟨content, makes⟩
      exact bad (Operation.yields_of_makes history.offers fits makes).2
    have yields := Operation.yields_of_not_makes history.offers fits fails whole
    rw [yields.contentAt?, Option.none_or]
  · intro tears
    obtain ⟨yields, bad⟩ := Operation.yields_of_tears history.offers fits tears
    exact ⟨bad, yields.contentAt?⟩

end

end Cli

/-- Tools that leave a byte as the module that they are to make. -/
def Toolbox.stamping : Toolbox Unit where
  run call state store :=
    match store.write (call.directory.child "shader.spv") [112] with
    | .ok written => (.ok { exitedCleanly := true, produced := call.output }, state, written)
    | .error _ => (.ok { exitedCleanly := false }, state, store)

theorem stamping_confined : Toolbox.stamping.Confined := by
  intro call state store place located
  have named : Path.IsName "shader.spv".toList := ⟨by decide, by decide, by decide, by decide⟩
  simp only [Toolbox.stamping]
  cases wrote : store.write (call.directory.child "shader.spv") [112] with
  | ok written => exact FileStore.write_altersOnlyBelow named located wrote
  | error failure => exact ⟨rfl, rfl, fun _other _outside => rfl⟩

namespace Cli

/-- A rebuild writes its artifact, a command with an unknown target keeps it, and a command whose header
quotes the byte 0xFF of a file name empties the file. -/
theorem output_keeps_last_artifact_of_torn :
    let store := (FileStore.furnished.install (Path.ofText "/a.slang".toList) [112] false).install
      (Path.ofText "/\x01.glsl".toList) [112] false
    let first : World Unit := { store := store, tools := () }
    let output := Path.ofText "/a.spv".toList
    let watch : Watch := ⟨⟨"/a.slang".toList, .slang, .spirv, .materialLibrary, false⟩, some output⟩
    let surroundings : Surroundings :=
      { environment := [], now := ⟨2024, 1, 2, 3, 4, 5⟩, strays := [('\x01', 0xFF)] }
    let rebuild : Operation Unit := .rebuild .stamping {} watch
    let refused : Operation Unit := .command .stamping surroundings
      ["compile".toList, "/a.slang".toList, "/a.spv".toList, "--target".toList, "c".toList]
    let tearing : Operation Unit := .command .stamping surroundings
      ["compile".toList, "/\x01.glsl".toList, "/a.spv".toList, "--format".toList,
        "commented".toList]
    let middle := rebuild.run first
    let last := refused.run middle
    let place : Place := ["a.spv".toList]
    first.store.contentAt? place = none ∧
      ∃ content, rebuild.Makes first content ∧ ¬ refused.Reports middle ∧
        History place first (some content) last ∧ last.store.contentAt? place = some content ∧
        tearing.Tears last ∧ ¬ tearing.Reports last ∧
        (tearing.run last).store.contentAt? place = some [] := by
  intro store first output watch surroundings rebuild refused tearing middle last place
  have offers : first.store.Offers place :=
    ⟨FileStore.isTree_of_entries (by decide +kernel), rfl, by decide +kernel, by decide +kernel⟩
  have held : textAt watch.job.file first.store = .ok (some ['p']) := by decide +kernel
  have succeeds : (compile .stamping {} (watch.job.request ['p']) first).1.map (·.succeeded) =
      .ok true := by decide +kernel
  obtain ⟨result, returned, succeeded⟩ := Attempt.map_eq_ok_iff.mp succeeds
  have made : result.artifact? ≠ none := by
    intro missing
    rw [CompilationResult.artifact?_eq_none_iff.mp missing] at succeeded
    cases succeeded
  obtain ⟨artifact, made⟩ := Option.ne_none_iff_exists'.mp made
  obtain ⟨content, bytes⟩ := compile_artifact_bytes returned made
  have makes : rebuild.Makes first content := .rebuild ⟨['p'], held, returned, rfl⟩ made bytes
  have located : first.store.locate output = .ok place := by decide +kernel
  have fits : rebuild.Fits place first := ⟨stamping_confined, nofun, output, rfl, located⟩
  -- the first command is read, but commissions nothing
  let options : JobOptions :=
    ⟨"/a.slang".toList, some output, "c".toList, [], "materialLibrary".toList, false⟩
  have parsed : Invocation.ofArguments
      ["compile".toList, "/a.slang".toList, "/a.spv".toList, "--target".toList, "c".toList] =
      .ok (.run false (.compile options "plain".toList)) := by decide +kernel
  have unknown : options.commission? "plain".toList = none := by decide +kernel
  have locatedStill : middle.store.locate output = .ok place :=
    (Operation.yields_of_makes offers fits makes).1.locate located
  have refusedFits : refused.Fits place middle := by
    refine ⟨stamping_confined, ?_⟩
    intro verbose other read
    rw [parsed] at read
    cases read
    exact ⟨options, _, output, rfl, rfl, locatedStill⟩
  obtain ⟨fails, whole⟩ :=
    Operation.idle_of_unknown .stamping surroundings middle parsed unknown
  have history : History place first (some content) last :=
    .failed (.succeeded (.start offers) fits makes) refusedFits fails whole
  have clear : options.Clear := by
    intro path somewhere
    cases somewhere
    decide +kernel
  have failed : ¬ refused.Reports middle := by
    obtain ⟨shown, ran⟩ := run_compile .stamping surroundings middle parsed
    obtain ⟨ended, _kept⟩ := (JobOptions.Commanded.unknown clear unknown).ends
    change ¬ (Cli.run .stamping surroundings _ middle).1.status = 0
    rw [ran, ended]
    exact nofun
  -- the second one compiles a file whose name holds a stray byte
  let spoiled : JobOptions :=
    ⟨"/\x01.glsl".toList, some output, "glsl".toList, [], "materialLibrary".toList, false⟩
  let commission : Commission :=
    ⟨⟨"/\x01.glsl".toList, .glsl, .glsl, .materialLibrary, false⟩, some output, .commented⟩
  have read : Invocation.ofArguments
      ["compile".toList, "/\x01.glsl".toList, "/a.spv".toList, "--format".toList,
        "commented".toList] =
      .ok (.run false (.compile spoiled "commented".toList)) := by decide +kernel
  have tearingFits : tearing.Fits place last := by
    refine ⟨stamping_confined, ?_⟩
    intro verbose other same
    rw [read] at same
    cases same
    exact ⟨spoiled, _, output, rfl, rfl,
      (Operation.yields_of_not_makes (History.offers (.succeeded (.start offers) fits makes))
        refusedFits fails whole).locate locatedStill⟩
  have commissions : spoiled.Commissions surroundings "commented".toList commission {} :=
    ⟨clear, by decide +kernel, by decide +kernel⟩
  obtain ⟨heldStill, succeedsStill⟩ :
      textAt commission.watch.job.file last.store = .ok (some ['p']) ∧
        (compile .stamping {} (commission.watch.job.request ['p']) last).1.map (·.artifact?) =
          .ok (some (.source (commission.watch.job.request ['p']).module.text)) := by
    decide +kernel
  obtain ⟨result, returned, made⟩ := Attempt.map_eq_ok_iff.mp succeedsStill
  have tears : tearing.Tears last :=
    .command read commissions ⟨['p'], heldStill, returned, rfl⟩ made
      ⟨⟨_, rfl⟩, rfl, '\x01', by decide +kernel, rfl⟩
  obtain ⟨kept, torn⟩ := output_keeps_last_artifact history
  obtain ⟨_kept, torn⟩ := torn tearing tearingFits
  exact ⟨by decide +kernel, content, makes, failed, history, kept, tears, torn tears⟩

end Cli
end ShaderBridge
