import ShaderBridge.Proofs.Pipeline.Recording
import ShaderBridge.Proofs.Storage.Workspace
import ShaderBridge.Proofs.Toolchain.Plan
set_option autoImplicit false

/-! What a compilation leaves behind. While it runs, the store is the one from before with one more
directory, in which anything may stand; at its end that directory is gone. Nothing is promised about
tools that reach out of the directory in which they are called. -/

namespace ShaderBridge

variable {σ : Type}

namespace FileStore

/-- The same entries, seen from the same directories. -/
structure Same (before after : FileStore) : Prop where
  stays : after.workingDirectory = before.workingDirectory
  scratch : after.temporary = before.temporary
  entries : ∀ place, after.entryAt? place = before.entryAt? place

theorem Same.refl (store : FileStore) : Same store store := ⟨rfl, rfl, fun _place => rfl⟩

theorem Same.trans {first second third : FileStore} (former : Same first second)
    (latter : Same second third) : Same first third := by
  refine ⟨latter.stays.trans former.stays, latter.scratch.trans former.scratch, ?_⟩
  intro place
  exact (latter.entries place).trans (former.entries place)

theorem Same.isTree {before after : FileStore} (same : Same before after)
    (tree : before.IsTree) : after.IsTree := by
  intro place part filled
  rw [same.entries] at filled ⊢
  exact tree place part filled

structure AltersOnlyBelow (place : Place) (before after : FileStore) : Prop where
  stays : after.workingDirectory = before.workingDirectory
  scratch : after.temporary = before.temporary
  outside : ∀ other, ¬ (place <+: other ∧ place ≠ other) →
    after.entryAt? other = before.entryAt? other

/-- Writing a file in a directory alters nothing but what is below the directory. -/
theorem write_altersOnlyBelow {store after : FileStore} {directory : Path} {name : Text}
    {content : Bytes} {place : Place} (named : Path.IsName name)
    (located : store.locate directory = .ok place)
    (wrote : store.write (directory.child name) content = .ok after) :
    AltersOnlyBelow place store after := by
  obtain ⟨inside, executable, found, _free, rfl⟩ := write_eq_ok wrote
  have below := locate_child named located found
  have inner : inside ≠ [] := by
    rw [below]
    exact List.append_ne_nil_of_right_ne_nil place (List.cons_ne_nil name [])
  refine ⟨rfl, rfl, ?_⟩
  intro other outside
  rw [entryAt?_put _ inner]
  refine if_neg ?_
  rintro rfl
  apply outside
  rw [below]
  exact ⟨List.prefix_append place [name], by simp⟩

/-- A directory was made at a place at which there was nothing, and only what is below it has
changed since. -/
structure Lent (before : FileStore) (directory : Path) (place : Place) (now : FileStore) :
    Prop where
  vacant : before.entryAt? place = none
  located : before.locate directory = .ok place
  stays : now.workingDirectory = before.workingDirectory
  scratch : now.temporary = before.temporary
  stands : now.entryAt? place = some .directory
  outside : ∀ other, ¬ place <+: other → now.entryAt? other = before.entryAt? other

section
variable {before now after : FileStore} {parent directory : Path} {place : Place}

theorem Lent.of_made (made : Workspace.Made parent before directory now place)
    (read : parent.IsRead) : Lent before directory place now := by
  have inner := ne_nil_of_vacant made.vacant
  have entries := entryAt?_put before inner .directory
  obtain ⟨_clear, vacant, rfl, located⟩ := made
  refine ⟨vacant, located read, rfl, rfl, ?_, ?_⟩
  · rw [entries, if_pos rfl]
  · intro other outside
    rw [entries]
    refine if_neg ?_
    rintro rfl
    exact outside (List.prefix_refl other)

theorem Lent.altered (lent : Lent before directory place now)
    (altered : AltersOnlyBelow place now after) : Lent before directory place after := by
  refine ⟨lent.vacant, lent.located, altered.stays.trans lent.stays,
    altered.scratch.trans lent.scratch, ?_, ?_⟩
  · rw [altered.outside place fun strictly => strictly.2 rfl]
    exact lent.stands
  · intro other outside
    rw [altered.outside other fun strictly => outside strictly.1]
    exact lent.outside other outside

theorem Lent.located_now (tree : before.IsTree) (lent : Lent before directory place now) :
    now.locate directory = .ok place := by
  refine locate_kept lent.stays ?_ lent.located
  intro other stands
  -- nothing stood at the place or below it, so no directory on the way is lost
  have outside : ¬ place <+: other := by
    intro below
    rw [tree.vacant_below lent.vacant below] at stands
    cases stands
  rw [lent.outside other outside]
  exact stands

theorem Lent.removed (tree : before.IsTree) (lent : Lent before directory place now) :
    ∃ after, now.removeTree directory = .ok after ∧ Same before after := by
  have inner := ne_nil_of_vacant lent.vacant
  refine ⟨now.without place, removeTree_eq_ok (lent.located_now tree) lent.stands,
    lent.stays, lent.scratch, ?_⟩
  intro other
  rw [entryAt?_without now inner]
  by_cases below : place <+: other
  · rw [if_pos below, tree.vacant_below lent.vacant below]
  · rw [if_neg below]
    exact lent.outside other below

end
end FileStore

/-- The tools touch only what is in the directory in which they are called. -/
def Toolbox.Confined (toolbox : Toolbox σ) : Prop :=
  ∀ (call : ToolCall) (state : σ) (store : FileStore) (place : Place),
    store.locate call.directory = .ok place →
      store.AltersOnlyBelow place (toolbox.run call state store).2.2

def Phase.Tidy (start : FileStore) : Phase → FileStore → Prop
  | .requested, now => now = start
  | .opened workspace, now | .running workspace _ _, now | .closing workspace _, now =>
      ∃ directory place, workspace.directory = some directory ∧
        start.Lent directory place now
  | .ended _, now => start.Same now

theorem Phase.Tidy.move {toolbox : Toolbox σ} {config : ToolchainConfig}
    {request : CompilationRequest} {start : FileStore} {phase next : Phase}
    {world after : World σ} (confined : toolbox.Confined) (tree : start.IsTree)
    (read : (config.workspaceRoot.getD start.temporary).IsRead)
    (tidy : phase.Tidy start world.store)
    (move : Phase.Move toolbox config request phase world next after) :
    next.Tidy start after.store := by
  cases move with
  | rejected disabled =>
      rw [show world.store = start from tidy]
      exact .refl start
  | unopened enabled failed =>
      rw [show world.store = start from tidy]
      exact .refl start
  | opened enabled made =>
      rw [show world.store = start from tidy] at made
      obtain ⟨place, new⟩ := Workspace.create_eq_ok made
      exact ⟨_, place, rfl, .of_made new read⟩
  | written _ wrote | torn _ wrote =>
      obtain ⟨directory, place, same, lent⟩ := tidy
      cases same
      have named := isName_sourceFile request.language
      have altered := FileStore.write_altersOnlyBelow named (lent.located_now tree) wrote
      exact ⟨_, place, rfl, lent.altered altered⟩
  | unwritten failed => exact tidy
  | @ran _ _ root _ plan pending warnings call outcome tools store planned answered =>
      obtain ⟨directory, place, same, lent⟩ := tidy
      cases same
      have located : world.store.locate call.directory = .ok place := by
        rw [planned]
        exact lent.located_now tree
      have altered := confined call world.tools world.store place located
      rw [answered] at altered
      have kept := lent.altered altered
      cases judged : outcome.bind (request.verdict plan call.timeout) with
      | error fault => exact ⟨_, place, rfl, kept⟩
      | ok verdict =>
          cases verdict with
          | stopped delivery => exact ⟨_, place, rfl, kept⟩
          | passed more => exact ⟨_, place, rfl, kept⟩
  | read => exact tidy
  | removed gone =>
      obtain ⟨directory, place, same, lent⟩ := tidy
      cases same
      obtain ⟨left, removed, restored⟩ := lent.removed tree
      rw [gone] at removed
      cases removed
      exact restored
  | unremoved failed =>
      -- confined tools leave the directory where it is, so its removal cannot fail
      obtain ⟨directory, place, same, lent⟩ := tidy
      cases same
      obtain ⟨left, removed, _restored⟩ := lent.removed tree
      rw [failed] at removed
      cases removed

theorem compile_same {toolbox : Toolbox σ} {config : ToolchainConfig} {world : World σ}
    (confined : toolbox.Confined) (tree : world.store.IsTree)
    (read : (config.workspaceRoot.getD world.store.temporary).IsRead)
    (request : CompilationRequest) :
    world.store.Same (compile toolbox config request world).2.store := by
  have reached := Phase.reaches_settle toolbox config request .requested world
  have active : Phase.requested.Active := trivial
  have start : Phase.requested.Tidy world.store world.store := rfl
  exact Phase.reaches_induction toolbox config request
    (fun phase here => phase.Tidy world.store here.store)
    (fun tidy move => tidy.move confined tree read move) active start reached

/-- When the directory cannot be removed, the fault that is under way comes out, and one about the
directory only if there is none. -/
theorem compile_of_unremoved {toolbox : Toolbox σ} {config : ToolchainConfig}
    {request : CompilationRequest} {world here : World σ} {root : Option Path}
    {directory : Path} {delivery : Delivery} {failure : StorageFailure}
    (reached : Phase.Reaches toolbox config request (.requested, world)
      (.closing ⟨root, some directory⟩ delivery, here))
    (failed : here.store.removeTree directory = .error failure) :
    (compile toolbox config request world).1 = delivery.leftBehind directory failure := by
  have same := Phase.settle_eq_of_reaches toolbox config request reached
  have active : (Phase.closing ⟨root, some directory⟩ delivery).Active := ⟨directory, rfl⟩
  have move := Phase.step_move toolbox config request here active rfl
  change (Phase.requested.settle toolbox config request world).1 = _
  rw [same, Phase.settle_unfinished toolbox config request rfl]
  generalize Phase.step toolbox config request here _ = next at move
  obtain ⟨phase, after⟩ := next
  cases move with
  | removed gone =>
      rw [failed] at gone
      cases gone
  | unremoved other =>
      rw [failed] at other
      cases other
      rw [Phase.settle_ended]

/-- The worlds after each of several compilations. -/
def worldsAfter (toolbox : Toolbox σ) (config : ToolchainConfig) :
    List CompilationRequest → World σ → List (World σ)
  | [], _ => []
  | request :: requests, world =>
      let after := (compile toolbox config request world).2
      after :: worldsAfter toolbox config requests after

theorem worldsAfter_same {toolbox : Toolbox σ} {config : ToolchainConfig} {world after : World σ}
    (confined : toolbox.Confined) (tree : world.store.IsTree)
    (read : (config.workspaceRoot.getD world.store.temporary).IsRead)
    {requests : List CompilationRequest}
    (member : after ∈ worldsAfter toolbox config requests world) :
    world.store.Same after.store := by
  induction requests generalizing world with
  | nil => cases member
  | cons request requests ih =>
      have first := compile_same confined tree read request
      rcases List.mem_cons.mp member with rfl | later
      · exact first
      · refine first.trans (ih (first.isTree tree) ?_ later)
        rw [first.scratch]
        exact read

/-- No compilation leaves a trace in the store, whatever confined tools do and however it ends. For
any tools, a directory that cannot be removed never takes the place of a fault under way. -/
theorem compile_leaves_no_trace (toolbox : Toolbox σ) (config : ToolchainConfig)
    (world : World σ) :
    (toolbox.Confined → world.store.IsTree →
      (config.workspaceRoot.getD world.store.temporary).IsRead →
        ∀ requests, ∀ after ∈ worldsAfter toolbox config requests world,
          world.store.Same after.store) ∧
    ∀ request root directory delivery here failure,
      Phase.Reaches toolbox config request (.requested, world)
        (.closing ⟨root, some directory⟩ delivery, here) →
      here.store.removeTree directory = .error failure →
        (∀ fault, delivery = .fault fault →
          (compile toolbox config request world).1 = .error fault) ∧
        (delivery.isFault = false → (compile toolbox config request world).1 =
          .error (.workspace (.notRemoved ⟨failure, directory.toText⟩) (some directory))) := by
  refine ⟨?_, ?_⟩
  · intro confined tree read requests after member
    exact worldsAfter_same confined tree read member
  · intro request root directory delivery here failure reached failed
    rw [compile_of_unremoved reached failed]
    constructor
    · rintro fault rfl
      rfl
    · intro quiet
      cases delivery with
      | fault fault => cases quiet
      | result result => rfl
      | text artifact warnings => rfl

/-- Tools that leave a file in the directory in which they are called and then cannot be run. -/
def Toolbox.littering : Toolbox Unit where
  run call state store :=
    let left := match store.write (call.directory.child "litter") [1] with
      | .ok written => written
      | .error _ => store
    (.error (.toolUnavailable "slang" call.executable "it broke"), state, left)

theorem littering_confined : Toolbox.littering.Confined := by
  intro call state store place located
  have named : Path.IsName "litter".toList := ⟨by decide, by decide, by decide, by decide⟩
  change store.AltersOnlyBelow place
    (match store.write (call.directory.child "litter") [1] with
      | .ok written => written
      | .error _ => store)
  cases wrote : store.write (call.directory.child "litter") [1] with
  | ok written => exact FileStore.write_altersOnlyBelow named located wrote
  | error failure => exact ⟨rfl, rfl, fun _other _outside => rfl⟩

/-- Tools that take away the directory in which they are called. -/
def Toolbox.vanishing (outcome : Except Fault ToolRun) : Toolbox Unit where
  run call state store :=
    let left := match store.removeTree call.directory with
      | .ok left => left
      | .error _ => store
    (outcome, state, left)

/-- The workspace that is to be removed, and what comes out when it is. -/
def Phase.closing? : Phase → Option (Workspace × Delivery)
  | .closing workspace delivery => some (workspace, delivery)
  | _ => none

theorem Phase.reaches_closing {toolbox : Toolbox σ} {config : ToolchainConfig}
    {request : CompilationRequest} {start first second third : Phase × World σ}
    {workspace : Workspace} {delivery : Delivery}
    (opens : Next toolbox config request start first)
    (writes : Next toolbox config request first second)
    (runs : Next toolbox config request second third)
    (closing : third.1.closing? = some (workspace, delivery)) :
    Reaches toolbox config request start (.closing workspace delivery, third.2) := by
  obtain ⟨phase, after⟩ := third
  cases phase with
  | closing =>
      cases closing
      exact .head opens (.head writes (.single runs))
  | requested | opened | running | ended => cases closing

/-- Two compilations that both end in a fault while there is litter in their workspaces, and one
whose workspace is gone when its tool cannot be run. -/
theorem compile_leaves_no_trace_of_litter :
    let config : ToolchainConfig := { workspaceRoot := some ⟨.root, ["tmp".toList]⟩ }
    let request : CompilationRequest := { source := "x" }
    let world : World Unit := { store := .furnished, tools := () }
    let worlds := worldsAfter .littering config [request, request] world
    let stuck : Fault := .toolUnavailable "slang" "slangc" "it broke"
    let directory : Path := ⟨.root, ["tmp".toList, "shadercross-00000000".toList]⟩
    Toolbox.littering.Confined ∧ world.store.IsTree ∧
      (config.workspaceRoot.getD world.store.temporary).IsRead ∧
      worlds.map (fun after => after.calls.length) = [1, 2] ∧
      (∀ after ∈ worlds, world.store.Same after.store) ∧
      ∃ here, Phase.Reaches (.vanishing (.error stuck)) config request (.requested, world)
          (.closing ⟨config.workspaceRoot, some directory⟩ (.fault stuck), here) ∧
        here.store.removeTree directory = .error .missing ∧
        (compile (.vanishing (.error stuck)) config request world).1 = .error stuck := by
  intro config request world worlds stuck directory
  have tree : world.store.IsTree := FileStore.isTree_of_entries (by decide)
  have read : (config.workspaceRoot.getD world.store.temporary).IsRead := rfl
  have kept := (compile_leaves_no_trace .littering config world).1 littering_confined tree read
  let first := Phase.requested.step (.vanishing (.error stuck)) config request world
  let second := first.1.step (.vanishing (.error stuck)) config request first.2
  let third := second.1.step (.vanishing (.error stuck)) config request second.2
  obtain ⟨opened, written, closing, failed⟩ : first.1.outcome? = none ∧ second.1.outcome? = none ∧
      third.1.closing? = some (⟨config.workspaceRoot, some directory⟩, .fault stuck) ∧
      third.2.store.removeTree directory = .error .missing := by
    decide +kernel
  have reached : Phase.Reaches (.vanishing (.error stuck)) config request (.requested, world)
      (.closing ⟨config.workspaceRoot, some directory⟩ (.fault stuck), third.2) :=
    Phase.reaches_closing ⟨rfl, rfl⟩ ⟨opened, rfl⟩ ⟨written, rfl⟩ closing
  have propagates :=
    ((compile_leaves_no_trace (.vanishing (.error stuck)) config world).2 request _ _ _ third.2 _
      reached failed).1 stuck rfl
  exact ⟨littering_confined, tree, read, by decide +kernel, kept [request, request], third.2,
    reached, failed, propagates⟩

example :
    let directory : Path := ⟨.root, ["tmp".toList, "shadercross-00000000".toList]⟩
    let world : World Unit := { store := .furnished, tools := () }
    (compile (.vanishing (.ok { exitedCleanly := false })) {} { source := "x" } world).1 =
      .error (.workspace (.notRemoved ⟨.missing, directory.toText⟩) (some directory)) := by
  decide +kernel

end ShaderBridge
