import ShaderBridge.Proofs.Pipeline.Alike
import ShaderBridge.Proofs.Storage.Shared
import ShaderBridge.Proofs.Toolchain.Launch
set_option autoImplicit false

/-! Compilations side by side. Several callers compile with the same tools in the same world, and
their steps are taken in any order. Each run has a counterpart that runs alone from the world in
which all of them began; the two stay alike (`Standing.turn`), because no step reaches out of its
own workspace. -/

namespace ShaderBridge

open Workspace (Shares Touched Vacant numbered numberedPlace)

variable {ι σ : Type}

/-- How far each of several callers has come with its compilation, and the world they share. -/
structure Together (ι σ : Type) where
  phases : ι → Phase
  world : World σ

namespace Together

def begun (world : World σ) : Together ι σ := ⟨fun _caller => .requested, world⟩

section
variable [DecidableEq ι] (toolbox : Toolbox σ) (config : ToolchainConfig)
variable (requests : ι → CompilationRequest)

/-- One caller takes a step of its compilation. -/
def turn (state : Together ι σ) (caller : ι) : Together ι σ :=
  let next := (state.phases caller).step toolbox config (requests caller) state.world
  { phases := Function.update state.phases caller next.1, world := next.2 }

/-- The callers take their steps in the order of a schedule. -/
def run (world : World σ) (schedule : List ι) : Together ι σ :=
  schedule.foldl (turn toolbox config requests) (begun world)

end

/-- What the compilation of a request has come to, with a workspace of the number that is given,
beside a run of the same request that has the world `start` to itself. -/
inductive Counterpart (toolbox : Toolbox σ) (config : ToolchainConfig)
    (request : CompilationRequest) (start : World σ) (parent : Path) (home : Place) :
    Option Nat → Phase → FileStore → Prop where
  | requested {now : FileStore} :
      Counterpart toolbox config request start parent home none .requested now
  | working {number mirror : Nat} {phase twin : Phase} {now : FileStore} {there : World σ}
      (vacant : Vacant start.store parent home mirror)
      (reached : Phase.Reaches toolbox config request (.requested, start) (twin, there))
      (alike : phase.Alike request (numbered parent number) (numbered parent mirror) twin)
      (same : now.SameBelow (numberedPlace home number) there.store
        (numberedPlace home mirror)) :
      Counterpart toolbox config request start parent home (some number) phase now
  | ended {outcome : Except Fault CompilationResult} {now : FileStore}
      (alike : Attempt.Alike outcome (compile toolbox config request start).1) :
      Counterpart toolbox config request start parent home none (.ended outcome) now

section
variable {toolbox : Toolbox σ} {config : ToolchainConfig} {request : CompilationRequest}
variable {start : World σ} {parent : Path} {home : Place} {number : Nat}

theorem Counterpart.untouched {taken : Option Nat} {phase : Phase} {now after : FileStore}
    (counterpart : Counterpart toolbox config request start parent home taken phase now)
    (apart : taken ≠ some number) (touched : Touched (numberedPlace home number) now after) :
    Counterpart toolbox config request start parent home taken phase after := by
  cases counterpart with
  | requested => exact .requested
  | working vacant reached alike same =>
      have other : number ≠ _ := fun equal => apart (congrArg some equal.symm)
      exact .working vacant reached alike (touched.sameBelow other same)
  | ended alike => exact .ended alike

theorem compile_of_reached {outcome : Except Fault CompilationResult} {after : World σ}
    (reached : Phase.Reaches toolbox config request (.requested, start) (.ended outcome, after)) :
    (compile toolbox config request start).1 = outcome := by
  unfold compile
  rw [Phase.settle_eq_of_reaches toolbox config request reached, Phase.settle_ended]

/-- A run that is alone finds its workspace again. -/
theorem firm_alone (confined : toolbox.Confined) (tree : start.store.IsTree)
    (read : (config.workspaceRoot.getD start.store.temporary).IsRead) {directory : Path}
    {phase twin : Phase} {there : World σ} (vacant : Vacant start.store parent home number)
    (reached : Phase.Reaches toolbox config request (.requested, start) (twin, there))
    (alike : phase.Alike request directory (numbered parent number) twin) :
    there.store.Firm (numbered parent number) (numberedPlace home number) := by
  have active : Phase.requested.Active := trivial
  have begins : Phase.requested.Tidy start.store start.store := rfl
  have tidy := Phase.reaches_induction toolbox config request
    (fun phase here => phase.Tidy start.store here.store)
    (fun tidy move => tidy.move confined tree read move) active begins reached
  have lent : ∃ place, start.store.Lent (numbered parent number) place there.store := by
    cases alike with
    | opened | running | closing =>
        obtain ⟨_, place, same, lent⟩ := tidy
        cases same
        exact ⟨place, lent⟩
  obtain ⟨place, lent⟩ := lent
  have found := lent.located
  rw [vacant.located] at found
  cases found
  exact fun after altered => (lent.altered altered).located_now tree

end

section
variable [DecidableEq ι] {start now after : FileStore} {parent : Path} {home : Place}
variable {held : ι → Option Nat} {caller : ι} {number : Nat}

/-- What a caller does in its workspace is done to nothing else. -/
theorem shares_of_altered (tree : start.IsTree) (shares : Shares start parent home held now)
    (holds : held caller = some number)
    (altered : now.AltersOnlyBelow (numberedPlace home number) after) :
    Touched (numberedPlace home number) now after ∧ Shares start parent home held after := by
  have touched : Touched (numberedPlace home number) now after :=
    ⟨altered.stays, altered.scratch, fun other outside =>
      altered.outside other fun strictly => outside strictly.1⟩
  have stands : after.entryAt? (numberedPlace home number) = some .directory := by
    rw [altered.outside _ fun strictly => strictly.2 rfl]
    exact shares.stands holds
  have same : Function.update held caller (some number) = held := by
    rw [← holds, Function.update_eq_self]
  have changed :=
    shares.changed tree (shares.vacant holds) (.inl holds) touched (.inl ⟨rfl, stands⟩)
  rw [same] at changed
  exact ⟨touched, changed⟩

/-- A caller that has removed its workspace holds none. -/
theorem shares_of_removed (tree : start.IsTree) (shares : Shares start parent home held now)
    (holds : held caller = some number)
    (removed : after = now.without (numberedPlace home number)) :
    Touched (numberedPlace home number) now after ∧
      Shares start parent home (Function.update held caller none) after := by
  subst removed
  have entries := FileStore.entryAt?_without now (Workspace.numberedPlace_ne_nil home number)
  have touched : Touched (numberedPlace home number) now
      (now.without (numberedPlace home number)) := by
    refine ⟨rfl, rfl, ?_⟩
    intro other outside
    rw [entries, if_neg outside]
  have emptied : ∀ place, numberedPlace home number <+: place →
      (now.without (numberedPlace home number)).entryAt? place = none := by
    intro place below
    rw [entries, if_pos below]
  exact ⟨touched,
    shares.changed tree (shares.vacant holds) (.inl holds) touched (.inr ⟨rfl, emptied⟩)⟩

end

section
variable {toolbox : Toolbox σ} {config : ToolchainConfig}
variable {requests : ι → CompilationRequest} {start : World σ} {parent : Path} {home : Place}

/-- Where compilations that began together in the world `start` stand: each is beside its
counterpart, and the store is the one from before but for their workspaces. -/
def Standing (toolbox : Toolbox σ) (config : ToolchainConfig) (requests : ι → CompilationRequest)
    (start : World σ) (parent : Path) (home : Place) (state : Together ι σ) : Prop :=
  ∃ held : ι → Option Nat, Shares start.store parent home held state.world.store ∧
    ∀ caller, Counterpart toolbox config (requests caller) start parent home (held caller)
      (state.phases caller) state.world.store

theorem Standing.begun (toolbox : Toolbox σ) (config : ToolchainConfig)
    (requests : ι → CompilationRequest) (start : World σ) (parent : Path) (home : Place) :
    Standing toolbox config requests start parent home (Together.begun start) :=
  ⟨fun _caller => none, .initial start.store parent home, fun _caller => .requested⟩

/-- A caller goes on, and the others stay where they are. -/
theorem Standing.of_turn [DecidableEq ι] {phases : ι → Phase} {caller : ι} {next : Phase}
    {after : World σ} (held : ι → Option Nat) (taken : Option Nat)
    (shares : Shares start.store parent home (Function.update held caller taken) after.store)
    (mine : Counterpart toolbox config (requests caller) start parent home taken next after.store)
    (others : ∀ other, other ≠ caller → Counterpart toolbox config (requests other) start parent
      home (held other) (phases other) after.store) :
    Standing toolbox config requests start parent home
      ⟨Function.update phases caller next, after⟩ := by
  refine ⟨_, shares, ?_⟩
  intro other
  change Counterpart toolbox config (requests other) start parent home
    (Function.update held caller taken other) (Function.update phases caller next other)
    after.store
  by_cases same : other = caller
  · subst same
    rw [Function.update_self, Function.update_self]
    exact mine
  · rw [Function.update_of_ne same, Function.update_of_ne same]
    exact others other same

/-- A caller has made a workspace, as it has when it is alone. -/
theorem Standing.opened [DecidableEq ι] {held : ι → Option Nat} {phases : ι → Phase}
    {now : World σ} {caller : ι} {number mirror : Nat} {journal beside : List LogLine}
    (tree : start.store.IsTree) (shares : Shares start.store parent home held now.store)
    (vacant : Vacant start.store parent home number)
    (vacantToo : Vacant start.store parent home mirror)
    (free : now.store.entryAt? (numberedPlace home number) = none) (idle : held caller = none)
    (counterparts : ∀ caller, Counterpart toolbox config (requests caller) start parent home
      (held caller) (phases caller) now.store)
    (reached : Phase.Reaches toolbox config (requests caller) (.requested, start)
      (.opened ⟨config.workspaceRoot, some (numbered parent mirror)⟩,
        { start with
          store := start.store.put (numberedPlace home mirror) .directory
          journal := beside })) :
    Standing toolbox config requests start parent home
      ⟨Function.update phases caller
          (.opened ⟨config.workspaceRoot, some (numbered parent number)⟩),
        { now with
          store := now.store.put (numberedPlace home number) .directory
          journal := journal }⟩ := by
  have entries := FileStore.entryAt?_put now.store (Workspace.numberedPlace_ne_nil home number)
    .directory
  have entriesToo := FileStore.entryAt?_put start.store
    (Workspace.numberedPlace_ne_nil home mirror) .directory
  have touched : Touched (numberedPlace home number) now.store
      (now.store.put (numberedPlace home number) .directory) := by
    refine ⟨rfl, rfl, ?_⟩
    intro other apart
    rw [entries, if_neg]
    rintro rfl
    exact apart (List.prefix_refl _)
  have unheld : ∀ other, held other ≠ some number := by
    intro other holds
    rw [shares.stands holds] at free
    cases free
  refine .of_turn held (some number) ?_ ?_ ?_
  · refine shares.changed tree vacant (.inr ⟨idle, unheld⟩) touched (.inl ⟨rfl, ?_⟩)
    rw [entries, if_pos rfl]
  · refine .working vacantToo reached (.opened _) ?_
    -- two new directories, with nothing below either of them
    intro rest
    change (now.store.put _ _).entryAt? _ = (start.store.put _ _).entryAt? _
    rw [entries, entriesToo, (shares.vacant_below tree free (List.prefix_append _ rest)).1,
      tree.vacant_below vacantToo.free (List.prefix_append _ rest)]
    simp
  · exact fun other _apart => (counterparts other).untouched (unheld other) touched

section
variable [DecidableEq ι] [Fintype ι] (tree : start.store.IsTree)
variable (rooted : config.workspaceRoot.getD start.store.temporary = parent)
variable (read : parent.IsRead)
variable (homed : ∀ place, start.store.locate parent = .ok place → place = home)
variable (room : start.store.locate parent = .ok home →
  (start.store.namesAt home).length + Fintype.card ι ≤ 10 ^ 8)
include tree rooted read homed room

/-- The turn of a caller that has not begun. -/
theorem Standing.opening {state : Together ι σ} {held : ι → Option Nat} {caller : ι}
    (shares : Shares start.store parent home held state.world.store)
    (counterparts : ∀ caller, Counterpart toolbox config (requests caller) start parent home
      (held caller) (state.phases caller) state.world.store)
    (idle : held caller = none) (waiting : state.phases caller = .requested) :
    Standing toolbox config requests start parent home
      (state.turn toolbox config requests caller) := by
  have same : Function.update held caller none = held := by
    rw [← idle, Function.update_eq_self]
  -- the caller is at its end, and the others have what they had
  have closed : ∀ {outcome : Except Fault CompilationResult} {after : World σ},
      after.store = state.world.store →
      Attempt.Alike outcome (compile toolbox config (requests caller) start).1 →
      Standing toolbox config requests start parent home
        ⟨Function.update state.phases caller (.ended outcome), after⟩ := by
    intro outcome after still alike
    refine .of_turn held none ?_ (.ended alike) fun other _apart => ?_
    · rw [same, still]
      exact shares
    · rw [still]
      exact counterparts other
  obtain ⟨journal, here⟩ := Phase.step_requested toolbox config (requests caller) state.world
  obtain ⟨journalToo, there⟩ := Phase.step_requested toolbox config (requests caller) start
  rw [shares.scratch, rooted] at here
  rw [rooted] at there
  unfold turn
  rw [waiting, here]
  cases enabled : config.enabledTargets.contains (requests caller).target with
  | false =>
      simp only [enabled, Bool.false_eq_true, if_false] at there ⊢
      refine closed rfl ?_
      rw [compile_of_reached (.single ⟨rfl, there⟩)]
      exact .refl _
  | true =>
      simp only [enabled, if_true] at there ⊢
      rcases shares.create_alike tree read idle homed room with
        ⟨cause, other, failed, failedToo, level⟩ |
          ⟨number, mirror, vacant, vacantToo, free, made, madeToo⟩
      · rw [failed]
        rw [failedToo] at there
        refine closed rfl ?_
        rw [compile_of_reached (.single ⟨rfl, there⟩)]
        exact .faults (Workspace.creationFault_placeless _ level)
      · rw [made]
        rw [madeToo] at there
        exact .opened tree shares vacant vacantToo free idle counterparts (.single ⟨rfl, there⟩)

/-- Every turn keeps all runs beside their counterparts. -/
theorem Standing.turn (homely : toolbox.Local) {state : Together ι σ} (caller : ι)
    (standing : Standing toolbox config requests start parent home state) :
    Standing toolbox config requests start parent home
      (state.turn toolbox config requests caller) := by
  obtain ⟨held, shares, counterparts⟩ := standing
  have mine := counterparts caller
  generalize holds : held caller = taken at mine
  generalize stage : state.phases caller = phase at mine
  cases mine with
  | requested => exact .opening tree rooted read homed room shares counterparts holds stage
  | ended alike =>
      have still : state.turn toolbox config requests caller = state := by
        unfold Together.turn
        rw [stage]
        simp only [Phase.step]
        rw [← stage, Function.update_eq_self]
      rw [still]
      exact ⟨held, shares, counterparts⟩
  | @working number mirror _ twin _ there vacantToo reached alike same =>
      have vacant := shares.vacant holds
      have firm : state.world.store.Firm (numbered parent number) (numberedPlace home number) :=
        fun after altered =>
          (shares_of_altered tree shares holds altered).2.located tree holds
      have firmToo := firm_alone homely.confined tree (rooted ▸ read) vacantToo reached alike
      have twins := Workspace.numbered_twins vacant.small vacantToo.small
        (shares.located tree holds) (firmToo _ (.refl _ _)) (shares.stands holds) same
      have gone := alike.step homely config firm firmToo twins
      have first : Phase.Next toolbox config (requests caller) (twin, there) _ :=
        ⟨alike.unfinished, rfl⟩
      have apart : ∀ other, other ≠ caller → held other ≠ some number :=
        fun other apart holdsToo => apart (shares.apart holdsToo holds)
      unfold Together.turn
      rw [stage]
      generalize phase.step toolbox config (requests caller) state.world = next at gone ⊢
      generalize twin.step toolbox config (requests caller) there = beside at gone first
      cases gone with
      | @further next other after beside alike altered same =>
          obtain ⟨touched, kept⟩ := shares_of_altered tree shares holds altered
          have still : Function.update held caller (some number) = held := by
            rw [← holds, Function.update_eq_self]
          exact .of_turn held (some number) (still.symm ▸ kept)
            (.working vacantToo (reached.tail first) alike same)
            fun other distinct => (counterparts other).untouched (apart other distinct) touched
      | @finished outcome other after beside alike removed =>
          obtain ⟨touched, left⟩ := shares_of_removed tree shares holds removed
          rw [← compile_of_reached (reached.tail first)] at alike
          exact .of_turn held none left (.ended alike)
            fun other distinct => (counterparts other).untouched (apart other distinct) touched

theorem Standing.run (homely : toolbox.Local) (schedule : List ι) :
    Standing toolbox config requests start parent home
      (Together.run toolbox config requests start schedule) := by
  have begins := Standing.begun toolbox config requests start parent home
  unfold Together.run
  generalize Together.begun start = state at begins
  induction schedule generalizing state with
  | nil => exact begins
  | cons caller schedule ih =>
      exact ih _ (begins.turn tree rooted read homed room homely caller)

end

theorem Standing.same {state : Together ι σ}
    (standing : Standing toolbox config requests start parent home state)
    (finished : ∀ caller, ∃ outcome, state.phases caller = .ended outcome) :
    start.store.Same state.world.store := by
  obtain ⟨held, shares, counterparts⟩ := standing
  refine ⟨shares.stays, shares.scratch, fun place => shares.outside place ?_⟩
  intro caller number holds
  have mine := counterparts caller
  obtain ⟨outcome, ended⟩ := finished caller
  rw [holds, ended] at mine
  cases mine with
  | working _vacant _reached alike => cases alike

theorem Standing.alike {state : Together ι σ} {caller : ι}
    {outcome : Except Fault CompilationResult}
    (standing : Standing toolbox config requests start parent home state)
    (ended : state.phases caller = .ended outcome) :
    Attempt.Alike outcome (compile toolbox config (requests caller) start).1 := by
  obtain ⟨held, _shares, counterparts⟩ := standing
  have mine := counterparts caller
  rw [ended] at mine
  generalize held caller = taken at mine
  cases mine with
  | working _vacant _reached alike => cases alike
  | ended alike => exact alike

end

section
variable [DecidableEq ι] (toolbox : Toolbox σ) (config : ToolchainConfig)
variable (requests : ι → CompilationRequest)

theorem remaining_turn (state : Together ι σ) (caller other : ι) :
    ((state.turn toolbox config requests caller).phases other).remaining (requests other) ≤
      (state.phases other).remaining (requests other) - [caller].count other := by
  by_cases same : other = caller
  · subst same
    have counted : [other].count other = 1 := List.count_singleton_self
    rw [counted]
    change (Function.update state.phases other _ other).remaining (requests other) ≤ _
    rw [Function.update_self]
    cases stage : (state.phases other).outcome? with
    | none =>
        have closer := Phase.remaining_step_lt toolbox config (requests other) state.world stage
        omega
    | some outcome =>
        rw [Phase.eq_ended_of_outcome? stage]
        exact Nat.le_refl _
  · have counted : [caller].count other = 0 := by simp [Ne.symm same]
    rw [counted]
    change (Function.update state.phases caller _ other).remaining (requests other) ≤ _
    rw [Function.update_of_ne same]
    exact Nat.le_refl _

theorem remaining_run (world : World σ) (schedule : List ι) (caller : ι) :
    ((run toolbox config requests world schedule).phases caller).remaining (requests caller) ≤
      (requests caller).plan.length + 4 - schedule.count caller := by
  have start : ((begun world : Together ι σ).phases caller).remaining (requests caller) =
      (requests caller).plan.length + 4 := rfl
  rw [← start]
  unfold run
  generalize (begun world : Together ι σ) = state
  clear start
  induction schedule generalizing state with
  | nil => exact Nat.le_refl _
  | cons first schedule ih =>
      have once := remaining_turn toolbox config requests state first caller
      have rest := ih (state.turn toolbox config requests first)
      have split : (first :: schedule).count caller =
          [first].count caller + schedule.count caller := by
        rw [← List.count_append, List.singleton_append]
      rw [List.foldl_cons]
      omega

theorem ended_of_count (world : World σ) {schedule : List ι} {caller : ι}
    (often : (requests caller).plan.length + 4 ≤ schedule.count caller) :
    ∃ outcome, (run toolbox config requests world schedule).phases caller = .ended outcome := by
  have left := remaining_run toolbox config requests world schedule caller
  generalize (run toolbox config requests world schedule).phases caller = phase at left
  cases phase with
  | ended outcome => exact ⟨outcome, rfl⟩
  | requested | opened | running | closing =>
      simp only [Phase.remaining] at left
      omega

end

/-- Compilations take no notice of each other. In whatever order their steps are taken, each ends
once it has had its turn often enough, with what it comes to when it is alone, but for the paths in
a fault; and when all are over the files are those from before. The tools have to be local, and the
directory of the workspaces has to have eight-digit names left for all callers. -/
theorem runs_are_independent [DecidableEq ι] [Fintype ι] (toolbox : Toolbox σ)
    (config : ToolchainConfig) (requests : ι → CompilationRequest) (world : World σ)
    (homely : toolbox.Local) (tree : world.store.IsTree)
    (read : (config.workspaceRoot.getD world.store.temporary).IsRead)
    (room : ∀ home,
      world.store.locate (config.workspaceRoot.getD world.store.temporary) = .ok home →
        (world.store.namesAt home).length + Fintype.card ι ≤ 10 ^ 8)
    (schedule : List ι) :
    let last := run toolbox config requests world schedule
    (∀ caller, (requests caller).plan.length + 4 ≤ schedule.count caller →
      ∃ outcome, last.phases caller = .ended outcome) ∧
    (∀ caller outcome, last.phases caller = .ended outcome →
      Attempt.Alike outcome (compile toolbox config (requests caller) world).1) ∧
    ((∀ caller, ∃ outcome, last.phases caller = .ended outcome) →
      world.store.Same last.world.store) := by
  intro last
  obtain ⟨home, homed⟩ : ∃ home, ∀ place,
      world.store.locate (config.workspaceRoot.getD world.store.temporary) = .ok place →
        place = home := by
    cases world.store.locate (config.workspaceRoot.getD world.store.temporary) with
    | error failure => exact ⟨[], nofun⟩
    | ok home => exact ⟨home, fun place same => (Except.ok.inj same).symm⟩
  have standing : Standing toolbox config requests world _ home last :=
    .run tree rfl read homed (room home) homely schedule
  exact ⟨fun caller often => ended_of_count toolbox config requests world often,
    fun caller outcome ended => standing.alike ended, standing.same⟩

end Together

/-- Processes that copy the module to the output, and count. -/
def Machine.copying : Machine Nat where
  start call runs store :=
    match store.read (call.directory.child "shader.slang") with
    | .error _ => (.ok { exitCode := some 1 }, runs + 1, store)
    | .ok content =>
      match store.write (call.directory.child "output.hlsl") content with
      | .ok written => (.ok { exitCode := some 0 }, runs + 1, written)
      | .error _ => (.ok { exitCode := some 1 }, runs + 1, store)

theorem copying_local : Machine.copying.Local := by
  have source : Path.IsName "shader.slang".toList := isName_sourceFile .slang
  have output : Path.IsName "output.hlsl".toList :=
    ⟨by decide, by decide, by decide, by decide⟩
  refine ⟨?_, ?_⟩
  · intro call runs store place located
    simp only [Machine.copying]
    cases store.read (call.directory.child "shader.slang") with
    | error failure => exact .refl place store
    | ok content =>
        cases wrote : store.write (call.directory.child "output.hlsl") content with
        | error failure =>
            simp only [wrote]
            exact .refl place store
        | ok written =>
            simp only [wrote]
            exact FileStore.write_altersOnlyBelow output located wrote
  · intro call twin store other place spot runs runsToo _calls _firm _firmToo twins
    simp only [Machine.copying, twins.read_child source]
    cases other.read (twin.directory.child "shader.slang") with
    | error failure => exact ⟨rfl, twins.same⟩
    | ok content =>
        rcases twins.write_child output content with
          ⟨failure, here, there⟩ | ⟨written, writtenToo, here, there, same⟩
        · simp only [here, there]
          exact ⟨trivial, twins.same⟩
        · simp only [here, there]
          exact ⟨trivial, same⟩

/-- Two compilations, each of which begins a step when the other one has ended its own. -/
theorem runs_are_independent_of_two_copies :
    let toolbox := launcher .copying 1000
    let config : ToolchainConfig := { workspaceRoot := some ⟨.root, ["tmp".toList]⟩ }
    let requests (caller : Bool) : CompilationRequest :=
      { source := if caller then "a" else "b", target := .hlsl }
    let world : World Nat := { store := .furnished, tools := 0 }
    let schedule := [true, false, true, false, true, false, true, false, true, false]
    let last := Together.run toolbox config requests world schedule
    toolbox.Local ∧ world.store.IsTree ∧
      (config.workspaceRoot.getD world.store.temporary).IsRead ∧
      last.world.calls.map (fun call => call.directory.name) =
        ["shadercross-00000000".toList, "shadercross-00000001".toList] ∧
      (∀ caller, ∃ result, last.phases caller = .ended (.ok result) ∧
        (compile toolbox config (requests caller) world).1 = .ok result ∧
        result.artifactText = some (requests caller).module.text) ∧
      world.store.Same last.world.store := by
  intro toolbox config requests world schedule last
  have homely : toolbox.Local := launcher_local copying_local 1000
  have tree : world.store.IsTree := FileStore.isTree_of_entries (by decide)
  have read : (config.workspaceRoot.getD world.store.temporary).IsRead := rfl
  have room : ∀ home,
      world.store.locate (config.workspaceRoot.getD world.store.temporary) = .ok home →
        (world.store.namesAt home).length + Fintype.card Bool ≤ 10 ^ 8 := by
    intro home located
    have place : world.store.locate (config.workspaceRoot.getD world.store.temporary) =
        .ok ["tmp".toList] := by decide +kernel
    rw [place] at located
    cases located
    decide +kernel
  obtain ⟨ending, asAlone, emptied⟩ := Together.runs_are_independent toolbox config requests world
    homely tree read room schedule
  have often : ∀ caller, (requests caller).plan.length + 4 ≤ schedule.count caller := by decide
  have made : ∀ caller, ((compile toolbox config (requests caller) world).1.toOption.bind
      CompilationResult.artifactText) = some (requests caller).module.text := by decide +kernel
  refine ⟨homely, tree, read, by decide +kernel, ?_,
    emptied fun caller => ending caller (often caller)⟩
  intro caller
  obtain ⟨outcome, ended⟩ := ending caller (often caller)
  have alike := asAlone caller outcome ended
  have text := made caller
  cases alone : (compile toolbox config (requests caller) world).1 with
  | error fault =>
      rw [alone] at text
      cases text
  | ok result =>
      rw [alone] at alike text
      cases alike
      exact ⟨result, ended, rfl, text⟩

end ShaderBridge
