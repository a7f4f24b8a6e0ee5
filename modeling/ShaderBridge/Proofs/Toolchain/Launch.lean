import ShaderBridge.Proofs.Pipeline.Alike
import ShaderBridge.Toolchain.Launch
set_option autoImplicit false

/-! What the launching of tools adds to the processes of a machine: nothing that depends on the
place of a directory, so that tools are as local as their processes. -/

namespace ShaderBridge

variable {σ : Type}

/-- The processes of a machine depend on how they are called and on what is in the directory in
which they run, and change only that. -/
structure Machine.Local (machine : Machine σ) : Prop where
  confined : ∀ (call : ToolCall) (state : σ) (store : FileStore) (place : Place),
    store.locate call.directory = .ok place →
      store.AltersOnlyBelow place (machine.start call state store).2.2
  answers : ∀ {call twin : ToolCall} {store other : FileStore} {place spot : Place}
    (state elsewhere : σ), call.Alike twin → store.Firm call.directory place →
      other.Firm twin.directory spot →
      FileStore.Twins store call.directory place other twin.directory spot →
        (machine.start call state store).1 = (machine.start twin elsewhere other).1 ∧
        FileStore.SameBelow (machine.start call state store).2.2 place
          (machine.start twin elsewhere other).2.2 spot

theorem FileStore.ask_directory {store : FileStore} {path : Path} {place : Place}
    (located : store.locate path = .ok place) (stands : store.entryAt? place = some .directory) :
    store.ask path (· == .directory) = .ok true := by
  unfold ask entry
  rw [located]
  simp only [bind, Except.bind, stands]
  rfl

def launched (call : ToolCall) (limit : Int) (after : FileStore) :
    Except StorageFailure ProcessEnd → Except Fault ToolRun
  | .error .nullCharacter => .error (.storage ⟨.nullCharacter, call.executable⟩)
  | .error failure =>
      .error (.toolUnavailable (Path.ofText call.executable).name call.executable
        (launchReason call.executable failure))
  | .ok ended =>
      if maxTimeout < call.timeout.natAbs then .error .endlessTimeout
      else
        match CapacityProblem.ofFileRead? (limit + 1) with
        | some problem => .error (.capacity problem)
        | none => (producedFile call ended after).map (toolRunOf call limit ended)

theorem launcher_run {machine : Machine σ} {limit : Int} {call : ToolCall} {state : σ}
    {store : FileStore} (stands : store.ask call.directory (· == .directory) = .ok true) :
    (launcher machine limit).run call state store =
      (launched call limit (machine.start call state store).2.2
        (machine.start call state store).1, (machine.start call state store).2) := by
  simp only [launcher, stands]
  rcases machine.start call state store with ⟨failure | ended, tools, after⟩
  · cases failure <;> rfl
  · by_cases endless : maxTimeout < call.timeout.natAbs
    · simp only [launched, if_pos endless]
    · simp only [launched, if_neg endless]
      cases CapacityProblem.ofFileRead? (limit + 1) <;> rfl

/-- Whether a process has left its file is found out alike in twins. -/
theorem producedFile_alike {call twin : ToolCall} {after other : FileStore} {place spot : Place}
    (calls : call.Alike twin)
    (twins : after.Twins call.directory place other twin.directory spot) (ended : ProcessEnd)
    (limit : Int) :
    Attempt.Alike
      (((producedFile call ended after).map (toolRunOf call limit ended)).map ToolRun.placeless)
      (((producedFile twin ended other).map (toolRunOf twin limit ended)).map
        ToolRun.placeless) := by
  obtain ⟨name, named, expected, expectedToo⟩ := calls.output
  have run : ∀ produced producedToo : Option Path, produced.isSome = producedToo.isSome →
      Attempt.Alike (.ok (toolRunOf call limit ended produced).placeless)
        (.ok (toolRunOf twin limit ended producedToo).placeless) := by
    intro produced producedToo same
    unfold toolRunOf ToolRun.placeless
    rw [calls.executable, calls.timeout]
    cases produced <;> cases producedToo <;> first | exact .value _ | cases same
  unfold producedFile
  rw [expected, expectedToo]
  by_cases unclean : (ended.exitCode != some 0) = true
  · simp only [if_pos unclean]
    exact run none none rfl
  · simp only [if_neg unclean, twins.ask_child named]
    cases other.ask (twin.directory.child name) fun _entry => true with
    | error failure => exact .faults rfl
    | ok found =>
        cases found with
        | false => exact run none none rfl
        | true => exact run (some _) (some _) rfl

theorem launched_alike {call twin : ToolCall} {after other : FileStore} {place spot : Place}
    (calls : call.Alike twin)
    (twins : after.Twins call.directory place other twin.directory spot) (limit : Int)
    (result : Except StorageFailure ProcessEnd) :
    Attempt.Alike ((launched call limit after result).map ToolRun.placeless)
      ((launched twin limit other result).map ToolRun.placeless) := by
  cases result with
  | error failure =>
      cases failure <;> exact .faults (by simp only [calls.executable])
  | ok ended =>
      simp only [launched, calls.timeout]
      by_cases endless : maxTimeout < twin.timeout.natAbs
      · simp only [if_pos endless]
        exact .faults rfl
      · simp only [if_neg endless]
        cases CapacityProblem.ofFileRead? (limit + 1) with
        | some problem => exact .faults rfl
        | none => exact producedFile_alike calls twins ended limit

/-- Tools that are launched as local processes are local. -/
theorem launcher_local {machine : Machine σ} (homely : machine.Local) (limit : Int) :
    (launcher machine limit).Local := by
  refine ⟨?_, ?_⟩
  · intro call state store place located
    cases stands : store.ask call.directory (· == .directory) with
    | error failure =>
        simp only [launcher, stands]
        exact .refl place store
    | ok found =>
        cases found with
        | false =>
            simp only [launcher, stands]
            exact .refl place store
        | true =>
            rw [launcher_run stands]
            exact homely.confined call state store place located
  · intro call twin store other place spot state elsewhere calls firm firmToo twins
    obtain ⟨result, same⟩ := homely.answers state elsewhere calls firm firmToo twins
    have altered := homely.confined call state store place twins.located
    have alteredToo := homely.confined twin elsewhere other spot twins.met
    rw [launcher_run (FileStore.ask_directory twins.located twins.stands),
      launcher_run (FileStore.ask_directory twins.met twins.stands_too), result]
    have stands : (machine.start call state store).2.2.entryAt? place = some .directory := by
      rw [altered.outside place fun strictly => strictly.2 rfl]
      exact twins.stands
    have after : (machine.start call state store).2.2.Twins call.directory place
        (machine.start twin elsewhere other).2.2 twin.directory spot :=
      ⟨firm _ altered, firmToo _ alteredToo, stands, twins.inner, twins.innerToo, twins.level, same⟩
    exact ⟨launched_alike calls after limit _, same⟩

end ShaderBridge
