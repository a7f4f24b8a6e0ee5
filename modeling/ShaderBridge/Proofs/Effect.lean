import ShaderBridge.Storage.Workspace
set_option autoImplicit false

/-! The effect of actions on a world, as equations. An action is opened once here; what is said of
a run later rests on these equations and on the store operations that they name. -/

namespace ShaderBridge

variable {σ α β : Type}

namespace Attempt

variable {ε : Type}

instance decidableEq [DecidableEq ε] [DecidableEq α] : DecidableEq (Except ε α)
  | .ok left, .ok right => decidable_of_iff (left = right) ⟨congrArg Except.ok, Except.ok.inj⟩
  | .error left, .error right =>
      decidable_of_iff (left = right) ⟨congrArg Except.error, Except.error.inj⟩
  | .ok _, .error _ => .isFalse nofun
  | .error _, .ok _ => .isFalse nofun

theorem bind_eq_ok_iff {first : Except ε α} {next : α → Except ε β} {value : β} :
    first.bind next = .ok value ↔ ∃ middle, first = .ok middle ∧ next middle = .ok value := by
  cases first with
  | ok middle =>
      constructor
      · intro reached
        exact ⟨middle, rfl, reached⟩
      · rintro ⟨_, same, reached⟩
        cases same
        exact reached
  | error cause =>
      constructor
      · intro reached
        cases reached
      · rintro ⟨_, same, _reached⟩
        cases same

theorem bind_eq_error_iff {first : Except ε α} {next : α → Except ε β} {cause : ε} :
    first.bind next = .error cause ↔
      first = .error cause ∨ ∃ middle, first = .ok middle ∧ next middle = .error cause := by
  cases first with
  | ok middle =>
      constructor
      · intro failed
        exact .inr ⟨middle, rfl, failed⟩
      · rintro (same | ⟨_, same, failed⟩)
        · cases same
        · cases same
          exact failed
  | error other =>
      constructor
      · intro failed
        cases failed
        exact .inl rfl
      · rintro (same | ⟨_, same, _failed⟩)
        · cases same
          rfl
        · cases same

theorem map_eq_ok_iff {first : Except ε α} {f : α → β} {value : β} :
    first.map f = .ok value ↔ ∃ middle, first = .ok middle ∧ f middle = value := by
  cases first with
  | ok middle =>
      constructor
      · intro reached
        cases reached
        exact ⟨middle, rfl, rfl⟩
      · rintro ⟨_, same, rfl⟩
        cases same
        rfl
  | error cause =>
      constructor
      · intro reached
        cases reached
      · rintro ⟨_, same, _reached⟩
        cases same

theorem map_eq_error_iff {first : Except ε α} {f : α → β} {cause : ε} :
    first.map f = .error cause ↔ first = .error cause := by
  cases first with
  | ok middle =>
      constructor
      · intro failed
        cases failed
      · intro failed
        cases failed
  | error other =>
      constructor
      · intro failed
        cases failed
        rfl
      · intro failed
        cases failed
        rfl

/-- There is no value. -/
def Fails (attempt : Except ε α) : Prop := ∃ cause, attempt = .error cause

theorem not_fails_ok (value : α) : ¬ Fails (.ok value : Except ε α) := by
  rintro ⟨_, same⟩
  cases same

theorem bind_fails_iff {first : Except ε α} {next : α → Except ε β} :
    Fails (first.bind next) ↔ Fails first ∨ ∃ middle, first = .ok middle ∧ Fails (next middle) := by
  constructor
  · rintro ⟨cause, failed⟩
    rcases bind_eq_error_iff.mp failed with failed | ⟨middle, reached, failed⟩
    · exact .inl ⟨cause, failed⟩
    · exact .inr ⟨middle, reached, cause, failed⟩
  · rintro (⟨cause, failed⟩ | ⟨middle, reached, cause, failed⟩)
    · exact ⟨cause, bind_eq_error_iff.mpr (.inl failed)⟩
    · exact ⟨cause, bind_eq_error_iff.mpr (.inr ⟨middle, reached, failed⟩)⟩

theorem map_fails_iff {first : Except ε α} {f : α → β} : Fails (first.map f) ↔ Fails first := by
  unfold Fails
  simp only [map_eq_error_iff]

theorem mapM_fails_iff (f : α → Except ε β) (items : List α) :
    Fails (items.mapM f) ↔ ∃ item ∈ items, Fails (f item) := by
  induction items with
  | nil =>
      constructor
      · intro failed
        exact absurd failed (not_fails_ok [])
      · rintro ⟨item, impossible, _failed⟩
        cases impossible
  | cons first rest ih =>
      rw [List.mapM_cons]
      constructor
      · intro failed
        rcases bind_fails_iff.mp failed with here | ⟨value, _reached, failed⟩
        · exact ⟨first, List.mem_cons_self, here⟩
        · rcases bind_fails_iff.mp failed with later | ⟨values, _reached, impossible⟩
          · obtain ⟨item, member, failed⟩ := ih.mp later
            exact ⟨item, List.mem_cons_of_mem first member, failed⟩
          · exact absurd impossible (not_fails_ok _)
      · rintro ⟨item, member, failed⟩
        cases reached : f first with
        | error cause => exact ⟨cause, rfl⟩
        | ok value =>
            have later : item ∈ rest := by
              refine (List.mem_cons.mp member).resolve_left ?_
              rintro rfl
              rw [reached] at failed
              exact not_fails_ok value failed
            refine bind_fails_iff.mpr (.inr ⟨value, rfl, ?_⟩)
            exact bind_fails_iff.mpr (.inl (ih.mpr ⟨item, later, failed⟩))

theorem mapM_eq_ok {f : α → Except ε β} {g : α → β} {items : List α}
    (each : ∀ item ∈ items, f item = .ok (g item)) : items.mapM f = .ok (items.map g) := by
  induction items with
  | nil => rfl
  | cons first rest ih =>
      have later := ih fun item member => each item (List.mem_cons_of_mem first member)
      rw [List.mapM_cons, each first List.mem_cons_self, later]
      rfl

end Attempt

namespace Action

@[simp] theorem get_apply (world : World σ) :
    (get : Action σ (World σ)) world = (.ok world, world) := rfl

@[simp] theorem log_apply (level : LogLevel) (message : Text) (world : World σ) :
    log level message world =
      (.ok (), { world with journal := world.journal ++ [⟨level, message⟩] }) := rfl

@[simp] theorem ofExcept_apply (value : Except Fault α) (world : World σ) :
    (ofExcept value : Action σ α) world = (value, world) := by
  cases value with
  | ok value => rfl
  | error fault => rfl

@[simp] theorem callTool_apply (toolbox : Toolbox σ) (call : ToolCall) (world : World σ) :
    callTool toolbox call world =
      ((toolbox.run call world.tools world.store).1,
        { world with
          store := (toolbox.run call world.tools world.store).2.2
          tools := (toolbox.run call world.tools world.store).2.1
          calls := world.calls ++ [call] }) := rfl

@[simp] theorem bind_apply (action : Action σ α) (next : α → Action σ β) (world : World σ) :
    (action >>= next) world =
      match action world with
      | (.ok value, world) => next value world
      | (.error fault, world) => (.error fault, world) := by
  change (match action world with
    | (outcome, world) => ExceptT.bindCont next outcome world) = _
  cases action world with
  | mk outcome world =>
      cases outcome with
      | ok value => rfl
      | error fault => rfl

end Action

namespace Workspace

def contentAt (directory : Path) (name : Text) (store : FileStore) : Except Fault Bytes :=
  match store.read (directory.child name) with
  | .ok content => .ok content
  | .error failure => .error (faultAt directory (directory.child name) (.notRead name) failure)

theorem enter_apply (root : Option Path) (world : World σ) :
    enter { root := root } world =
      match create (root.getD world.store.temporary) world.store with
      | .ok (directory, store) =>
          (.ok ⟨root, some directory⟩,
            { world with
              store := store
              journal := world.journal ++
                [⟨.debug, "Created workspace ".toList ++ directory.toText⟩] })
      | .error cause => (.error (creationFault root cause), world) := by
  simp only [enter, Action.bind_apply, Action.get_apply]
  cases create (root.getD world.store.temporary) world.store with
  | ok made => rfl
  | error cause => rfl

theorem leave_apply (root : Option Path) (directory : Path) (faulty : Bool) (world : World σ) :
    ∃ journal, leave ⟨root, some directory⟩ faulty world =
      match world.store.removeTree directory with
      | .ok store => (.ok (), { world with store := store, journal := journal })
      | .error failure =>
          (if faulty then .ok ()
            else .error (.workspace (.notRemoved ⟨failure, directory.toText⟩) (some directory)),
            { world with journal := journal }) := by
  simp only [leave, Action.bind_apply, Action.get_apply]
  cases world.store.removeTree directory with
  | ok store => exact ⟨_, rfl⟩
  | error failure =>
      cases faulty with
      | true => exact ⟨_, rfl⟩
      | false => exact ⟨world.journal, rfl⟩

theorem writeText_apply (root : Option Path) (directory : Path) (name : Text) (text : RawText)
    (world : World σ) :
    writeText ⟨root, some directory⟩ name text world =
      match world.store.write (directory.child name) (text.encode?.getD []) with
      | .ok store =>
          (if text.encode?.isSome then .ok (directory.child name) else .error .unencodable,
            { world with store := store })
      | .error failure =>
          (.error (faultAt directory (directory.child name) (.notWritten name) failure),
            world) := by
  simp only [writeText, activeDirectory, Action.bind_apply, Action.ofExcept_apply,
    Action.get_apply]
  cases world.store.write (directory.child name) (text.encode?.getD []) with
  | ok store => cases text.encode?.isSome <;> rfl
  | error failure => rfl

theorem readBytes_apply (root : Option Path) (directory : Path) (name : Text)
    (world : World σ) :
    readBytes ⟨root, some directory⟩ name world = (contentAt directory name world.store, world) := by
  simp only [readBytes, activeDirectory, Action.bind_apply, Action.ofExcept_apply,
    Action.get_apply, contentAt]
  cases world.store.read (directory.child name) with
  | ok content => rfl
  | error failure => rfl

theorem readText_apply (root : Option Path) (directory : Path) (name : Text)
    (world : World σ) :
    readText ⟨root, some directory⟩ name world =
      ((contentAt directory name world.store).bind fileText, world) := by
  simp only [readText, Action.bind_apply, readBytes_apply]
  cases contentAt directory name world.store with
  | ok content => simp only [Action.ofExcept_apply]; rfl
  | error fault => rfl

end Workspace
end ShaderBridge
