import ShaderBridge.Proofs.Cli.Rebuild
import ShaderBridge.Proofs.Cli.Run
set_option autoImplicit false

/-! A watch and the changes of its file, at the same time. The loop of a watch is cut into the
steps between which files can change and reports can come in: the test of the flag, its clearing,
the reading of the file, each phase of the compilation, and the emission of the artifact. `Turn` is
one such step, one change of the files, or one report; what a run of turns has reached is compared
with the file (`watch_loses_no_update`). Turns that nothing interrupts make up `Watch.rebuild` and
`Watch.loop` (`rebuild_runs`, `loop_turns`). -/

namespace ShaderBridge.Cli.Watch

variable {σ : Type}

inductive Position where
  /-- Between rebuilds; the flag is to be tested. -/
  | waiting
  /-- A rebuild has begun; the flag is to be cleared. -/
  | starting
  /-- The flag is cleared; the file is to be read. -/
  | reading
  | compiling (request : CompilationRequest) (phase : Phase)
  | delivering (result : CompilationResult)
  /-- A fault has ended the loop. -/
  | stopped

instance Position.decidableEqWaiting (position : Position) : Decidable (position = .waiting) :=
  match position with
  | .waiting => .isTrue rfl
  | .starting | .reading | .compiling .. | .delivering _ | .stopped => .isFalse nofun

/-- The state of the loop and of the world that it runs in. -/
structure Standing (σ : Type) where
  position : Position
  flag : Bool
  world : World σ
  /-- What the file held when a rebuild last read it. -/
  seen : Option (Except StorageFailure Bytes)

structure Scene (σ : Type) where
  now : Standing σ
  owed : List Text

section
variable (watch : Watch) (toolbox : Toolbox σ) (config : ToolchainConfig)

/-- What the watched file holds. -/
def content (store : FileStore) : Except StorageFailure Bytes :=
  store.read (Path.ofText watch.job.file)

def caught (fault : Fault) (now : Standing σ) : Standing σ :=
  if fault.isOperational then
    { now with
      position := .waiting
      world := (Action.log .error fault.message now.world).2 }
  else { now with position := .stopped }

/-- One step of the loop. -/
def advance (now : Standing σ) : Standing σ :=
  match now.position with
  | .waiting => { now with position := if now.flag then .starting else .waiting }
  | .starting => { now with position := .reading, flag := false }
  | .reading =>
      let seen := some (watch.content now.world.store)
      match readShader watch.job.file now.world with
      | (.ok (some source), world) =>
          { now with
            position := .compiling (watch.job.request source) .requested
            world := world
            seen := seen }
      | (.ok none, world) => { now with position := .waiting, world := world, seen := seen }
      | (.error fault, world) => caught fault { now with world := world, seen := seen }
  | .compiling request phase =>
      match phase.outcome? with
      | none =>
          let next := phase.step toolbox config request now.world
          { now with position := .compiling request next.1, world := next.2 }
      | some (.ok result) =>
          { now with
            position := .delivering result
            world := (report result now.world).2 }
      | some (.error fault) => caught fault now
  | .delivering result =>
      match watch.deliver result now.world with
      | (.ok _, world) => { now with position := .waiting, world := world }
      | (.error _, world) => { now with position := .stopped, world := world }
  | .stopped => now

/-- When the files change, the reports on their way stay so, and a change of the watched file adds
one of it. -/
def Owes (before after : FileStore) (owed more : List Text) : Prop :=
  owed ⊆ more ∧ (watch.content after ≠ watch.content before → watch.job.file ∈ more)

/-- What can happen next: the files change, a report comes in, or the loop takes a step. -/
inductive Turn : Scene σ → Scene σ → Prop where
  | changed {now : Standing σ} {owed more : List Text} {store : FileStore}
      (owes : watch.Owes now.world.store store owed more) :
      Turn ⟨now, owed⟩ ⟨{ now with world := { now.world with store := store } }, more⟩
  | reported {now : Standing σ} {owed : List Text} {path : Text} {flag : Bool} {world : World σ}
      (noticed : watch.notice path now.flag now.world = (.ok flag, world)) :
      Turn ⟨now, owed⟩ ⟨{ now with flag := flag, world := world }, owed.erase path⟩
  | advanced {now : Standing σ} {owed more : List Text}
      (owes : watch.Owes now.world.store (watch.advance toolbox config now).world.store owed
        more) :
      Turn ⟨now, owed⟩ ⟨watch.advance toolbox config now, more⟩

/-- Turns lead from the first scene to the second. -/
abbrev Turns : Scene σ → Scene σ → Prop := Relation.ReflTransGen (watch.Turn toolbox config)

end

section
variable {watch : Watch} {toolbox : Toolbox σ} {config : ToolchainConfig} {now : Standing σ}

theorem caught_flag (fault : Fault) : (caught fault now).flag = now.flag := by
  unfold caught
  cases fault.isOperational <;> rfl

theorem caught_seen (fault : Fault) : (caught fault now).seen = now.seen := by
  unfold caught
  cases fault.isOperational <;> rfl

theorem caught_idle (fault : Fault) (request : CompilationRequest) (phase : Phase) :
    (caught fault now).position ≠ .compiling request phase := by
  unfold caught
  cases fault.isOperational <;> exact nofun

/-- Only the beginning of a rebuild clears the flag. -/
theorem advance_flag (elsewhere : now.position ≠ .starting) :
    (watch.advance toolbox config now).flag = now.flag := by
  unfold advance
  cases place : now.position with
  | waiting | stopped => rfl
  | starting => exact absurd place elsewhere
  | reading =>
      simp only
      rcases readShader watch.job.file now.world with ⟨outcome, world⟩
      rcases outcome with fault | _ | source
      · exact caught_flag fault
      · rfl
      · rfl
  | compiling request phase =>
      simp only
      rcases phase.outcome? with _ | fault | result
      · rfl
      · exact caught_flag fault
      · rfl
  | delivering result =>
      simp only
      rcases watch.deliver result now.world with ⟨outcome, world⟩
      cases outcome <;> rfl

/-- Only the reading of the file changes what was seen of it. -/
theorem advance_seen (elsewhere : now.position ≠ .reading) :
    (watch.advance toolbox config now).seen = now.seen := by
  unfold advance
  cases place : now.position with
  | waiting | starting | stopped => rfl
  | reading => exact absurd place elsewhere
  | compiling request phase =>
      simp only
      rcases phase.outcome? with _ | fault | result
      · rfl
      · exact caught_seen fault
      · rfl
  | delivering result =>
      simp only
      rcases watch.deliver result now.world with ⟨outcome, world⟩
      cases outcome <;> rfl

theorem advance_starting (here : now.position = .starting) :
    (watch.advance toolbox config now).position = .reading := by
  unfold advance
  rw [here]

theorem advance_reading (here : now.position = .reading) :
    (watch.advance toolbox config now).seen = some (watch.content now.world.store) := by
  unfold advance
  rw [here]
  simp only
  rcases readShader watch.job.file now.world with ⟨outcome, world⟩
  rcases outcome with fault | _ | source
  · exact caught_seen fault
  · rfl
  · rfl

/-- The text that is compiled next is that of the content seen in the same step. -/
theorem advance_reading_text (here : now.position = .reading) :
    ∃ held, (watch.advance toolbox config now).seen = some held ∧
      (readShader watch.job.file now.world).1 = textOf watch.job.file held ∧
      ∀ source, textOf watch.job.file held = .ok (some source) →
        (watch.advance toolbox config now).position =
          .compiling (watch.job.request source) .requested := by
  obtain ⟨journal, read, _quiet⟩ := readShader_apply watch.job.file now.world
  have outcome : (readShader watch.job.file now.world).1 =
      textOf watch.job.file (watch.content now.world.store) := congrArg Prod.fst read
  refine ⟨_, advance_reading here, outcome, fun source text => ?_⟩
  unfold advance
  rw [here]
  simp only
  rw [text] at outcome
  rcases same : readShader watch.job.file now.world with ⟨found, world⟩
  rw [same] at outcome
  cases outcome
  rfl

end

section
variable (watch : Watch)

/-- A change since the last reading is known, or its report is on the way, or the file is about to
be read. -/
def Alert (scene : Scene σ) : Prop :=
  scene.now.flag = true ∨ watch.job.file ∈ scene.owed ∨ scene.now.position = .starting ∨
    scene.now.position = .reading ∨ scene.now.seen = some (watch.content scene.now.world.store)

/-- What is being compiled is the text that was seen last. -/
def Faithful (now : Standing σ) : Prop :=
  ∀ request phase, now.position = .compiling request phase →
    ∃ content source, now.seen = some (.ok content) ∧ fileText content = .ok source ∧
      request = watch.job.request source

def Recognizes : Prop := ∀ store : FileStore, watch.Concerns store watch.job.file = true

end

section
variable {watch : Watch} {toolbox : Toolbox σ} {config : ToolchainConfig}

private theorem Owes.seen {before after : FileStore} {owed more : List Text}
    (owes : watch.Owes before after owed more) :
    watch.job.file ∈ more ∨ watch.content after = watch.content before := by
  by_cases same : watch.content after = watch.content before
  · exact .inr same
  · exact .inl (owes.2 same)

theorem Alert.advance {now : Standing σ} {owed more : List Text}
    (alert : watch.Alert ⟨now, owed⟩)
    (owes : watch.Owes now.world.store (watch.advance toolbox config now).world.store owed
      more) : watch.Alert ⟨watch.advance toolbox config now, more⟩ := by
  rcases owes.seen with owing | same
  · exact .inr (.inl owing)
  · rcases alert with set | owing | starting | reading | seen
    · by_cases starting : now.position = .starting
      · exact .inr (.inr (.inr (.inl (advance_starting starting))))
      · exact .inl ((advance_flag starting).trans set)
    · exact .inr (.inl (owes.1 owing))
    · exact .inr (.inr (.inr (.inl (advance_starting starting))))
    · refine .inr (.inr (.inr (.inr ?_)))
      exact (advance_reading reading).trans (congrArg some same.symm)
    · refine .inr (.inr (.inr (.inr ?_)))
      by_cases reading : now.position = .reading
      · exact (advance_reading reading).trans (congrArg some same.symm)
      · exact (advance_seen reading).trans (seen.trans (congrArg some same.symm))

theorem Alert.turn {scene next : Scene σ} (recognizes : watch.Recognizes)
    (alert : watch.Alert scene) (turn : watch.Turn toolbox config scene next) :
    watch.Alert next := by
  cases turn with
  | changed owes =>
      rcases owes.seen with owing | same
      · exact .inr (.inl owing)
      · rcases alert with set | owing | starting | reading | seen
        · exact .inl set
        · exact .inr (.inl (owes.1 owing))
        · exact .inr (.inr (.inl starting))
        · exact .inr (.inr (.inr (.inl reading)))
        · exact .inr (.inr (.inr (.inr (seen.trans (congrArg some same.symm)))))
  | @reported now owed path flag world noticed =>
      obtain ⟨journal, noticing⟩ := watch.notice_apply path now.flag now.world
      rw [noticing] at noticed
      cases noticed
      rcases alert with set | owing | starting | reading | seen
      · refine .inl ?_
        simp [show now.flag = true from set]
      · -- the report that comes in is the one that was owed, or that one is still on its way
        by_cases own : path = watch.job.file
        · refine .inl ?_
          rw [own]
          simp [recognizes now.world.store]
        · exact .inr (.inl ((List.mem_erase_of_ne (Ne.symm own)).mpr owing))
      · exact .inr (.inr (.inl starting))
      · exact .inr (.inr (.inr (.inl reading)))
      · exact .inr (.inr (.inr (.inr seen)))
  | advanced owes => exact alert.advance owes

theorem Faithful.advance {now : Standing σ} (faithful : watch.Faithful now) :
    watch.Faithful (watch.advance toolbox config now) := by
  intro request phase compiling
  unfold Watch.advance at compiling ⊢
  cases place : now.position with
  | waiting =>
      rw [place] at compiling
      cases set : now.flag <;> simp [set] at compiling
  | starting =>
      rw [place] at compiling
      cases compiling
  | stopped =>
      simp only [place] at compiling
      cases compiling
  | reading =>
      obtain ⟨journal, read, _quiet⟩ := readShader_apply watch.job.file now.world
      simp only [place, read] at compiling ⊢
      rcases held : textAt watch.job.file now.world.store with fault | _ | source
      · rw [held] at compiling
        exact absurd compiling (caught_idle fault request phase)
      · rw [held] at compiling
        cases compiling
      · rw [held] at compiling
        cases compiling
        obtain ⟨content, stands, decoded⟩ := textAt_eq_some held
        exact ⟨content, source, congrArg some stands, decoded, rfl⟩
  | compiling under before =>
      simp only [place] at compiling ⊢
      rcases ended : before.outcome? with _ | fault | result
      · rw [ended] at compiling
        cases compiling
        exact faithful _ _ place
      · rw [ended] at compiling
        exact absurd compiling (caught_idle fault request phase)
      · rw [ended] at compiling
        cases compiling
  | delivering result =>
      simp only [place] at compiling
      rcases delivered : watch.deliver result now.world with ⟨outcome, world⟩
      rw [delivered] at compiling
      cases outcome <;> cases compiling

theorem Faithful.turn {scene next : Scene σ} (faithful : watch.Faithful scene.now)
    (turn : watch.Turn toolbox config scene next) : watch.Faithful next.now := by
  cases turn with
  | changed owes => exact faithful
  | reported noticed => exact faithful
  | advanced owes => exact faithful.advance

/-- A watch that was set up in a directory recognizes the reports of its file. -/
theorem recognizes_of_watchOf {surroundings : Surroundings} {options : JobOptions}
    {world after : World σ} (rooted : world.store.workingDirectory.anchor ≠ .relative)
    (read : world.store.workingDirectory.IsRead)
    (set : watchOf surroundings options world = (.ok (watch, config), after)) :
    watch.Recognizes := by
  intro store
  have file := watchOf_file set
  have whole : Path.ofText watch.job.file =
      Path.absolute world.store.workingDirectory (Path.ofText options.file) := by
    rw [file]
    exact Path.isRead_absolute read (Path.isRead_ofText options.file)
  unfold Concerns
  rw [whole, Path.absolute_absolute rooted, ← file]
  exact decide_eq_true rfl

end

section
variable (watch : Watch) (toolbox : Toolbox σ) (config : ToolchainConfig)

/-- The loop alone leads from the first state to the second. -/
abbrev Runs : Standing σ → Standing σ → Prop :=
  Relation.ReflTransGen fun before after => watch.advance toolbox config before = after

theorem compiling_runs {request : CompilationRequest} {here there : Phase × World σ}
    (reached : Phase.Reaches toolbox config request here there) (now : Standing σ) :
    watch.Runs toolbox config
      { now with position := .compiling request here.1, world := here.2 }
      { now with position := .compiling request there.1, world := there.2 } := by
  induction reached with
  | refl => exact .refl
  | tail steps step ih =>
      obtain ⟨unfinished, rfl⟩ := step
      refine ih.tail ?_
      simp only [advance, unfinished]

section
variable {watch : Watch} {toolbox : Toolbox σ} {config : ToolchainConfig} {here world : World σ}

theorem compileText_of_error {job : Job} {source : Text} {fault : Fault}
    (failed : compile toolbox config (job.request source) here = (.error fault, world)) :
    compileText toolbox config job source here = (.error fault, world) := by
  unfold Job.request at failed
  simp only [compileText, Action.bind_apply, failed]

theorem compileText_of_ok {job : Job} {source : Text} {result : CompilationResult}
    (compiled : compile toolbox config (job.request source) here = (.ok result, world)) :
    compileText toolbox config job source here = (.ok result, (report result world).2) := by
  obtain ⟨journal, reporting⟩ := report_apply result world
  unfold Job.request at compiled
  simp only [compileText, Action.bind_apply, compiled, reporting]
  rfl

theorem rebuild_of_error {fault : Fault}
    (failed : compileFile toolbox config watch.job here = (.error fault, world)) :
    watch.rebuild toolbox config here =
      if fault.isOperational then (.ok false, (Action.log .error fault.message world).2)
      else (.error fault, world) := by
  simp only [rebuild, Action.bind_apply, Action.tryCatch_apply, failed]
  cases fault.isOperational with
  | true => rfl
  | false => rfl

theorem rebuild_of_none
    (unread : compileFile toolbox config watch.job here = (.ok none, world)) :
    watch.rebuild toolbox config here = (.ok false, world) := by
  simp only [rebuild, Action.bind_apply, Action.tryCatch_apply, unread]
  rfl

theorem rebuild_of_some {result : CompilationResult}
    (compiled : compileFile toolbox config watch.job here = (.ok (some result), world)) :
    watch.rebuild toolbox config here = watch.deliver result world := by
  simp only [rebuild, Action.bind_apply, Action.tryCatch_apply, compiled]

theorem caught_eq_of_error {fault : Fault} {now : Standing σ} (reached : now.world = world)
    (failed : compileFile toolbox config watch.job here = (.error fault, world)) :
    caught fault now =
      { now with
        position :=
          if (watch.rebuild toolbox config here).1.isOk then .waiting else .stopped
        world := (watch.rebuild toolbox config here).2 } := by
  subst reached
  rw [rebuild_of_error failed]
  unfold caught
  cases fault.isOperational with
  | true => rfl
  | false => rfl

end

/-- A rebuild that nothing interrupts is a run of the loop. -/
theorem rebuild_runs (flag : Bool) (here : World σ)
    (seen : Option (Except StorageFailure Bytes)) :
    watch.Runs toolbox config ⟨.starting, flag, here, seen⟩
      ⟨if (watch.rebuild toolbox config here).1.isOk then .waiting else .stopped, false,
        (watch.rebuild toolbox config here).2, some (watch.content here.store)⟩ := by
  refine .head (b := ⟨.reading, false, here, seen⟩) rfl ?_
  rcases read : readShader watch.job.file here with ⟨outcome, world⟩
  rcases outcome with fault | _ | source
  · have failed : compileFile toolbox config watch.job here = (.error fault, world) := by
      simp only [compileFile, Action.bind_apply, read]
    refine .single ?_
    simp only [advance, read]
    exact caught_eq_of_error rfl failed
  · have unread : compileFile toolbox config watch.job here = (.ok none, world) := by
      simp only [compileFile, Action.bind_apply, read]
      rfl
    refine .single ?_
    simp only [advance, read, rebuild_of_none unread]
    rfl
  · have start : watch.advance toolbox config ⟨.reading, false, here, seen⟩ =
        ⟨.compiling (watch.job.request source) .requested, false, world,
          some (watch.content here.store)⟩ := by
      simp only [advance, read]
    have phases := watch.compiling_runs toolbox config
      (Phase.reaches_settle toolbox config (watch.job.request source) .requested world)
      ⟨.stopped, false, world, some (watch.content here.store)⟩
    refine .head start (phases.trans ?_)
    change watch.Runs toolbox config
      ⟨.compiling _ (.ended (compile toolbox config (watch.job.request source) world).1), false,
        (compile toolbox config (watch.job.request source) world).2, _⟩ _
    rcases ran : compile toolbox config (watch.job.request source) world with ⟨ended, after⟩
    cases ended with
    | error fault =>
        have failed : compileFile toolbox config watch.job here = (.error fault, after) := by
          simp only [compileFile, Action.bind_apply, read, compileText_of_error ran]
        refine .single ?_
        simp only [advance, Phase.outcome?]
        exact caught_eq_of_error rfl failed
    | ok result =>
        have compiled : compileFile toolbox config watch.job here =
            (.ok (some result), (report result after).2) := by
          simp only [compileFile, Action.bind_apply, read, compileText_of_ok ran]
          rfl
        refine .head (b := ⟨.delivering result, false, (report result after).2, _⟩) rfl ?_
        refine .single ?_
        rw [rebuild_of_some compiled]
        simp only [advance]
        rcases watch.deliver result (report result after).2 with ⟨done, last⟩
        cases done with
        | error fault => rfl
        | ok success => rfl

private theorem exists_owes (before after : FileStore) (owed : List Text) :
    ∃ more, watch.Owes before after owed more := by
  by_cases same : watch.content after = watch.content before
  · exact ⟨owed, List.Subset.refl owed, fun changed => absurd same changed⟩
  · exact ⟨watch.job.file :: owed, List.subset_cons_self _ _, fun _changed => List.mem_cons_self⟩

theorem turns_of_runs {first last : Standing σ} (run : watch.Runs toolbox config first last)
    (owed : List Text) : ∃ more, watch.Turns toolbox config ⟨first, owed⟩ ⟨last, more⟩ := by
  induction run with
  | refl => exact ⟨owed, .refl⟩
  | @tail middle last run step ih =>
      obtain ⟨before, turns⟩ := ih
      obtain ⟨more, owes⟩ := watch.exists_owes middle.world.store
        (watch.advance toolbox config middle).world.store before
      have turn : watch.Turn toolbox config ⟨middle, before⟩ _ := .advanced owes
      rw [step] at turn
      exact ⟨more, turns.tail turn⟩

theorem turns_of_advance {now : Standing σ}
    (same : watch.content (watch.advance toolbox config now).world.store =
      watch.content now.world.store) (owed : List Text) :
    watch.Turns toolbox config ⟨now, owed⟩ ⟨watch.advance toolbox config now, owed⟩ :=
  .single (.advanced ⟨List.Subset.refl owed, fun changed => absurd same changed⟩)

theorem rebuild_turns {here after : World σ} {done : Bool}
    (rebuilt : watch.rebuild toolbox config here = (.ok done, after))
    (seen : Option (Except StorageFailure Bytes)) (owed : List Text) :
    ∃ more, watch.Turns toolbox config ⟨⟨.waiting, true, here, seen⟩, owed⟩
      ⟨⟨.waiting, false, after, some (watch.content here.store)⟩, more⟩ := by
  have run := watch.rebuild_runs toolbox config true here seen
  rw [rebuilt] at run
  have test : watch.advance toolbox config ⟨.waiting, true, here, seen⟩ =
      ⟨.starting, true, here, seen⟩ := rfl
  exact watch.turns_of_runs toolbox config (.head test run) owed

private theorem notices_turns (reports : List Text) {flag noticed : Bool}
    {here after : World σ} (seen : Option (Except StorageFailure Bytes)) (owed : List Text)
    (noticing : reports.foldlM (fun flag report => watch.notice report flag) flag here =
      (.ok noticed, after)) :
    ∃ more, watch.Turns toolbox config ⟨⟨.waiting, flag, here, seen⟩, owed⟩
      ⟨⟨.waiting, noticed, after, seen⟩, more⟩ := by
  induction reports generalizing flag here owed with
  | nil =>
      cases noticing
      exact ⟨owed, .refl⟩
  | cons report reports ih =>
      obtain ⟨journal, first⟩ := watch.notice_apply report flag here
      rw [List.foldlM_cons, Action.bind_apply, first] at noticing
      obtain ⟨more, turns⟩ := ih (owed.erase report) noticing
      exact ⟨more, .head (.reported first) turns⟩

theorem sleep_turns (tick : Tick) {flag noticed : Bool} {here after : World σ}
    (seen : Option (Except StorageFailure Bytes)) (owed : List Text)
    (slept : watch.sleep tick flag here = (.ok noticed, after)) :
    ∃ more, watch.Turns toolbox config ⟨⟨.waiting, flag, here, seen⟩, owed⟩
      ⟨⟨.waiting, noticed, after, seen⟩, more⟩ := by
  obtain ⟨between, owes⟩ := watch.exists_owes here.store
    (tick.written.foldl sleep.install here.store) owed
  obtain ⟨more, turns⟩ := watch.notices_turns toolbox config tick.modified seen between slept
  exact ⟨more, .head (.changed owes) turns⟩

/-- The loop with its ticks is a row of turns. -/
theorem loop_turns (ticks : List Tick) (flag : Bool) (here : World σ)
    (seen : Option (Except StorageFailure Bytes)) (owed : List Text)
    (survives : (watch.loop toolbox config ticks flag here).1 = .ok ()) :
    ∃ last : Scene σ, last.now.position = .waiting ∧
      watch.Turns toolbox config ⟨⟨.waiting, flag, here, seen⟩, owed⟩ last ∧
      (watch.loop toolbox config ticks flag here).2.store = last.now.world.store := by
  induction ticks generalizing flag here seen owed with
  | nil =>
      cases flag with
      | false => exact ⟨_, rfl, .refl, rfl⟩
      | true =>
          simp only [loop, if_true, Action.bind_apply] at survives ⊢
          rcases rebuilt : watch.rebuild toolbox config here with ⟨outcome, after⟩
          rw [rebuilt] at survives
          cases outcome with
          | error fault => cases survives
          | ok done =>
              obtain ⟨more, turns⟩ := watch.rebuild_turns toolbox config rebuilt seen owed
              exact ⟨_, rfl, turns, rfl⟩
  | cons tick ticks ih =>
      cases flag with
      | false =>
          obtain ⟨journal, slept⟩ := watch.sleep_apply tick false here
          obtain ⟨more, pause⟩ := watch.sleep_turns toolbox config tick seen owed slept
          simp only [loop, Bool.false_eq_true, if_false, Action.bind_apply, slept] at survives ⊢
          obtain ⟨last, idle, turns, same⟩ := ih _ _ seen more survives
          exact ⟨last, idle, pause.trans turns, same⟩
      | true =>
          simp only [loop, if_true, Action.bind_apply] at survives ⊢
          rcases rebuilt : watch.rebuild toolbox config here with ⟨outcome, after⟩
          rw [rebuilt] at survives
          cases outcome with
          | error fault => cases survives
          | ok done =>
              obtain ⟨between, round⟩ := watch.rebuild_turns toolbox config rebuilt seen owed
              obtain ⟨journal, slept⟩ := watch.sleep_apply tick false after
              obtain ⟨more, pause⟩ := watch.sleep_turns toolbox config tick
                (some (watch.content here.store)) between slept
              simp only [slept] at survives ⊢
              obtain ⟨last, idle, turns, same⟩ := ih _ _ _ more survives
              exact ⟨last, idle, (round.trans pause).trans turns, same⟩

end

/-! ### No update is lost -/

/-- Whatever happens from the first rebuild of a watch on, what a step reads is the text of what it
records as seen, the text that is being compiled is always the one that was read last, and whenever
the loop is between rebuilds, no change is noted and no report of the file is on its way, the last
rebuild has read what the file holds now. -/
theorem watch_loses_no_update {toolbox : Toolbox σ} {surroundings : Surroundings}
    {options : JobOptions} {watch : Watch} {config : ToolchainConfig} {world after : World σ}
    (rooted : world.store.workingDirectory.anchor ≠ .relative)
    (read : world.store.workingDirectory.IsRead)
    (set : watchOf surroundings options world = (.ok (watch, config), after))
    {first now : Standing σ} {before owed : List Text} (start : first.position = .starting)
    (turns : watch.Turns toolbox config ⟨first, before⟩ ⟨now, owed⟩) :
    (now.position = .reading → ∃ held, (watch.advance toolbox config now).seen = some held ∧
      (readShader watch.job.file now.world).1 = textOf watch.job.file held ∧
      ∀ source, textOf watch.job.file held = .ok (some source) →
        (watch.advance toolbox config now).position =
          .compiling (watch.job.request source) .requested) ∧
    (∀ request phase, now.position = .compiling request phase →
      ∃ content source, now.seen = some (.ok content) ∧ fileText content = .ok source ∧
        request = watch.job.request source) ∧
    (now.position = .waiting → now.flag = false → watch.job.file ∉ owed →
      now.seen = some (now.world.store.read (Path.ofText watch.job.file))) := by
  have recognizes := recognizes_of_watchOf rooted read set
  have kept : ∀ scene, watch.Turns toolbox config ⟨first, before⟩ scene →
      watch.Alert scene ∧ watch.Faithful scene.now := by
    intro scene turns
    induction turns with
    | refl =>
        refine ⟨.inr (.inr (.inl start)), ?_⟩
        intro request phase compiling
        rw [start] at compiling
        cases compiling
    | tail turns turn ih => exact ⟨ih.1.turn recognizes turn, ih.2.turn turn⟩
  obtain ⟨alert, faithful⟩ := kept ⟨now, owed⟩ turns
  refine ⟨advance_reading_text, faithful, ?_⟩
  intro waiting unset delivered
  rcases alert with noted | owing | starting | reading | seen
  · exact absurd noted (Bool.eq_false_iff.mp unset)
  · exact absurd owing delivered
  · exact absurd (waiting.symm.trans starting) nofun
  · exact absurd (waiting.symm.trans reading) nofun
  · exact seen

/-- A change between the clearing of the flag and the reading, and one during the compilation: the
first is read at once, the second by the next rebuild. -/
theorem watch_loses_no_update_of_two_changes :
    let store (text : Text) : FileStore :=
      FileStore.furnished.install (Path.ofText "/a.slang") (Utf8.encode text) false
    let world : World (List ToolAnswer) := { store := store "p", tools := [] }
    let config : ToolchainConfig := { workspaceRoot := some (Path.ofText "/none") }
    let watch : Watch := ⟨⟨"/a.slang", .slang, .hlsl, .materialLibrary, false⟩, none⟩
    let step := watch.advance .answering config
    let cleared : Standing (List ToolAnswer) := step ⟨.starting, false, world, none⟩
    let read := step { cleared with world := { cleared.world with store := store "q" } }
    let failed := step { read with world := { read.world with store := store "r" } }
    let noted := (watch.notice watch.job.file failed.flag failed.world).2
    let again := step (step (step { failed with flag := true, world := noted }))
    let last := step (step (step again))
    watch.Turns .answering config ⟨⟨.starting, false, world, none⟩, []⟩ ⟨last, []⟩ ∧
      read.seen = some (.ok (Utf8.encode "q")) ∧
      last.seen = some (last.world.store.read (Path.ofText watch.job.file)) := by
  intro store world config watch step cleared read failed noted again last
  have quiet {now : Standing (List ToolAnswer)} (owed : List Text)
      (same : watch.content (step now).world.store = watch.content now.world.store) :
      watch.Turns .answering config ⟨now, owed⟩ ⟨step now, owed⟩ :=
    watch.turns_of_advance .answering config same owed
  have edit {now : Standing (List ToolAnswer)} {owed more : List Text} (kept : owed ⊆ more)
      (owing : watch.job.file ∈ more) (after : FileStore) :
      watch.Turns .answering config ⟨now, owed⟩
        ⟨{ now with world := { now.world with store := after } }, more⟩ :=
    .single (.changed ⟨kept, fun _changed => owing⟩)
  have noticed : watch.notice watch.job.file failed.flag failed.world = (.ok true, noted) :=
    Prod.ext (by decide +kernel) rfl
  have first : watch.Turns .answering config ⟨⟨.starting, false, world, none⟩, []⟩
      ⟨failed, [watch.job.file]⟩ :=
    (quiet [] (by decide +kernel)).trans <|
      (edit (List.nil_subset _) List.mem_cons_self (store "q")).trans <|
      (quiet [watch.job.file] (by decide +kernel)).trans <|
      (edit (List.Subset.refl _) List.mem_cons_self (store "r")).trans
        (quiet [watch.job.file] (by decide +kernel))
  have report : watch.Turns .answering config ⟨failed, [watch.job.file]⟩
      ⟨{ failed with flag := true, world := noted }, []⟩ := .single (.reported noticed)
  have second : watch.Turns .answering config
      ⟨{ failed with flag := true, world := noted }, []⟩ ⟨last, []⟩ :=
    (quiet [] (by decide +kernel)).trans <| (quiet [] (by decide +kernel)).trans <|
      (quiet [] (by decide +kernel)).trans <| (quiet [] (by decide +kernel)).trans <|
      (quiet [] (by decide +kernel)).trans (quiet [] (by decide +kernel))
  have turns := (first.trans report).trans second
  let options : JobOptions := ⟨"a.slang", none, "hlsl", [], "materialLibrary", false⟩
  let surroundings : Surroundings :=
    { environment := [("SHADERCROSS_WORKSPACE_ROOT".toList, "/none".toList)]
      now := ⟨2024, 1, 2, 3, 4, 5⟩ }
  have set : watchOf surroundings options world = (.ok (watch, config), world) := by rfl
  have rooted : world.store.workingDirectory.anchor ≠ .relative := by decide
  have root : world.store.workingDirectory.IsRead := rfl
  have kept := watch_loses_no_update rooted root set rfl turns
  have waiting : last.position = .waiting := by decide +kernel
  have unset : last.flag = false := by decide +kernel
  exact ⟨turns, by decide +kernel, kept.2.2 waiting unset List.not_mem_nil⟩

end ShaderBridge.Cli.Watch
