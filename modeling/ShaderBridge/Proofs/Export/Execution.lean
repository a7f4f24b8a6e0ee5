import Mathlib.Algebra.Order.BigOperators.Group.List
import ShaderBridge.Proofs.Export.Body
set_option autoImplicit false

/-! What a node body computes, before and after its last write becomes a return. The color stays the
same under every meaning of the expressions unless the last clause misleads: an `else` in front of it
is taken for a type, the name that it assigns is not the one that is handed on, or something follows
its value (`writeAsReturn_keeps_color_iff`). -/

namespace ShaderBridge
namespace Export

open Code
open Text (Blank)

abbrev Store (Value : Type) := Text → Value

/-- What the expressions of a body mean. They may change the store as they are evaluated. A name of
the output means the value that the store has for it. -/
structure Meaning (Value Color : Type) where
  eval : (expression : Text) → Store Value → Value × Store Value
  /-- Whether a condition holds. -/
  holds : (condition : Text) → Store Value → Bool × Store Value
  /-- What an action does that sets no variable as a whole. -/
  effect : (action : Text) → Store Value → Store Value
  /-- The first three components of a value. -/
  rgb : Value → Color
  eval_name : ∀ name ∈ outputNames, ∀ store, eval name store = (store name, store)

structure State (Value : Type) where
  /-- Whether an `else` that comes next is run. -/
  pending : Bool
  store : Store Value

section
variable {Value Color : Type} (meaning : Meaning Value Color)

def Assignment.run (assignment : Assignment) (store : Store Value) : Store Value :=
  let (value, store) := meaning.eval assignment.value.trim store
  let store := Function.update store assignment.target.name value
  if assignment.more = [] then store else meaning.effect assignment.more store

/-- A variable that is declared in a branch ends with it, so what such a declaration does is left to
the meaning. -/
def Action.run (guarded : Bool) (action : Action) (store : Store Value) : Store Value :=
  match action with
  | .sets assignment =>
    if guarded = true ∧ assignment.target.type ≠ [] then meaning.effect assignment.text store
    else assignment.run meaning store
  | .other text _ _ => meaning.effect text store

/-- A clause behind `else` is run when the `if` before it was not; one behind `if` when its condition
holds. -/
def Clause.run (clause : Clause) (state : State Value) : State Value :=
  if clause.otherwise.isSome = true ∧ state.pending = false then ⟨false, state.store⟩
  else
    match clause.condition with
    | none => ⟨false, clause.action.run meaning clause.otherwise.isSome state.store⟩
    | some condition =>
      let (taken, store) := meaning.holds condition.words state.store
      if taken then ⟨false, clause.action.run meaning true store⟩ else ⟨true, store⟩

def runSettled (settled : List Settled) (store : Store Value) : State Value :=
  settled.foldl (fun state next => next.clause.run meaning state) ⟨false, store⟩

/-- The value that statements that hand the color on write out last: a return ends them. -/
def writtenLast : (first : WriteOut) → (others : List WriteOut) → Store Value → Value
  | writeOut, [], store => store writeOut.source
  | writeOut, next :: others, store =>
    match writeOut.target? with
    | none => store writeOut.source
    | some name => writtenLast next others (Function.update store name (store writeOut.source))

/-- The color that the body writes out last. -/
def Body.run (body : Body) (store : Store Value) : Color :=
  meaning.rgb (writtenLast body.first.writeOut (body.others.map (·.writeOut))
    (runSettled meaning body.settled store).store)

/-- The color that the body returns. -/
def Returning.run (returning : Returning) (store : Store Value) : Color :=
  meaning.rgb (meaning.eval returning.value.trim
    (runSettled meaning returning.settled store).store).1

end

/-- The last clause offers a value that is not, or not always, the color: it is run behind an `else`
only, sets another name than the one that is handed on, or does not end with the value. -/
def Body.Misled (body : Body) : Prop :=
  ∃ last value, body.offer = some (last, value) ∧
    ∃ assignment, last.clause.action = .sets assignment ∧
      (last.clause.otherwise.isSome = true ∨ assignment.target.name ≠ body.first.writeOut.source ∨
        assignment.more ≠ [])

theorem WriteOut.source_mem (writeOut : WriteOut) : writeOut.source ∈ outputNames := by
  cases writeOut with
  | returned source => exact source.2
  | forwarded _name source => exact source.2

section
variable {Value Color : Type} {meaning : Meaning Value Color}

theorem writtenLast_of_forwards {first : WriteOut} {others : List WriteOut}
    (forwards : (first :: others).IsChain fun before after => before.target? = some after.source)
    (store : Store Value) : writtenLast first others store = store first.source := by
  induction others generalizing first store with
  | nil => rfl
  | cons next others ih =>
      obtain ⟨target, later⟩ := List.isChain_cons_cons.mp forwards
      rw [writtenLast, target]
      simp only
      rw [ih later, Function.update_self]

theorem Body.run_eq (body : Body) (store : Store Value) :
    body.run meaning store =
      meaning.rgb ((runSettled meaning body.settled store).store body.first.writeOut.source) := by
  have chain : ((body.first :: body.others).map (·.writeOut)).IsChain fun before after =>
      before.target? = some after.source := (List.isChain_map _).mpr body.forwards
  rw [Body.run, writtenLast_of_forwards chain]

theorem runSettled_concat (kept : List Settled) (last : Settled) (store : Store Value) :
    runSettled meaning (kept ++ [last]) store =
      last.clause.run meaning (runSettled meaning kept store) := by
  unfold runSettled
  rw [List.foldl_append]
  rfl

theorem Clause.run_of_free {clause : Clause} {assignment : Assignment}
    (free : clause.otherwise = none) (guarded : clause.condition = none)
    (acts : clause.action = .sets assignment) (state : State Value) :
    clause.run meaning state = ⟨false, assignment.run meaning state.store⟩ := by
  unfold Clause.run
  rw [free, guarded, acts, if_neg (by simp)]
  simp only [Action.run]
  rw [if_neg (by simp)]

theorem Assignment.run_of_single {assignment : Assignment} (single : assignment.more = [])
    (store : Store Value) : assignment.run meaning store assignment.target.name =
      (meaning.eval assignment.value.trim store).1 := by
  unfold Assignment.run
  simp only
  rw [if_pos single, Function.update_self]

theorem Body.run_returning_of_offer {body : Body} {kept : List Settled} {last : Settled}
    {value : Text} (found : body.offer = some (last, value)) (split : body.settled = kept ++ [last])
    (store : Store Value) : body.returning.run meaning store =
      meaning.rgb (meaning.eval value.trim (runSettled meaning kept store).store).1 := by
  unfold Body.returning
  rw [found]
  simp only [Returning.run, split, List.dropLast_concat]

/-- A body that is not misled returns the color that it wrote out. -/
theorem Body.run_returning_of_not_misled {body : Body} (other : ¬ body.Misled)
    (store : Store Value) : body.returning.run meaning store = body.run meaning store := by
  rw [body.run_eq]
  cases found : body.offer with
  | none =>
      have known := body.first.writeOut.source_mem
      have trimmed : ∀ name ∈ outputNames, Text.trim name = name := by decide
      unfold Body.returning
      rw [found]
      simp only [Returning.run]
      rw [trimmed _ known, meaning.eval_name _ known]
  | some offer =>
      obtain ⟨last, value⟩ := offer
      obtain ⟨kept, split, given⟩ := body.offer_eq_some found
      obtain ⟨assignment, guarded, acts, _short, _known, rfl, _fresh⟩ :=
        Clause.offered_eq_some_iff.mp given
      have honest : last.clause.otherwise = none ∧
          assignment.target.name = body.first.writeOut.source ∧ assignment.more = [] := by
        by_contra misleads
        refine other ⟨last, _, found, assignment, acts, ?_⟩
        rw [Option.isSome_iff_ne_none]
        tauto
      obtain ⟨free, name, single⟩ := honest
      rw [Body.run_returning_of_offer found split, split, runSettled_concat,
        Clause.run_of_free free guarded acts, ← name, single, List.append_nil]
      exact congrArg meaning.rgb (Assignment.run_of_single single _).symm

end

/-- A meaning under which one expression has a greater value than every output. -/
def standingOut (expression : Text) : Meaning Nat Nat where
  eval text store :=
    if outputNames.contains text then (store text, store)
    else if text = expression then (1 + (outputNames.map store).sum, store) else (0, store)
  holds _condition store := (true, store)
  effect _action store := store
  rgb := id
  eval_name _name known _store := if_pos (List.contains_iff_mem.mpr known)

section
variable {expression : Text} (store : Store Nat)

theorem eval_standingOut (fresh : expression ∉ outputNames) :
    (standingOut expression).eval expression store = (1 + (outputNames.map store).sum, store) :=
  (if_neg (mt List.contains_iff_mem.mp fresh)).trans (if_pos rfl)

theorem lt_of_mem_outputNames {name : Text} (known : name ∈ outputNames) :
    store name < 1 + (outputNames.map store).sum := by
  have member : store name ∈ outputNames.map store := List.mem_map_of_mem known
  exact Nat.lt_one_add_iff.mpr (List.single_le_sum (fun _ _ => Nat.zero_le _) _ member)

theorem eval_standingOut_of_ne {other : Text} (apart : other ≠ expression) :
    ∃ value < 1 + (outputNames.map store).sum,
      (standingOut expression).eval other store = (value, store) := by
  by_cases known : other ∈ outputNames
  · exact ⟨store other, lt_of_mem_outputNames store known,
      if_pos (List.contains_iff_mem.mpr known)⟩
  · exact ⟨0, by omega, (if_neg (mt List.contains_iff_mem.mp known)).trans (if_neg apart)⟩

theorem Assignment.run_standingOut (assignment : Assignment) :
    assignment.run (standingOut expression) store = Function.update store assignment.target.name
      ((standingOut expression).eval assignment.value.trim store).1 := by
  have still : ((standingOut expression).eval assignment.value.trim store).2 = store := by
    unfold standingOut
    simp only
    split
    · rfl
    · split <;> rfl
  unfold Assignment.run
  simp only [still]
  exact ite_self _

end

theorem pending_runSettled (expression : Text) (settled : List Settled) (store : Store Nat) :
    (runSettled (standingOut expression) settled store).pending = false := by
  have idle : ∀ (clause : Clause) (state : State Nat),
      (clause.run (standingOut expression) state).pending = false := by
    intro clause state
    unfold Clause.run
    split
    · rfl
    · split <;> rfl
  rcases List.eq_nil_or_concat' settled with rfl | ⟨kept, last, rfl⟩
  · rfl
  · rw [runSettled_concat]
    exact idle _ _

/-- What follows the value makes another expression of it. -/
theorem Assignment.trim_value_ne {assignment : Assignment} (listed : assignment.more ≠ []) :
    assignment.value.trim ≠ Text.trim (assignment.value ++ assignment.more) := by
  obtain ⟨char, rest, more⟩ := List.exists_cons_of_ne_nil listed
  have comma : char = ',' := assignment.listed char (by rw [more]; rfl)
  have dark : ¬ Blank assignment.more := fun blank =>
    absurd (blank ',' (by rw [more, comma]; exact List.mem_cons_self)) (by decide)
  have filled : assignment.value.trimStart ≠ [] := fun empty =>
    assignment.filled (List.dropWhile_eq_nil_iff.mp empty)
  have begins : Text.trimStart (assignment.value ++ assignment.more) =
      assignment.value.trimStart ++ assignment.more := by
    unfold Text.trimStart at filled ⊢
    rw [List.dropWhile_append, if_neg (by simpa using filled)]
  have ends : assignment.more.trimEnd ≠ [] := by
    intro empty
    have blank := List.dropWhile_eq_nil_iff.mp (List.reverse_eq_nil_iff.mp empty)
    exact dark fun char member => blank char (List.mem_reverse.mpr member)
  intro same
  unfold Text.trim at same
  rw [begins, Text.trimEnd_append_of_not_blank dark] at same
  have long := congrArg List.length same
  have short := (Text.trimEnd_prefix assignment.value.trimStart).length_le
  have some := List.length_pos_iff.mpr ends
  rw [List.length_append] at long
  omega

/-- Under some meaning a misled body returns a value that no output has. -/
theorem Body.run_returning_of_misled {body : Body} (misled : body.Misled) :
    ∃ (meaning : Meaning Nat Nat) (store : Store Nat),
      body.returning.run meaning store ≠ body.run meaning store := by
  obtain ⟨last, value, found, assignment, acts, misleads⟩ := misled
  obtain ⟨kept, split, given⟩ := body.offer_eq_some found
  obtain ⟨other, guarded, same, _short, _known, rfl, fresh⟩ := Clause.offered_eq_some_iff.mp given
  obtain rfl := Action.sets.inj (acts.symm.trans same)
  let meaning := standingOut (Text.trim (assignment.value ++ assignment.more))
  refine ⟨meaning, fun _name => 0, (ne_of_lt ?_).symm⟩
  have idle : (runSettled meaning kept fun _name => 0).pending = false := pending_runSettled _ kept _
  rw [Body.run_returning_of_offer found split, body.run_eq, split, runSettled_concat]
  generalize runSettled meaning kept (fun _name => 0) = state at idle
  rw [eval_standingOut state.store fresh]
  have source := lt_of_mem_outputNames state.store body.first.writeOut.source_mem
  cases free : last.clause.otherwise with
  | some gap =>
      have skipped : last.clause.run meaning state = ⟨false, state.store⟩ := by
        unfold Clause.run
        rw [free]
        exact if_pos ⟨rfl, idle⟩
      rw [skipped]
      exact source
  | none =>
      rw [Clause.run_of_free free guarded acts, Assignment.run_standingOut]
      change Function.update state.store assignment.target.name _ body.first.writeOut.source < _
      by_cases name : assignment.target.name = body.first.writeOut.source
      · have listed : assignment.more ≠ [] := by
          rw [free] at misleads
          simpa [name] using misleads
        obtain ⟨value, below, known⟩ :=
          eval_standingOut_of_ne state.store (Assignment.trim_value_ne listed)
        rw [← name, Function.update_self, known]
        exact below
      · rw [Function.update_of_ne (Ne.symm name)]
        exact source

/-- A body with its last write as a return is a body that returns, and one that computes the same
color from every store, whatever the expressions mean, unless its last clause misleads. -/
theorem writeAsReturn_keeps_color_iff (body : Body) :
    writeAsReturn body.text = body.returning.text ∧
      ((∀ (Value Color : Type) (meaning : Meaning Value Color) (store : Store Value),
          body.returning.run meaning store = body.run meaning store) ↔ ¬ body.Misled) := by
  refine ⟨writeAsReturn_text body, fun same misled => ?_, fun other Value Color meaning store =>
    Body.run_returning_of_not_misled other store⟩
  obtain ⟨meaning, store, apart⟩ := Body.run_returning_of_misled misled
  exact apart (same Nat Nat meaning store)

def sentenceOf (margin text : Text) (blank : Blank margin) (inner : Inner text)
    (dark : (text ++ [';']).head?.any isBlank = false) (plain : comment (text ++ [';']) = none) :
    Sentence where
  margin
  raw := text ++ [';']
  laid := margin_of_blank blank
  unbroken := unbroken_of_inner inner
  dark
  plain

def fragColor : Identifier := ⟨outputVariable, by decide⟩

def taken : Settled where
  toSentence := sentenceOf [] "if (lit) fragColor = a" (by decide)
    ⟨⟨by unfold Uncommented; decide, by decide⟩, by decide⟩ (by decide) (by decide)
  clause :=
    { otherwise := none
      condition := some ⟨⟨" ", by decide⟩, "lit", ⟨" ", by decide⟩, by decide⟩
      action := .sets ⟨.plain fragColor ⟨" ", by decide⟩, " a", [], by decide, by decide, by decide,
        nofun⟩
      plain := by decide }
  reads := by decide +kernel

/-- The other side. -/
def untaken : Settled where
  toSentence := sentenceOf "\n" "else fragColor = b" (by decide)
    ⟨⟨by unfold Uncommented; decide, by decide⟩, by decide⟩ (by decide) (by decide)
  clause :=
    { otherwise := some ⟨" ", by decide⟩
      condition := none
      action := .sets ⟨.plain fragColor ⟨" ", by decide⟩, " b", [], by decide, by decide, by decide,
        nofun⟩
      plain := by decide }
  reads := by decide +kernel

/-- A branch that assigns the output on both sides, in front of a return of it. -/
def branching : Body where
  settled := [taken, untaken]
  first :=
    { toSentence := sentenceOf "\n" "return fragColor" (by decide)
        ⟨⟨by unfold Uncommented; decide, by decide⟩, by decide⟩ (by decide) (by decide)
      writeOut := .returned ⟨outputVariable, by decide⟩
      reads := by decide +kernel }
  others := []
  rest := "\n"
  ends := .inl (margin_of_blank (by decide))
  forwards := .singleton _
  settles := by
    intro last final writeOut same
    obtain rfl : untaken = last := Option.some.inj final
    have trimmed : Text.Trimmed untaken.clause.text := ⟨by decide +kernel, by decide +kernel⟩
    have hands := (isWriteOut_iff trimmed).mpr ⟨writeOut, same⟩
    exact absurd hands (by decide +kernel)

/-- One side of the branch is returned whatever the condition says. -/
theorem writeAsReturn_keeps_color_iff_of_branch :
    let body : Text := "if (lit) fragColor = a;\nelse fragColor = b;\nreturn fragColor;\n"
    branching.text = body ∧ branching.returning.text = writeAsReturn body ∧
      writeAsReturn body = "if (lit) fragColor = a;\nreturn b.xyz;\n" ∧
      ¬ ∀ (Value Color : Type) (meaning : Meaning Value Color) (store : Store Value),
        branching.returning.run meaning store = branching.run meaning store := by
  intro body
  have spelling : branching.text = body := by decide +kernel
  have offered : untaken.clause.offered = some " b".toList := by decide +kernel
  obtain ⟨text, keeps⟩ := writeAsReturn_keeps_color_iff branching
  refine ⟨spelling, (spelling ▸ text).symm, by decide +kernel, fun same => keeps.mp same ?_⟩
  refine ⟨untaken, " b", ?_, _, rfl, .inl rfl⟩
  change untaken.clause.offered.map (fun value => (untaken, value)) = _
  rw [offered]
  rfl

end Export
end ShaderBridge
