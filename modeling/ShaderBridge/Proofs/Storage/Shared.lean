import Mathlib.Data.Fintype.Card
import Mathlib.Logic.Function.Basic
import ShaderBridge.Proofs.Storage.Twin
import ShaderBridge.Proofs.Storage.Workspace
set_option autoImplicit false

/-! Workspaces side by side. Several callers have made their workspaces in one directory, each under
a number of its own. Outside of these workspaces the store is the one from before, and whatever is
done to one of them leaves the others alone. -/

namespace ShaderBridge
namespace Workspace

/-- The directory of the workspace with a number. -/
def numbered (parent : Path) (number : Nat) : Path := parent.child (numberedName number)

def numberedPlace (home : Place) (number : Nat) : Place := home ++ [numberedName number]

theorem numberedPlace_ne_nil (home : Place) (number : Nat) : numberedPlace home number ≠ [] :=
  List.concat_ne_nil _ home

theorem not_numberedPlace_prefix (home : Place) (number : Nat) :
    ¬ numberedPlace home number <+: home := by
  intro above
  have shorter := above.length_le
  rw [numberedPlace, List.length_append, List.length_singleton] at shorter
  exact Nat.not_succ_le_self _ shorter

theorem numberedPlace_apart {home other : Place} {number second : Nat}
    (first : numberedPlace home number <+: other) (too : numberedPlace home second <+: other) :
    number = second := by
  have level : (numberedPlace home number).length = (numberedPlace home second).length := by
    simp [numberedPlace]
  have same := List.prefix_of_prefix_length_le first too (Nat.le_of_eq level)
  have equal := same.eq_of_length level
  exact numberedName_injective (List.singleton_inj.mp (List.append_cancel_left equal))

/-- Two workspaces with the same in them are twins. -/
theorem numbered_twins {now there : FileStore} {parent : Path} {home : Place}
    {number mirror : Nat} (small : number < 10 ^ 8) (smallToo : mirror < 10 ^ 8)
    (located : now.locate (numbered parent number) = .ok (numberedPlace home number))
    (met : there.locate (numbered parent mirror) = .ok (numberedPlace home mirror))
    (stands : now.entryAt? (numberedPlace home number) = some .directory)
    (same : now.SameBelow (numberedPlace home number) there (numberedPlace home mirror)) :
    now.Twins (numbered parent number) (numberedPlace home number) there
      (numbered parent mirror) (numberedPlace home mirror) := by
  have named := isName_numberedName number
  have namedToo := isName_numberedName mirror
  refine ⟨located, met, stands, ?_, ?_, ?_, same⟩
  · rw [numbered, Path.child_name parent named]
    exact List.concat_ne_nil _ _
  · rw [numbered, Path.child_name parent namedToo]
    exact List.concat_ne_nil _ _
  · exact Path.length_toText_child named namedToo
      ((length_numberedName small).trans (length_numberedName smallToo).symm)

structure Vacant (store : FileStore) (parent : Path) (home : Place) (number : Nat) : Prop where
  small : number < 10 ^ 8
  above : store.locate parent = .ok home
  located : store.locate (numbered parent number) = .ok (numberedPlace home number)
  free : store.entryAt? (numberedPlace home number) = none

structure Touched (place : Place) (before after : FileStore) : Prop where
  stays : after.workingDirectory = before.workingDirectory
  scratch : after.temporary = before.temporary
  outside : ∀ other, ¬ place <+: other → after.entryAt? other = before.entryAt? other

theorem Touched.sameBelow {now after there : FileStore} {home spot : Place} {number other : Nat}
    (touched : Touched (numberedPlace home number) now after) (apart : number ≠ other)
    (same : now.SameBelow (numberedPlace home other) there spot) :
    after.SameBelow (numberedPlace home other) there spot := by
  intro rest
  rw [touched.outside]
  · exact same rest
  · intro below
    exact apart (numberedPlace_apart below (List.prefix_append _ rest))

/-- The store while callers hold workspaces: each has the number that `held` says. -/
structure Shares {ι : Type} (start : FileStore) (parent : Path) (home : Place)
    (held : ι → Option Nat) (now : FileStore) : Prop where
  stays : now.workingDirectory = start.workingDirectory
  scratch : now.temporary = start.temporary
  vacant : ∀ {caller number}, held caller = some number → Vacant start parent home number
  stands : ∀ {caller number}, held caller = some number →
    now.entryAt? (numberedPlace home number) = some .directory
  apart : ∀ {caller other number}, held caller = some number → held other = some number →
    caller = other
  outside : ∀ place, (∀ caller number, held caller = some number →
    ¬ numberedPlace home number <+: place) → now.entryAt? place = start.entryAt? place

namespace Shares

variable {ι : Type} {start now after : FileStore} {parent : Path} {home : Place}
variable {held : ι → Option Nat} {caller : ι} {number : Nat}

theorem initial (start : FileStore) (parent : Path) (home : Place) :
    Shares start parent home (fun _caller : ι => none) start :=
  ⟨rfl, rfl, nofun, nofun, nofun, fun _place _apart => rfl⟩

section
variable (tree : start.IsTree) (shares : Shares start parent home held now)
include tree shares

theorem kept {place : Place} (stood : start.entryAt? place = some .directory) :
    now.entryAt? place = some .directory := by
  rw [shares.outside place]
  · exact stood
  · intro caller number holds below
    have free := tree.vacant_below (shares.vacant holds).free below
    rw [stood] at free
    cases free

theorem located (holds : held caller = some number) :
    now.locate (numbered parent number) = .ok (numberedPlace home number) :=
  FileStore.locate_kept shares.stays (fun _place => shares.kept tree) (shares.vacant holds).located

/-- The walk to the directory of the workspaces is the one from before. -/
theorem walk_parent : now.walk [] (now.workingDirectory.within parent).parts =
    start.walk [] (start.workingDirectory.within parent).parts := by
  rw [shares.stays]
  by_cases idle : ∀ caller, held caller = none
  · refine FileStore.walk_congr ?_ [] _
    intro place
    refine shares.outside place ?_
    intro caller number holds
    rw [idle caller] at holds
    cases holds
  · obtain ⟨caller, holds⟩ := not_forall.mp idle
    obtain ⟨number, holds⟩ := Option.ne_none_iff_exists'.mp holds
    obtain ⟨_clear, _short, walked⟩ := FileStore.locate_eq_ok_iff.mp (shares.vacant holds).above
    rw [walked]
    exact FileStore.walk_kept (fun _place => shares.kept tree) walked

theorem locate_parent : now.locate parent = start.locate parent := by
  unfold FileStore.locate
  rw [shares.walk_parent tree]

theorem entry_parent :
    (now.walk [] (now.workingDirectory.within parent).parts).map now.entryAt? =
      (start.walk [] (start.workingDirectory.within parent).parts).map start.entryAt? := by
  rw [shares.walk_parent tree]
  cases reached : start.walk [] (start.workingDirectory.within parent).parts with
  | error failure => rfl
  | ok place =>
      refine congrArg Except.ok (shares.outside place ?_)
      intro caller number holds below
      obtain ⟨_clear, _short, walked⟩ := FileStore.locate_eq_ok_iff.mp (shares.vacant holds).above
      rw [reached] at walked
      cases walked
      exact not_numberedPlace_prefix home number below

/-- Nothing stands, now or before, where a workspace can be made now. -/
theorem vacant_below (free : now.entryAt? (numberedPlace home number) = none) {place : Place}
    (below : numberedPlace home number <+: place) :
    now.entryAt? place = none ∧ start.entryAt? place = none := by
  have unheld : ∀ caller, held caller ≠ some number := by
    intro caller holds
    rw [shares.stands holds] at free
    cases free
  have same : ∀ {place}, numberedPlace home number <+: place →
      now.entryAt? place = start.entryAt? place := by
    intro place below
    refine shares.outside place ?_
    intro caller other holds above
    rw [numberedPlace_apart above below] at holds
    exact unheld caller holds
  have before : start.entryAt? (numberedPlace home number) = none := by
    rw [← same (List.prefix_refl _)]
    exact free
  have none := tree.vacant_below before below
  exact ⟨(same below).trans none, none⟩

end

/-- The caller of a workspace that is touched has it or has it no more then. -/
theorem changed [DecidableEq ι] (tree : start.IsTree) (shares : Shares start parent home held now)
    (vacant : Vacant start parent home number)
    (mine : held caller = some number ∨
      held caller = none ∧ ∀ other, held other ≠ some number)
    (touched : Touched (numberedPlace home number) now after) {next : Option Nat}
    (left : next = some number ∧
        after.entryAt? (numberedPlace home number) = some .directory ∨
      next = none ∧ ∀ place, numberedPlace home number <+: place →
        after.entryAt? place = none) :
    Shares start parent home (Function.update held caller next) after := by
  have own : ∀ {taken}, next = some taken → taken = number ∧
      after.entryAt? (numberedPlace home number) = some .directory := by
    intro taken same
    rcases left with ⟨has, stands⟩ | ⟨none, _gone⟩
    · rw [has] at same
      cases same
      exact ⟨rfl, stands⟩
    · rw [none] at same
      cases same
  -- a caller other than this one has a workspace other than the one that is touched
  have holder : ∀ {other taken}, Function.update held caller next other = some taken →
      (other = caller ∧ next = some taken) ∨ (held other = some taken ∧ number ≠ taken) := by
    intro other taken holds
    by_cases same : other = caller
    · rw [same, Function.update_self] at holds
      exact .inl ⟨same, holds⟩
    · rw [Function.update_of_ne same] at holds
      refine .inr ⟨holds, ?_⟩
      rintro rfl
      rcases mine with has | ⟨_idle, free⟩
      · exact same (shares.apart holds has)
      · exact free other holds
  refine ⟨touched.stays.trans shares.stays, touched.scratch.trans shares.scratch, ?_, ?_, ?_, ?_⟩
  · intro other taken holds
    rcases holder holds with ⟨_same, has⟩ | ⟨holds, _apart⟩
    · rw [(own has).1]
      exact vacant
    · exact shares.vacant holds
  · intro other taken holds
    rcases holder holds with ⟨_same, has⟩ | ⟨holds, apart⟩
    · rw [(own has).1]
      exact (own has).2
    · rw [touched.outside _ fun below => apart (numberedPlace_apart below (List.prefix_refl _))]
      exact shares.stands holds
  · intro first second taken holds holdsToo
    rcases holder holds with ⟨same, has⟩ | ⟨holds, apart⟩
    · rcases holder holdsToo with ⟨sameToo, _has⟩ | ⟨_holds, apart⟩
      · rw [same, sameToo]
      · exact absurd (own has).1.symm apart
    · rcases holder holdsToo with ⟨_same, has⟩ | ⟨holdsToo, _apart⟩
      · exact absurd (own has).1.symm apart
      · exact shares.apart holds holdsToo
  · intro place unheld
    by_cases below : numberedPlace home number <+: place
    · rcases left with ⟨has, _stands⟩ | ⟨_none, gone⟩
      · refine absurd below (unheld caller number ?_)
        rw [Function.update_self]
        exact has
      · rw [gone place below, tree.vacant_below vacant.free below]
    · rw [touched.outside place below]
      refine shares.outside place ?_
      intro other taken holds
      by_cases same : other = caller
      · rcases mine with has | ⟨idle, _free⟩
        · rw [same, has] at holds
          cases holds
          exact below
        · rw [same, idle] at holds
          cases holds
      · refine unheld other taken ?_
        rw [Function.update_of_ne same]
        exact holds

/-- A caller without a workspace finds a number for one while there is room. -/
theorem exists_free [Fintype ι] [DecidableEq ι] (shares : Shares start parent home held now)
    (idle : held caller = none)
    (room : (start.namesAt home).length + Fintype.card ι ≤ 10 ^ 8) :
    ∃ number < 10 ^ 8, now.entryAt? (numberedPlace home number) = none := by
  let names : Finset Text := (Finset.range (10 ^ 8)).image numberedName
  let others : Finset Text :=
    (Finset.univ.erase caller).image fun other => numberedName ((held other).getD 0)
  have many : names.card = 10 ^ 8 :=
    (Finset.card_image_of_injective _ numberedName_injective).trans (Finset.card_range _)
  have few : ((start.namesAt home).toFinset ∪ others).card < names.card := by
    have first := List.toFinset_card_le (start.namesAt home)
    have second : others.card ≤ Fintype.card ι - 1 := by
      refine Finset.card_image_le.trans ?_
      rw [Finset.card_erase_of_mem (Finset.mem_univ caller), Finset.card_univ]
    have both := Finset.card_union_le (start.namesAt home).toFinset others
    have some : 0 < Fintype.card ι := Fintype.card_pos_iff.mpr ⟨caller⟩
    omega
  obtain ⟨name, member, free⟩ := Finset.exists_mem_notMem_of_card_lt_card few
  obtain ⟨number, low, rfl⟩ := Finset.mem_image.mp member
  refine ⟨number, Finset.mem_range.mp low, ?_⟩
  rw [shares.outside]
  · by_contra used
    exact free (Finset.mem_union_left _ (List.mem_toFinset.mpr
      (FileStore.mem_namesAt_iff.mpr used)))
  · intro other taken holds below
    have same := numberedPlace_apart below (List.prefix_refl _)
    refine free (Finset.mem_union_right _ (Finset.mem_image.mpr ⟨other, ?_, ?_⟩))
    · refine Finset.mem_erase.mpr ⟨?_, Finset.mem_univ other⟩
      rintro rfl
      rw [idle] at holds
      cases holds
    · rw [holds, same]
      rfl

/-- The directory of a workspace is looked up now as another one was before. -/
theorem locate_alike (tree : start.IsTree) (shares : Shares start parent home held now)
    {mirror : Nat} (small : number < 10 ^ 8) (smallToo : mirror < 10 ^ 8) :
    (now.locate (numbered parent number)).map (fun _place => ()) =
      (start.locate (numbered parent mirror)).map (fun _place => ()) := by
  have named := isName_numberedName number
  have namedToo := isName_numberedName mirror
  have size := (length_numberedName small).trans (length_numberedName smallToo).symm
  have null : '\x00' ∈ (parent.child (numberedName number)).toText ↔
      '\x00' ∈ (parent.child (numberedName mirror)).toText := by
    rw [Path.mem_toText (by decide) (by decide), Path.mem_toText (by decide) (by decide),
      Path.child_name parent named, Path.child_name parent namedToo]
    simp [null_not_mem_numberedName]
  exact FileStore.locate_child_alike named namedToo null
    (Path.length_toText_child named namedToo size) size (shares.entry_parent tree)

/-- A caller without a workspace makes one now, or fails to, as it would have before. -/
theorem create_alike [Fintype ι] [DecidableEq ι] (tree : start.IsTree)
    (shares : Shares start parent home held now) (read : parent.IsRead)
    (idle : held caller = none) (homed : ∀ place, start.locate parent = .ok place → place = home)
    (room : start.locate parent = .ok home →
      (start.namesAt home).length + Fintype.card ι ≤ 10 ^ 8) :
    (∃ cause other, create parent now = .error cause ∧ create parent start = .error other ∧
      cause.failure = other.failure) ∨
    ∃ number mirror, Vacant start parent home number ∧ Vacant start parent home mirror ∧
      now.entryAt? (numberedPlace home number) = none ∧
      create parent now =
        .ok (numbered parent number, now.put (numberedPlace home number) .directory) ∧
      create parent start =
        .ok (numbered parent mirror, start.put (numberedPlace home mirror) .directory) := by
  -- the first number that is free is one of the small ones, of which not all are in use
  have small : ∀ {callers : ι → Option Nat} {store number},
      Shares start parent home callers store → callers caller = none →
        Chosen parent store number → number < 10 ^ 8 := by
    intro callers store number shares idle chosen
    cases above : start.locate parent with
    | error failure =>
        have first := chosen.least 0 fun place located => by
          rw [shares.locate_parent tree, above] at located
          cases located
        omega
    | ok place =>
        have here := homed place above
        obtain ⟨other, low, free⟩ := shares.exists_free idle (room (here ▸ above))
        refine Nat.lt_of_le_of_lt (chosen.least other ?_) low
        intro spot located
        rw [shares.locate_parent tree, above] at located
        cases located
        rw [here]
        exact free
  have fresh : Shares start parent home (fun _caller : ι => none) start := initial start parent home
  obtain ⟨number, chosen, created⟩ := create_eq read now
  obtain ⟨mirror, chosenToo, createdToo⟩ := create_eq read start
  have low := small shares idle chosen
  have lowToo := small fresh rfl chosenToo
  have alike := shares.locate_alike tree low lowToo
  unfold numbered at alike
  cases found : now.locate (parent.child (numberedName number)) with
  | error failure =>
      rw [found] at alike created
      rw [Attempt.map_eq_error_iff.mp alike.symm] at createdToo
      exact .inl ⟨_, _, created, createdToo, rfl⟩
  | ok place =>
      have before := shares.locate_alike tree low low
      unfold numbered at before
      rw [found] at alike created before
      obtain ⟨spot, foundToo, _same⟩ := Attempt.map_eq_ok_iff.mp alike.symm
      obtain ⟨inside, foundBefore, _same⟩ := Attempt.map_eq_ok_iff.mp before.symm
      rw [foundToo] at createdToo
      obtain ⟨above, located, _stands, rfl⟩ :=
        FileStore.locate_of_locate_child (isName_numberedName mirror) foundToo
      cases homed above located
      have locatedNow := shares.locate_parent tree
      rw [located] at locatedNow
      cases FileStore.locate_child (isName_numberedName number) locatedNow found
      cases FileStore.locate_child (isName_numberedName number) located foundBefore
      have free := chosen.free _ locatedNow
      have freeBefore := (shares.vacant_below tree free (List.prefix_refl _)).2
      exact .inr ⟨number, mirror, ⟨low, located, foundBefore, freeBefore⟩,
        ⟨lowToo, located, foundToo, chosenToo.free _ located⟩, free, created, createdToo⟩

end Shares

end Workspace
end ShaderBridge
