import Mathlib.Algebra.GroupWithZero.Nat
import Mathlib.Data.List.Nodup
import Mathlib.Data.List.Perm.Subperm
import ShaderBridge.Proofs.Storage.FileStore
set_option autoImplicit false

/-! The making of workspaces: the name that is given to a directory, where it comes to stand, and
what can go wrong. -/

namespace ShaderBridge
namespace Workspace

private theorem mem_nameStem {char : Char} (member : char ∈ nameStem) :
    char ≠ '/' ∧ char ≠ '\x00' := by
  have all : nameStem.all (fun char => char != '/' && char != '\x00') = true := by decide
  simpa using List.all_eq_true.mp all char member

private theorem mem_decimal {char : Char} {number : Nat} (member : char ∈ Text.decimal number) :
    char ≠ '/' ∧ char ≠ '\x00' := by
  have digit : char.isDigit = true := Nat.isDigit_of_mem_toDigits (by decide) (by decide) member
  constructor <;>
    · rintro rfl
      exact absurd digit (by decide)

private theorem mem_numberedName {char : Char} {number : Nat}
    (member : char ∈ numberedName number) : char ≠ '/' ∧ char ≠ '\x00' := by
  rcases List.mem_append.mp member with front | digit
  · rcases List.mem_append.mp front with stem | zero
    · exact mem_nameStem stem
    · rw [(List.mem_replicate.mp zero).2]
      decide
  · exact mem_decimal digit

theorem isName_numberedName (number : Nat) : Path.IsName (numberedName number) := by
  have begins : ∃ rest, numberedName number = 's' :: rest := ⟨_, rfl⟩
  obtain ⟨rest, written⟩ := begins
  refine ⟨?_, fun slash => (mem_numberedName slash).1 rfl, ?_, ?_⟩
  · rw [written]
    exact List.cons_ne_nil _ _
  · rw [written]
    exact nofun
  · rw [written]
    exact nofun

theorem null_not_mem_numberedName (number : Nat) : '\x00' ∉ numberedName number :=
  fun null => (mem_numberedName null).2 rfl

theorem numberedName_injective : Function.Injective numberedName := by
  -- the number is read back from what stands behind the stem, zeros in front or not
  have read : ∀ number, Nat.ofDigitChars 10 ((numberedName number).drop nameStem.length) 0 =
      number := by
    intro number
    unfold numberedName
    rw [List.append_assoc, List.drop_left, Nat.ofDigitChars_append,
      Nat.ofDigitChars_replicate_zero, Nat.mul_zero]
    exact Nat.ofDigitChars_ten_toDigits
  intro number other same
  rw [← read number, same, read other]

/-- The names that have eight digits are all of the same length. -/
theorem length_numberedName {number : Nat} (small : number < 10 ^ 8) :
    (Utf8.encode (numberedName number)).length = nameStem.length + 8 := by
  have plain : ∀ char ∈ numberedName number, (String.utf8EncodeChar char).length = 1 := by
    intro char member
    rw [String.length_utf8EncodeChar, Char.utf8Size_eq_one_iff]
    rcases List.mem_append.mp member with front | digit
    · rcases List.mem_append.mp front with stem | zero
      · have all : nameStem.all (fun char => decide (char.val ≤ 127)) = true := by decide
        exact of_decide_eq_true (List.all_eq_true.mp all char stem)
      · rw [(List.mem_replicate.mp zero).2]
        decide
    · have range : char.isDigit = true :=
        Nat.isDigit_of_mem_toDigits (by decide) (by decide) digit
      have upper : char.val ≤ 57 := of_decide_eq_true (Bool.and_eq_true_iff.mp range).2
      exact Nat.le_trans upper (by decide)
  have digits : (Text.decimal number).length ≤ 8 :=
    (Nat.length_toDigits_le_iff (by decide) (by decide)).mpr small
  rw [Utf8.encode, List.length_flatMap, List.map_congr_left plain]
  simp only [numberedName, List.map_const', List.sum_replicate_nat, List.length_append,
    List.length_replicate]
  omega

private theorem freshFrom_eq (taken : List Text) (more number : Nat) :
    ∃ chosen, freshFrom taken more number = numberedName chosen ∧ chosen ≤ number + more ∧
      (∀ other, number ≤ other → other < chosen → numberedName other ∈ taken) ∧
      (numberedName chosen ∈ taken → chosen = number + more) := by
  induction more generalizing number with
  | zero => exact ⟨number, rfl, Nat.le_refl _, fun other low high => by omega, fun _used => rfl⟩
  | succ more ih =>
      rw [freshFrom]
      by_cases inUse : taken.contains (numberedName number) = true
      · rw [if_pos inUse]
        obtain ⟨chosen, same, bound, before, exhausted⟩ := ih (number + 1)
        refine ⟨chosen, same, by omega, ?_, fun used => by rw [exhausted used]; omega⟩
        intro other low high
        by_cases first : other = number
        · rw [first]
          exact List.contains_iff_mem.mp inUse
        · exact before other (by omega) high
      · rw [if_neg inUse]
        refine ⟨number, rfl, by omega, fun other low high => by omega, fun used => ?_⟩
        exact absurd (List.contains_iff_mem.mpr used) inUse

/-- The fresh name is the first one that is not in use. -/
theorem freshName_eq (taken : List Text) :
    ∃ number, freshName taken = numberedName number ∧ numberedName number ∉ taken ∧
      ∀ other, numberedName other ∉ taken → number ≤ other := by
  obtain ⟨chosen, same, _bound, before, exhausted⟩ := freshFrom_eq taken taken.length 0
  refine ⟨chosen, same, ?_, ?_⟩
  · -- else there are more names in use than are taken
    intro used
    have all : (List.range (taken.length + 1)).map numberedName ⊆ taken := by
      intro name member
      obtain ⟨other, within, rfl⟩ := List.mem_map.mp member
      have low := List.mem_range.mp within
      by_cases last : other = chosen
      · rw [last]
        exact used
      · exact before other (Nat.zero_le other) (by have := exhausted used; omega)
    have apart : ((List.range (taken.length + 1)).map numberedName).Nodup :=
      List.nodup_range.map numberedName_injective
    have many := (List.subperm_of_subset apart all).length_le
    rw [List.length_map, List.length_range] at many
    omega
  · intro other free
    by_contra later
    exact free (before other (Nat.zero_le other) (Nat.lt_of_not_le later))

/-- A name written behind a directory is read as the name in the directory. -/
theorem ofText_joined {directory name : Text} (some : directory ≠ []) (named : Path.IsName name) :
    Path.ofText (joined directory name) = (Path.ofText directory).child name := by
  rw [Path.child_name _ named]
  by_cases ends : Text.endsWith "/" directory = true
  · obtain ⟨rest, after⟩ := Option.isSome_iff_exists.mp ends
    have whole : directory = rest.reverse ++ ['/'] := by
      have turned := congrArg List.reverse (Text.after?_eq_some_iff.mp after)
      rwa [List.reverse_reverse, List.reverse_append, List.reverse_reverse] at turned
    have kept : Path.anchorOf (directory ++ name) = Path.anchorOf directory := by
      refine Path.anchorOf_append some ?_
      intro tail slashed
      exact absurd (slashed ▸ List.mem_cons_self) named.flat
    have parts : Path.partsOf (directory ++ name) = Path.partsOf directory ++ [name] := by
      rw [whole, List.append_assoc, List.singleton_append, Path.partsOf_append_slash,
        Path.partsOf_append_slash, Path.partsOf_name named]
      exact congrArg (· ++ [name]) (List.append_nil _).symm
    unfold joined Path.ofText
    rw [if_pos ends, kept, parts]
  · have kept : Path.anchorOf (directory ++ '/' :: name) = Path.anchorOf directory := by
      refine Path.anchorOf_append some ?_
      rintro _ _ front rfl
      apply ends
      unfold Text.endsWith Text.startsWith
      rw [List.reverse_append]
      exact Option.isSome_iff_exists.mpr ⟨_, Text.after?_eq_some_iff.mpr rfl⟩
    have parts : Path.partsOf (directory ++ '/' :: name) = Path.partsOf directory ++ [name] := by
      rw [Path.partsOf_append_slash, Path.partsOf_name named]
    have written : joined directory name = directory ++ '/' :: name := by
      unfold joined
      rw [if_neg ends]
      exact List.append_assoc directory ['/'] name
    unfold Path.ofText
    rw [written, kept, parts]

structure Made (parent : Path) (store : FileStore) (directory : Path) (opened : FileStore)
    (place : Place) : Prop where
  clear : '\x00' ∉ directory.toText
  vacant : store.entryAt? place = none
  opened : opened = store.put place .directory
  located : parent.IsRead → store.locate directory = .ok place

section
variable {parent : Path} {store : FileStore}

private theorem toText_ne_nil {path : Path} (read : path.IsRead) : path.toText ≠ [] := by
  intro none
  have same : path = Path.ofText [] := by
    rw [← none]
    exact read.symm
  rw [same] at none
  exact absurd none (by decide)

/-- The number in the name that a new workspace in `parent` is given: the first one that is not in
use there. -/
structure Chosen (parent : Path) (store : FileStore) (number : Nat) : Prop where
  free : ∀ home, store.locate parent = .ok home →
    store.entryAt? (home ++ [numberedName number]) = none
  least : ∀ other, (∀ home, store.locate parent = .ok home →
    store.entryAt? (home ++ [numberedName other]) = none) → number ≤ other

private theorem chosen_freshName {taken : List Text} (used : ∀ name, name ∈ taken ↔
      ∃ home, store.locate parent = .ok home ∧ store.entryAt? (home ++ [name]) ≠ none) :
    ∃ number, freshName taken = numberedName number ∧ Chosen parent store number := by
  obtain ⟨number, same, free, least⟩ := freshName_eq taken
  refine ⟨number, same, ?_, ?_⟩
  · intro home located
    by_contra filled
    exact free ((used _).mpr ⟨home, located, filled⟩)
  · intro other vacant
    refine least other ?_
    intro member
    obtain ⟨home, located, filled⟩ := (used _).mp member
    exact filled (vacant home located)

private theorem create_apply (parent : Path) (store : FileStore) :
    ∃ number, Chosen parent store number ∧ create parent store =
      match store.makeDirectory (parent.child (numberedName number)) with
      | .ok after => .ok (Path.ofText (joined parent.toText (numberedName number)), after)
      | .error failure => .error ⟨failure, joined parent.toText (numberedName number)⟩ := by
  unfold create
  cases located : store.locate parent with
  | error failure =>
      have used : ∀ name, name ∈ [] ↔
          ∃ home, store.locate parent = .ok home ∧ store.entryAt? (home ++ [name]) ≠ none := by
        simp [located]
      obtain ⟨number, same, chosen⟩ := chosen_freshName used
      exact ⟨number, chosen, same ▸ rfl⟩
  | ok place =>
      have used : ∀ name, name ∈ store.namesAt place ↔
          ∃ home, store.locate parent = .ok home ∧ store.entryAt? (home ++ [name]) ≠ none := by
        simp [located, FileStore.mem_namesAt_iff]
      obtain ⟨number, same, chosen⟩ := chosen_freshName used
      exact ⟨number, chosen, same ▸ rfl⟩

/-- A workspace is made wherever the path with its new name leads somewhere. -/
theorem create_eq (read : parent.IsRead) (store : FileStore) :
    ∃ number, Chosen parent store number ∧ create parent store =
      match store.locate (parent.child (numberedName number)) with
      | .ok place => .ok (parent.child (numberedName number), store.put place .directory)
      | .error failure => .error ⟨failure, joined parent.toText (numberedName number)⟩ := by
  obtain ⟨number, chosen, creation⟩ := create_apply parent store
  refine ⟨number, chosen, ?_⟩
  have named := isName_numberedName number
  have written : Path.ofText (joined parent.toText (numberedName number)) =
      parent.child (numberedName number) := by
    rw [ofText_joined (toText_ne_nil read) named]
    exact congrArg (·.child (numberedName number)) read
  rw [creation, written, FileStore.makeDirectory]
  cases found : store.locate (parent.child (numberedName number)) with
  | error failure => rfl
  | ok place =>
      obtain ⟨home, located, _stands, rfl⟩ := FileStore.locate_of_locate_child named found
      simp only [bind, Except.bind, chosen.free home located]
      rfl

theorem create_eq_ok {directory : Path} {opened : FileStore}
    (created : create parent store = .ok (directory, opened)) :
    ∃ place, Made parent store directory opened place := by
  obtain ⟨number, _chosen, creation⟩ := create_apply parent store
  have named := isName_numberedName number
  have plain := null_not_mem_numberedName number
  generalize numberedName number = name at named plain creation
  rw [creation] at created
  cases made : store.makeDirectory (parent.child name) with
  | error failure =>
      rw [made] at created
      cases created
  | ok after =>
      rw [made] at created
      obtain ⟨rfl, rfl⟩ := Prod.mk.inj (Except.ok.inj created)
      obtain ⟨place, located, vacant, put⟩ := FileStore.makeDirectory_eq_ok_iff.mp made
      refine ⟨place, ?_, vacant, put, ?_⟩
      · obtain ⟨clear, _short, _walked⟩ := FileStore.locate_eq_ok_iff.mp located
        rw [Path.mem_toText (by decide) (by decide), Path.child_name parent named] at clear
        rw [Path.mem_toText_ofText (by decide) (by decide)]
        intro null
        have inside : '\x00' ∈ parent.toText := by
          unfold joined at null
          by_cases ends : Text.endsWith "/" parent.toText = true
          · rw [if_pos ends, List.mem_append] at null
            exact null.resolve_right plain
          · rw [if_neg ends, List.mem_append, List.mem_append] at null
            rcases null with (inside | slash) | inside
            · exact inside
            · exact absurd slash (by decide)
            · exact absurd inside plain
        obtain ⟨part, member, held⟩ :=
          (Path.mem_toText (by decide) (by decide) parent).mp inside
        exact clear ⟨part, List.mem_append_left [name] member, held⟩
      · intro read
        have same : Path.ofText (joined parent.toText name) = parent.child name := by
          rw [ofText_joined (toText_ne_nil read) named]
          exact congrArg (·.child name) read
        rw [same]
        exact located

/-- Only a null character in the path of its parent keeps a workspace from being made without the
file system being asked. -/
theorem create_unreported_iff :
    (∃ cause, create parent store = .error cause ∧ cause.isReported = false) ↔
      '\x00' ∈ parent.toText := by
  obtain ⟨number, _chosen, creation⟩ := create_apply parent store
  have named := isName_numberedName number
  have plain := null_not_mem_numberedName number
  generalize numberedName number = name at named plain creation
  have same : '\x00' ∈ (parent.child name).toText ↔ '\x00' ∈ parent.toText := by
    rw [Path.mem_toText (by decide) (by decide), Path.mem_toText (by decide) (by decide),
      Path.child_name parent named]
    simp [plain]
  rw [← same, ← @FileStore.makeDirectory_null_iff store, creation]
  cases store.makeDirectory (parent.child name) with
  | ok after => simp
  | error failure => simp [StorageProblem.isReported]

end

end Workspace
end ShaderBridge
