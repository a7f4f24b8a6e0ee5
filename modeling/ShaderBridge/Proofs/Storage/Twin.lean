import ShaderBridge.Proofs.Storage.FileStore
set_option autoImplicit false

/-! Directories that hold the same. What a file operation in a directory does depends on what is in
the directory and on how long the paths of its files are, and on nothing else: it goes alike in a
twin, which is another directory, in another store, with the same in it and a path as long. -/

namespace ShaderBridge

theorem Path.length_toText_child {directory : Path} {name other : Text} (named : IsName name)
    (otherNamed : IsName other) (level : (Utf8.encode name).length = (Utf8.encode other).length) :
    (Utf8.encode (directory.child name).toText).length =
      (Utf8.encode (directory.child other).toText).length := by
  unfold Utf8.encode at level ⊢
  by_cases some : directory.parts = []
  · rw [child_name directory named, child_name directory otherNamed, some]
    cases directory.anchor <;> simp [toText, Text.join, level]
  · rw [toText_child directory some named, toText_child directory some otherNamed]
    simp [level]

namespace FileStore

theorem walk_congr {store other : FileStore}
    (same : ∀ place, store.entryAt? place = other.entryAt? place) (here : Place)
    (parts : List Text) : store.walk here parts = other.walk here parts := by
  induction parts generalizing here with
  | nil => rfl
  | cons part parts ih =>
      rw [walk, walk, same here]
      cases other.entryAt? here with
      | none => rfl
      | some entry =>
          cases entry with
          | file content executable => rfl
          | directory => simp only [ih]

/-- The last part of a walk is a name in the directory that was reached. -/
theorem walk_name (store : FileStore) (here : Place) {name : Text} (named : Path.IsName name) :
    store.walk here [name] =
      match store.entryAt? here with
      | none => .error .missing
      | some (.file ..) => .error .notDirectory
      | some .directory =>
          if maxNameBytes < (Utf8.encode name).length then .error .longName
          else .ok (here ++ [name]) := by
  have lower : name ≠ "..".toList := named.lower
  rw [walk]
  cases store.entryAt? here with
  | none => rfl
  | some entry =>
      cases entry with
      | file content executable => rfl
      | directory => simp only [if_neg lower, walk]

/-- Names of one length are looked up alike in directories that are walked to alike. -/
theorem locate_child_alike {store other : FileStore} {directory image : Path} {name twin : Text}
    (named : Path.IsName name) (twinNamed : Path.IsName twin)
    (clear : '\x00' ∈ (directory.child name).toText ↔ '\x00' ∈ (image.child twin).toText)
    (level : (Utf8.encode (directory.child name).toText).length =
      (Utf8.encode (image.child twin).toText).length)
    (size : (Utf8.encode name).length = (Utf8.encode twin).length)
    (walked : (store.walk [] (store.workingDirectory.within directory).parts).map
        store.entryAt? =
      (other.walk [] (other.workingDirectory.within image).parts).map other.entryAt?) :
    (store.locate (directory.child name)).map (fun _place => ()) =
      (other.locate (image.child twin)).map (fun _place => ()) := by
  unfold locate
  rw [Path.within_child_name _ directory named, Path.within_child_name _ image twinNamed,
    walk_append, walk_append]
  simp only [List.contains_iff_mem, clear, level]
  by_cases null : '\x00' ∈ (image.child twin).toText
  · simp only [if_pos null]
  by_cases long : maxPathBytes < (Utf8.encode (image.child twin).toText).length
  · simp only [if_neg null, if_pos long]
  simp only [if_neg null, if_neg long]
  cases reached : store.walk [] (store.workingDirectory.within directory).parts with
  | error failure =>
      rw [reached] at walked
      obtain same := Attempt.map_eq_error_iff.mp walked.symm
      rw [same]
      rfl
  | ok place =>
      rw [reached] at walked
      obtain ⟨spot, met, same⟩ := Attempt.map_eq_ok_iff.mp walked.symm
      rw [met]
      simp only [Except.bind, walk_name _ _ named, walk_name _ _ twinNamed, same, size]
      cases store.entryAt? place with
      | none => rfl
      | some entry =>
          cases entry with
          | file content executable => rfl
          | directory =>
              by_cases tooLong : maxNameBytes < (Utf8.encode twin).length
              · simp only [if_pos tooLong]
              · simp only [if_neg tooLong]
                rfl

def SameBelow (store : FileStore) (place : Place) (other : FileStore) (spot : Place) : Prop :=
  ∀ rest, store.entryAt? (place ++ rest) = other.entryAt? (spot ++ rest)

/-- Two directories in two stores with the same in them and with paths of the same length. -/
structure Twins (store : FileStore) (directory : Path) (place : Place) (other : FileStore)
    (image : Path) (spot : Place) : Prop where
  located : store.locate directory = .ok place
  met : other.locate image = .ok spot
  stands : store.entryAt? place = some .directory
  inner : directory.parts ≠ []
  innerToo : image.parts ≠ []
  level : (Utf8.encode directory.toText).length = (Utf8.encode image.toText).length
  same : SameBelow store place other spot

section
variable {store other : FileStore} {directory image : Path} {place spot : Place} {name : Text}

theorem Twins.stands_too (twins : Twins store directory place other image spot) :
    other.entryAt? spot = some .directory := by
  have here := twins.same []
  rw [List.append_nil, List.append_nil, twins.stands] at here
  exact here.symm

/-- A name is looked up alike in twins. -/
theorem Twins.locate_child (twins : Twins store directory place other image spot)
    (named : Path.IsName name) :
    (∃ failure, store.locate (directory.child name) = .error failure ∧
      other.locate (image.child name) = .error failure) ∨
    store.locate (directory.child name) = .ok (place ++ [name]) ∧
      other.locate (image.child name) = .ok (spot ++ [name]) := by
  obtain ⟨clear, _short, walked⟩ := locate_eq_ok_iff.mp twins.located
  obtain ⟨clearToo, _short, walkedToo⟩ := locate_eq_ok_iff.mp twins.met
  have null : '\x00' ∈ (directory.child name).toText ↔ '\x00' ∈ (image.child name).toText := by
    rw [Path.toText_child directory twins.inner named, Path.toText_child image twins.innerToo named,
      List.mem_append, List.mem_append]
    simp only [clear, clearToo]
  have level : (Utf8.encode (directory.child name).toText).length =
      (Utf8.encode (image.child name).toText).length := by
    have front := twins.level
    unfold Utf8.encode at front ⊢
    rw [Path.toText_child directory twins.inner named, Path.toText_child image twins.innerToo named,
      List.flatMap_append, List.flatMap_append, List.length_append, List.length_append, front]
  have found := locate_child_alike named named null level rfl (by
    rw [walked, walkedToo]
    change Except.ok _ = Except.ok _
    rw [twins.stands, twins.stands_too])
  cases here : store.locate (directory.child name) with
  | error failure =>
      rw [here] at found
      exact .inl ⟨failure, rfl, Attempt.map_eq_error_iff.mp found.symm⟩
  | ok inside =>
      rw [here] at found
      obtain ⟨beside, there, _same⟩ := Attempt.map_eq_ok_iff.mp found.symm
      cases FileStore.locate_child named twins.located here
      cases FileStore.locate_child named twins.met there
      exact .inr ⟨rfl, there⟩

theorem Twins.entry_child (twins : Twins store directory place other image spot)
    (named : Path.IsName name) :
    store.entry (directory.child name) = other.entry (image.child name) := by
  unfold entry
  rcases twins.locate_child named with ⟨failure, here, there⟩ | ⟨here, there⟩
  · rw [here, there]
    rfl
  · rw [here, there]
    simp only [bind, Except.bind, twins.same [name]]

theorem Twins.read_child (twins : Twins store directory place other image spot)
    (named : Path.IsName name) :
    store.read (directory.child name) = other.read (image.child name) := by
  unfold read
  rw [twins.entry_child named]

theorem Twins.ask_child (twins : Twins store directory place other image spot)
    (named : Path.IsName name) (kind : Entry → Bool) :
    store.ask (directory.child name) kind = other.ask (image.child name) kind := by
  unfold ask
  rw [twins.entry_child named]

private theorem SameBelow.put {store other : FileStore} {place spot : Place}
    (same : SameBelow store place other spot) (name : Text) (entry : Entry) :
    SameBelow (store.put (place ++ [name]) entry) place
      (other.put (spot ++ [name]) entry) spot := by
  intro rest
  rw [entryAt?_put store (List.concat_ne_nil name place), entryAt?_put other
    (List.concat_ne_nil name spot), same rest]
  simp only [List.append_right_inj]

/-- A file is written alike in twins, which still hold the same then. -/
theorem Twins.write_child (twins : Twins store directory place other image spot)
    (named : Path.IsName name) (content : Bytes) :
    (∃ failure, store.write (directory.child name) content = .error failure ∧
      other.write (image.child name) content = .error failure) ∨
    ∃ after afterToo, store.write (directory.child name) content = .ok after ∧
      other.write (image.child name) content = .ok afterToo ∧
      SameBelow after place afterToo spot := by
  unfold write
  rcases twins.locate_child named with ⟨failure, here, there⟩ | ⟨here, there⟩
  · exact .inl ⟨failure, by rw [here]; rfl, by rw [there]; rfl⟩
  · rw [here, there]
    simp only [bind, Except.bind, List.dropLast_concat, twins.stands, twins.stands_too]
    have entry := twins.same [name]
    rw [← entry]
    cases store.entryAt? (place ++ [name]) with
    | none => exact .inr ⟨_, _, rfl, rfl, twins.same.put name _⟩
    | some entry =>
        cases entry with
        | directory => exact .inl ⟨.isDirectory, rfl, rfl⟩
        | file old executable => exact .inr ⟨_, _, rfl, rfl, twins.same.put name _⟩

end
end FileStore
end ShaderBridge
