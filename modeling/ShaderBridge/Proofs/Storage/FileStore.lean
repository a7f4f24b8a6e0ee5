import ShaderBridge.Proofs.Effect
import ShaderBridge.Proofs.Storage.Path
set_option autoImplicit false

/-! What the operations of a store do to its entries, seen through `entryAt?`, and where paths lead
when entries come and go. -/

namespace ShaderBridge

/-- The path of a directory is not longer than the path of an entry in it. -/
theorem Path.length_toText_le_child (directory : Path) {name : Text} (named : IsName name) :
    (Utf8.encode directory.toText).length ≤ (Utf8.encode (directory.child name).toText).length := by
  by_cases some : directory.parts = []
  · obtain ⟨anchor, parts⟩ := directory
    cases some
    rw [child_name _ named]
    obtain ⟨first, rest, written⟩ := List.exists_cons_of_ne_nil named.some
    have filled := first.utf8Size_pos
    rw [← String.length_utf8EncodeChar] at filled
    subst written
    cases anchor with
    | relative =>
        have dot : (Utf8.encode (toText ⟨.relative, []⟩)).length = 1 := by decide
        have own : toText ⟨.relative, [first :: rest]⟩ = first :: rest := by
          simp [toText, Text.join]
        rw [dot, List.nil_append, own, Utf8.encode, List.flatMap_cons, List.length_append]
        omega
    | root | doubleRoot => simp [toText, Text.join, Utf8.encode]
  · rw [toText_child directory some named]
    simp [Utf8.encode]

namespace FileStore

theorem entryAt?_of_ne_nil (store : FileStore) {place : Place} (inner : place ≠ []) :
    store.entryAt? place = store.entries.lookup place := by
  cases place with
  | nil => exact absurd rfl inner
  | cons part parts => rfl

theorem ne_nil_of_vacant {store : FileStore} {place : Place}
    (vacant : store.entryAt? place = none) : place ≠ [] := by
  rintro rfl
  cases vacant

private theorem lookup_cons_of_ne {first other : Place} (apart : other ≠ first) (entry : Entry)
    (entries : List (Place × Entry)) :
    ((first, entry) :: entries).lookup other = entries.lookup other := by
  rw [List.lookup_cons, beq_eq_false_iff_ne.mpr apart]

private theorem lookup_putEntry (place other : Place) (entry : Entry)
    (entries : List (Place × Entry)) :
    (putEntry place entry entries).lookup other =
      if other = place then some entry else entries.lookup other := by
  induction entries with
  | nil =>
      by_cases same : other = place
      · simp [putEntry, same]
      · simp [putEntry, lookup_cons_of_ne same, same]
  | cons head entries ih =>
      rcases head with ⟨first, old⟩
      by_cases here : first = place
      · subst here
        by_cases same : other = first
        · simp [putEntry, same]
        · simp [putEntry, lookup_cons_of_ne same, same]
      · by_cases front : other = first
        · subst front
          simp [putEntry, here]
        · simp [putEntry, here, lookup_cons_of_ne front, ih]

theorem entryAt?_put (store : FileStore) {place : Place} (inner : place ≠ []) (entry : Entry)
    (other : Place) :
    (store.put place entry).entryAt? other =
      if other = place then some entry else store.entryAt? other := by
  cases other with
  | nil => rw [if_neg (Ne.symm inner)]; rfl
  | cons part parts => exact lookup_putEntry place (part :: parts) entry store.entries

private theorem lookup_filter_not_prefix (place other : Place) (entries : List (Place × Entry)) :
    (entries.filter fun entry => !place.isPrefixOf entry.1).lookup other =
      if place <+: other then none else entries.lookup other := by
  induction entries with
  | nil => simp
  | cons head entries ih =>
      rcases head with ⟨first, old⟩
      by_cases below : place <+: first
      · have dropped : place.isPrefixOf first = true := List.isPrefixOf_iff_prefix.mpr below
        simp only [List.filter_cons, dropped, Bool.not_true, Bool.false_eq_true, if_false, ih]
        by_cases same : other = first
        · subst same
          rw [if_pos below, if_pos below]
        · rw [lookup_cons_of_ne same]
      · have stays : place.isPrefixOf first = false := by
          rw [Bool.eq_false_iff]
          exact below ∘ List.isPrefixOf_iff_prefix.mp
        simp only [List.filter_cons, stays, Bool.not_false, if_true]
        by_cases same : other = first
        · subst same
          simp [below]
        · rw [lookup_cons_of_ne same, lookup_cons_of_ne same, ih]

theorem entryAt?_without (store : FileStore) {place : Place} (inner : place ≠ [])
    (other : Place) :
    (store.without place).entryAt? other =
      if place <+: other then none else store.entryAt? other := by
  cases other with
  | nil =>
      rw [if_neg (inner ∘ List.prefix_nil.mp)]
      rfl
  | cons part parts => exact lookup_filter_not_prefix place (part :: parts) store.entries

/-- The names in a directory are those under which something stands. -/
theorem mem_namesAt_iff {store : FileStore} {place : Place} {name : Text} :
    name ∈ store.namesAt place ↔ store.entryAt? (place ++ [name]) ≠ none := by
  rw [entryAt?_of_ne_nil store (List.concat_ne_nil name place), Option.ne_none_iff_exists']
  constructor
  · intro member
    obtain ⟨⟨other, entry⟩, held, same⟩ := List.mem_filterMap.mp member
    by_cases inside : (!other.isEmpty && other.dropLast = place) = true
    · simp only [inside, if_true] at same
      obtain ⟨_filled, above⟩ := Bool.and_eq_true_iff.mp inside
      obtain ⟨front, rfl⟩ := List.getLast?_eq_some_iff.mp same
      have whole : front = place := by
        rw [← of_decide_eq_true above, List.dropLast_concat]
      cases found : store.entries.lookup (place ++ [name]) with
      | some entry => exact ⟨entry, rfl⟩
      | none =>
          have apart := List.lookup_eq_none_iff.mp found _ held
          rw [whole, bne_self_eq_false] at apart
          cases apart
    · simp only [inside, Bool.false_eq_true, if_false] at same
      cases same
  · rintro ⟨entry, found⟩
    obtain ⟨before, after, split, _other⟩ := List.lookup_eq_some_iff.mp found
    refine List.mem_filterMap.mpr ⟨(place ++ [name], entry), ?_, ?_⟩
    · rw [split]
      exact List.mem_append_right before List.mem_cons_self
    · simp

/-- Whatever there is stands in a directory. -/
def IsTree (store : FileStore) : Prop :=
  ∀ place part, store.entryAt? (place ++ [part]) ≠ none → store.entryAt? place = some .directory

theorem isTree_of_entries {store : FileStore}
    (rooted : ∀ entry ∈ store.entries, store.entryAt? entry.1.dropLast = some .directory) :
    store.IsTree := by
  intro place part filled
  have inner : place ++ [part] ≠ [] :=
    List.append_ne_nil_of_right_ne_nil place (List.cons_ne_nil part [])
  rw [entryAt?_of_ne_nil store inner] at filled
  obtain ⟨entry, found⟩ := Option.ne_none_iff_exists'.mp filled
  obtain ⟨before, after, split, _other⟩ := List.lookup_eq_some_iff.mp found
  have member : (place ++ [part], entry) ∈ store.entries := by
    rw [split]
    exact List.mem_append_right before List.mem_cons_self
  have stands := rooted _ member
  rwa [List.dropLast_concat] at stands

/-- There is nothing below a place at which there is nothing. -/
theorem IsTree.vacant_below {store : FileStore} (tree : store.IsTree) {place other : Place}
    (vacant : store.entryAt? place = none) (below : place <+: other) :
    store.entryAt? other = none := by
  obtain ⟨rest, rfl⟩ := below
  induction rest generalizing place with
  | nil =>
      rw [List.append_nil]
      exact vacant
  | cons part rest ih =>
      -- an entry one level down would make its vacant parent a directory
      have next : store.entryAt? (place ++ [part]) = none := by
        cases filled : store.entryAt? (place ++ [part]) with
        | none => rfl
        | some entry =>
            have stands := tree place part (filled ▸ Option.some_ne_none entry)
            rw [vacant] at stands
            cases stands
      have all := ih next
      rwa [List.append_assoc, List.singleton_append] at all

theorem walk_append (store : FileStore) (here : Place) (first second : List Text) :
    store.walk here (first ++ second) =
      (store.walk here first).bind fun middle => store.walk middle second := by
  induction first generalizing here with
  | nil => rfl
  | cons part first ih =>
      rw [List.cons_append, walk, walk]
      cases store.entryAt? here with
      | none => rfl
      | some entry =>
          cases entry with
          | file content executable => rfl
          | directory =>
              by_cases up : part = "..".toList
              · simp only [if_pos up, ih]
              · by_cases long : maxNameBytes < (Utf8.encode part).length
                · simp only [if_neg up, if_pos long, Except.bind]
                · simp only [if_neg up, if_neg long, ih]

/-- A walk leads to the same place as long as no directory is taken away. -/
theorem walk_kept {store after : FileStore}
    (kept : ∀ place, store.entryAt? place = some .directory →
      after.entryAt? place = some .directory)
    {here place : Place} {parts : List Text} (reached : store.walk here parts = .ok place) :
    after.walk here parts = .ok place := by
  induction parts generalizing here with
  | nil => exact reached
  | cons part parts ih =>
      rw [walk] at reached ⊢
      cases stands : store.entryAt? here with
      | none =>
          rw [stands] at reached
          cases reached
      | some entry =>
          cases entry with
          | file content executable =>
              rw [stands] at reached
              cases reached
          | directory =>
              rw [stands] at reached
              rw [kept here stands]
              by_cases up : part = "..".toList
              · simp only [if_pos up] at reached ⊢
                exact ih reached
              · by_cases long : maxNameBytes < (Utf8.encode part).length
                · simp only [if_neg up, if_pos long] at reached
                  cases reached
                · simp only [if_neg up, if_neg long] at reached ⊢
                  exact ih reached

theorem walk_ne_null (store : FileStore) (here : Place) (parts : List Text) :
    store.walk here parts ≠ .error .nullCharacter := by
  induction parts generalizing here with
  | nil => exact nofun
  | cons part parts ih =>
      rw [walk]
      cases store.entryAt? here with
      | none => exact nofun
      | some entry =>
          cases entry with
          | file content executable => exact nofun
          | directory =>
              by_cases up : part = "..".toList
              · simp only [if_pos up]
                exact ih here.dropLast
              · by_cases long : maxNameBytes < (Utf8.encode part).length
                · simp only [if_neg up, if_pos long]
                  exact nofun
                · simp only [if_neg up, if_neg long]
                  exact ih (here ++ [part])

theorem locate_eq_ok_iff {store : FileStore} {path : Path} {place : Place} :
    store.locate path = .ok place ↔
      '\x00' ∉ path.toText ∧ (Utf8.encode path.toText).length ≤ maxPathBytes ∧
        store.walk [] (store.workingDirectory.within path).parts = .ok place := by
  unfold locate
  by_cases null : '\x00' ∈ path.toText
  · simp [null]
  · by_cases long : maxPathBytes < (Utf8.encode path.toText).length
    · simp [null, long, Nat.not_le.mpr long]
    · simp [null, long, Nat.not_lt.mp long]

theorem locate_null_iff {store : FileStore} {path : Path} :
    store.locate path = .error .nullCharacter ↔ '\x00' ∈ path.toText := by
  unfold locate
  by_cases null : '\x00' ∈ path.toText
  · simp [null]
  · have walked := store.walk_ne_null [] (store.workingDirectory.within path).parts
    by_cases long : maxPathBytes < (Utf8.encode path.toText).length
    · simp [null, long]
    · simp [null, long, walked]

theorem locate_kept {store after : FileStore} {path : Path} {place : Place}
    (stays : after.workingDirectory = store.workingDirectory)
    (kept : ∀ place, store.entryAt? place = some .directory →
      after.entryAt? place = some .directory)
    (located : store.locate path = .ok place) : after.locate path = .ok place := by
  obtain ⟨clear, short, walked⟩ := locate_eq_ok_iff.mp located
  refine locate_eq_ok_iff.mpr ⟨clear, short, ?_⟩
  rw [stays]
  exact walk_kept kept walked

/-- A name in a directory leads to an entry of that directory. -/
theorem locate_child {store : FileStore} {directory : Path} {name : Text} {place inside : Place}
    (named : Path.IsName name) (located : store.locate directory = .ok place)
    (found : store.locate (directory.child name) = .ok inside) : inside = place ++ [name] := by
  obtain ⟨_clear, _short, walked⟩ := locate_eq_ok_iff.mp located
  obtain ⟨_clear, _short, further⟩ := locate_eq_ok_iff.mp found
  rw [Path.within_child_name _ directory named, walk_append, walked] at further
  change store.walk place [name] = .ok inside at further
  have lower : name ≠ "..".toList := named.lower
  rw [walk] at further
  cases stands : store.entryAt? place with
  | none =>
      rw [stands] at further
      cases further
  | some entry =>
      cases entry with
      | file content executable =>
          rw [stands] at further
          cases further
      | directory =>
          rw [stands] at further
          by_cases long : maxNameBytes < (Utf8.encode name).length
          · simp only [if_neg lower, if_pos long] at further
            cases further
          · simp only [if_neg lower, if_neg long] at further
            cases further
            rfl

/-- A directory in which a file is found is found itself. -/
theorem locate_of_locate_child {store : FileStore} {directory : Path} {name : Text}
    {inside : Place} (named : Path.IsName name)
    (found : store.locate (directory.child name) = .ok inside) :
    ∃ place, store.locate directory = .ok place ∧ store.entryAt? place = some .directory ∧
      inside = place ++ [name] := by
  obtain ⟨clear, short, walked⟩ := locate_eq_ok_iff.mp found
  rw [Path.within_child_name _ directory named, walk_append] at walked
  obtain ⟨place, reached, further⟩ := Attempt.bind_eq_ok_iff.mp walked
  rw [Path.mem_toText (by decide) (by decide), Path.child_name directory named] at clear
  have located : store.locate directory = .ok place := by
    have shorter := Nat.le_trans (Path.length_toText_le_child directory named) short
    refine locate_eq_ok_iff.mpr ⟨?_, shorter, reached⟩
    rw [Path.mem_toText (by decide) (by decide)]
    rintro ⟨part, member, null⟩
    exact clear ⟨part, List.mem_append_left [name] member, null⟩
  refine ⟨place, located, ?_, locate_child named located found⟩
  rw [walk] at further
  cases stands : store.entryAt? place with
  | none =>
      rw [stands] at further
      cases further
  | some entry =>
      cases entry with
      | directory => rfl
      | file content executable =>
          rw [stands] at further
          cases further

section
variable {store after : FileStore} {path : Path} {place : Place}

private theorem bind_locate_null_iff {α : Type} {next : Place → Except StorageFailure α}
    (sound : ∀ place, next place ≠ .error .nullCharacter) :
    (store.locate path).bind next = .error .nullCharacter ↔ '\x00' ∈ path.toText := by
  rw [← @locate_null_iff store path]
  cases store.locate path with
  | error failure => simp [Except.bind]
  | ok place => simp [Except.bind, sound place]

theorem makeDirectory_eq_ok_iff :
    store.makeDirectory path = .ok after ↔
      ∃ place, store.locate path = .ok place ∧ store.entryAt? place = none ∧
        after = store.put place .directory := by
  unfold makeDirectory
  cases located : store.locate path with
  | error failure => simp [bind, Except.bind]
  | ok place =>
      cases stands : store.entryAt? place with
      | none => simp [bind, Except.bind, pure, Except.pure, stands, eq_comm]
      | some entry => simp [bind, Except.bind, stands]

theorem makeDirectory_null_iff :
    store.makeDirectory path = .error .nullCharacter ↔ '\x00' ∈ path.toText := by
  refine bind_locate_null_iff ?_
  intro place
  cases store.entryAt? place with
  | none => exact nofun
  | some entry => exact nofun

/-- Writing puts a file where the path leads, unless there is a directory. -/
theorem write_eq_ok {content : Bytes} (wrote : store.write path content = .ok after) :
    ∃ place executable, store.locate path = .ok place ∧
      store.entryAt? place ≠ some .directory ∧
      after = store.put place (.file content executable) := by
  obtain ⟨place, located, wrote⟩ := Attempt.bind_eq_ok_iff.mp wrote
  cases stands : store.entryAt? place with
  | some entry =>
      rw [stands] at wrote
      cases entry with
      | directory => cases wrote
      | file old executable =>
          cases wrote
          exact ⟨place, executable, located, by simp [stands], rfl⟩
  | none =>
      simp only [stands] at wrote
      cases above : store.entryAt? place.dropLast with
      | none =>
          rw [above] at wrote
          cases wrote
      | some entry =>
          rw [above] at wrote
          cases entry with
          | file old executable => cases wrote
          | directory =>
              cases wrote
              exact ⟨place, false, located, by simp [stands], rfl⟩

theorem write_null_iff {content : Bytes} :
    store.write path content = .error .nullCharacter ↔ '\x00' ∈ path.toText := by
  refine bind_locate_null_iff ?_
  intro place
  cases store.entryAt? place with
  | some entry => cases entry <;> exact nofun
  | none =>
      simp only
      cases store.entryAt? place.dropLast with
      | none => exact nofun
      | some entry => cases entry <;> exact nofun

theorem read_null_iff :
    store.read path = .error .nullCharacter ↔ '\x00' ∈ path.toText := by
  rw [← @locate_null_iff store path]
  unfold read entry
  cases store.locate path with
  | error failure => simp [bind, Except.bind]
  | ok place =>
      simp only [bind, Except.bind]
      cases store.entryAt? place with
      | none => exact ⟨nofun, nofun⟩
      | some entry => cases entry <;> exact ⟨nofun, nofun⟩

theorem removeTree_eq_ok (located : store.locate path = .ok place)
    (stands : store.entryAt? place = some .directory) :
    store.removeTree path = .ok (store.without place) := by
  unfold removeTree
  rw [located]
  simp only [bind, Except.bind, stands]
  rfl

end

theorem read_eq_ok_iff {store : FileStore} {path : Path} {content : Bytes} :
    store.read path = .ok content ↔
      ∃ place executable, store.locate path = .ok place ∧
        store.entryAt? place = some (.file content executable) := by
  unfold read entry
  cases located : store.locate path with
  | error failure => simp [bind, Except.bind]
  | ok place =>
      simp only [bind, Except.bind]
      cases stands : store.entryAt? place with
      | none => simp [stands]
      | some entry =>
          cases entry with
          | directory => simp [stands, pure, Except.pure]
          | file held executable =>
              simp only [pure, Except.pure, Except.ok.injEq]
              constructor
              · rintro rfl
                exact ⟨place, executable, rfl, stands⟩
              · rintro ⟨_, _, rfl, again⟩
                rw [stands] at again
                cases again
                rfl

/-- What was written is read again. -/
theorem read_of_write {store after : FileStore} {path : Path} {content : Bytes}
    (wrote : store.write path content = .ok after) : after.read path = .ok content := by
  obtain ⟨place, executable, located, free, rfl⟩ := write_eq_ok wrote
  have inner : place ≠ [] := by
    rintro rfl
    exact free rfl
  have entries := entryAt?_put store inner (.file content executable)
  refine read_eq_ok_iff.mpr ⟨place, executable, ?_, ?_⟩
  · have kept : ∀ other, store.entryAt? other = some .directory →
        (store.put place (.file content executable)).entryAt? other = some .directory := by
      intro other stands
      rw [entries, if_neg]
      · exact stands
      · rintro rfl
        exact free stands
    have stays : (store.put place (.file content executable)).workingDirectory =
        store.workingDirectory := rfl
    exact locate_kept stays kept located
  · rw [entries, if_pos rfl]

theorem removeTree_of_read_child {store : FileStore} {directory : Path} {name : Text}
    {content : Bytes} (named : Path.IsName name)
    (read : store.read (directory.child name) = .ok content) :
    ∃ after, store.removeTree directory = .ok after := by
  obtain ⟨_inside, _executable, found, _filled⟩ := read_eq_ok_iff.mp read
  obtain ⟨place, located, stands, _below⟩ := locate_of_locate_child named found
  exact ⟨_, removeTree_eq_ok located stands⟩

end FileStore
end ShaderBridge
