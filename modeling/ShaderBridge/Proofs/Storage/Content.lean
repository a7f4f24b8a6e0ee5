import ShaderBridge.Proofs.Storage.FileStore
set_option autoImplicit false

/-! What stands at one place of a store. Whether a file can be written there is a matter of the
place alone, not of what is to be written. -/

namespace ShaderBridge.FileStore

/-- The content of the file at a place; none where there is no file. -/
def contentAt? (store : FileStore) (place : Place) : Option Bytes :=
  match store.entryAt? place with
  | some (.file content _) => some content
  | _ => none

def Takes (store : FileStore) (place : Place) : Prop :=
  store.entryAt? place ≠ some .directory ∧
    (store.entryAt? place = none → store.entryAt? place.dropLast = some .directory)

def executableAt (store : FileStore) (place : Place) : Bool :=
  match store.entryAt? place with
  | some (.file _ executable) => executable
  | _ => false

theorem Takes.inner {store : FileStore} {place : Place} (takes : store.Takes place) :
    place ≠ [] := by
  rintro rfl
  exact takes.1 rfl

section
variable {store after : FileStore} {path : Path} {content : Bytes}

theorem write_eq_ok_iff : store.write path content = .ok after ↔
    ∃ place, store.locate path = .ok place ∧ store.Takes place ∧
      after = store.put place (.file content (store.executableAt place)) := by
  refine Iff.trans Attempt.bind_eq_ok_iff (exists_congr fun place => and_congr_right fun _ => ?_)
  unfold Takes executableAt
  cases store.entryAt? place with
  | some entry =>
      cases entry with
      | directory => simp [throw, throwThe, MonadExceptOf.throw]
      | file old executable => simp [pure, Except.pure, eq_comm]
  | none =>
      cases store.entryAt? place.dropLast with
      | none => simp [throw, throwThe, MonadExceptOf.throw]
      | some entry =>
          cases entry with
          | file old executable => simp [throw, throwThe, MonadExceptOf.throw]
          | directory => simp [pure, Except.pure, eq_comm]

theorem write_eq_error_of_content {failure : StorageFailure}
    (rejected : store.write path content = .error failure) (other : Bytes) :
    store.write path other = .error failure := by
  rcases Attempt.bind_eq_error_iff.mp rejected with unfound | ⟨place, located, rejected⟩
  · exact Attempt.bind_eq_error_iff.mpr (.inl unfound)
  · refine Attempt.bind_eq_error_iff.mpr (.inr ⟨place, located, ?_⟩)
    cases stands : store.entryAt? place with
    | some entry =>
        rw [stands] at rejected
        cases entry with
        | directory => exact rejected
        | file old executable => cases rejected
    | none =>
        simp only [stands] at rejected ⊢
        cases above : store.entryAt? place.dropLast with
        | none =>
            rw [above] at rejected
            exact rejected
        | some entry =>
            rw [above] at rejected
            cases entry with
            | directory => cases rejected
            | file old executable => exact rejected

end

section
variable {store : FileStore} {place : Place} {content : Bytes} {executable : Bool}

theorem contentAt?_put (takes : store.Takes place) :
    (store.put place (.file content executable)).contentAt? place = some content := by
  unfold contentAt?
  rw [entryAt?_put store takes.inner, if_pos rfl]

theorem Takes.put (takes : store.Takes place) :
    (store.put place (.file content executable)).Takes place := by
  unfold Takes
  rw [entryAt?_put store takes.inner, if_pos rfl]
  exact ⟨nofun, nofun⟩

/-- Files stand in directories: putting one where it can be taken leaves a tree. -/
theorem IsTree.put (tree : store.IsTree) (takes : store.Takes place) :
    (store.put place (.file content executable)).IsTree := by
  intro above part filled
  rw [entryAt?_put store takes.inner] at filled ⊢
  have leaf : above ≠ place := by
    rintro rfl
    have apart : above ++ [part] ≠ above := by simp
    rw [if_neg apart] at filled
    exact takes.1 (tree above part filled)
  rw [if_neg leaf]
  by_cases here : above ++ [part] = place
  · cases stands : store.entryAt? place with
    | none =>
        have parent := takes.2 stands
        rwa [← here, List.dropLast_concat] at parent
    | some entry =>
        refine tree above part ?_
        rw [here, stands]
        exact nofun
  · rw [if_neg here] at filled
    exact tree above part filled

end
end ShaderBridge.FileStore
