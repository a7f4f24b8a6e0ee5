import ShaderBridge.Proofs.Export.Names
set_option autoImplicit false

/-! Which names the HLSL export makes one. A member of a block stands in the artifact with the number
of its block in front, and each of them gets its declared name back while that name is free; so the
members of two blocks become one name if both are declared under it. Nothing else is ever made one
(`exportArtifact_hlsl_same_name_iff`). -/

namespace ShaderBridge
namespace Export

open Code

/-- Members of blocks that are declared under one name, where that name stands in the text neither
as it was declared nor with a zero behind it. -/
def Collapse (mode : ExecutionMode) (text first second : Text) : Prop :=
  ∃ name, Flattened mode first name ∧ Flattened mode second name ∧
    name ∉ identifiers.occurrences text ∧ name ++ "_0" ∉ identifiers.occurrences text

private theorem mangledNames_numbered (mode : ExecutionMode) :
    ∀ entry ∈ mangledNames mode, entry.1 = entry.2 ++ "_0" ∧ entry.1.head? ≠ some '_' := by
  cases mode <;> decide +kernel

private theorem mangled_of_modeSymbols (mode : ExecutionMode) :
    ∀ symbol ∈ modeSymbols mode, Mangled mode (symbol.name ++ "_0") symbol.name := by
  unfold Mangled
  cases mode <;> decide +kernel

private theorem Mangled.unique {mode : ExecutionMode} {old new other : Text}
    (first : Mangled mode old new) (second : Mangled mode old other) : new = other := by
  obtain ⟨same, _plain⟩ := mangledNames_numbered mode _ first
  obtain ⟨equal, _plain⟩ := mangledNames_numbered mode _ second
  exact List.append_cancel_right (same.symm.trans equal)

private theorem named_flattened {mode : ExecutionMode} {old new : Text}
    (flattened : Flattened mode old new) : isIdentifier old = true ∧ isIdentifier new = true := by
  refine ⟨isIdentifier_iff.mpr ⟨(isRenaming_flattened mode).oneWord flattened, ?_⟩,
    (isRenaming_flattened mode).identifier flattened⟩
  obtain ⟨_symbol, _member, _digits, _number, rfl, _name⟩ := flattened
  rfl

section
variable {mode : ExecutionMode} {text : Text}

private theorem mem_rename_mangledNames_iff {old name : Text} (flattened : Flattened mode old name) :
    name ∈ identifiers.occurrences (rename (mangledNames mode) text) ↔
      name ∈ identifiers.occurrences text ∨ name ++ "_0" ∈ identifiers.occurrences text := by
  obtain ⟨symbol, member, _digits, _number, _old, rfl⟩ := flattened
  obtain ⟨named, _values⟩ := named_mangledNames mode
  have mangled := mangled_of_modeSymbols mode symbol member
  rw [occurrences_of_pieces_map (pieces_rename named text), List.mem_map]
  constructor
  · rintro ⟨word, source, same⟩
    rcases (mangledNames mode).applied_cases text word with active | ⟨stays, _missing⟩
    · rw [same] at active
      rw [← (mangledNames_numbered mode _ (named.mem_active.mp active).1).1]
      exact .inr source
    · rw [← same, stays]
      exact .inl source
  · intro either
    by_cases used : symbol.name ∈ identifiers.occurrences text
    · refine ⟨symbol.name, used, Renames.applied_of_not_mem fun key => ?_⟩
      obtain ⟨other, entry⟩ := Renames.mem_keys.mp key
      exact (isRenaming_mangled mode).fresh mangled entry rfl
    · have apart : symbol.name ++ "_0" ≠ symbol.name :=
        ((isRenaming_mangled mode).fresh mangled mangled).symm
      have active := named.mem_active.mpr ⟨mangled, apart, used⟩
      exact ⟨_, either.resolve_left used,
        Renames.applied_of_mem_active active fun _other entry => Mangled.unique entry mangled⟩

private theorem flattened_applied_mangledNames_iff {word name : Text} :
    Flattened mode ((mangledNames mode).applied text word) name ↔ Flattened mode word name := by
  obtain ⟨named, _values⟩ := named_mangledNames mode
  rcases (mangledNames mode).applied_cases text word with active | ⟨stays, _missing⟩
  · have mangled : Mangled mode word _ := (named.mem_active.mp active).1
    refine iff_of_false (fun flattened => ?_) fun flattened => ?_
    · exact (apart_mangled_flattened mode mangled flattened).2 rfl
    · obtain ⟨_symbol, _member, _digits, _number, rfl, _name⟩ := flattened
      exact (mangledNames_numbered mode _ mangled).2 rfl
  · rw [stays]

private theorem applied_flattenedNames_eq_iff {first second : Text}
    (early : first ∈ identifiers.occurrences text) (late : second ∈ identifiers.occurrences text) :
    (flattenedNames mode text).applied text first = (flattenedNames mode text).applied text second ↔
      first = second ∨ ∃ name, Flattened mode first name ∧ Flattened mode second name ∧
        name ∉ identifiers.occurrences text := by
  have covers := covers_flattenedNames mode text
  have named : (flattenedNames mode text).Named := fun _entry member =>
    named_flattened (covers.within member)
  have active : ∀ {word name : Text}, word ∈ identifiers.occurrences text →
      ((word, name) ∈ (flattenedNames mode text).active text ↔
        Flattened mode word name ∧ name ∉ identifiers.occurrences text) := by
    intro word name member
    rw [named.mem_active]
    constructor
    · rintro ⟨entry, _apart, unused⟩
      exact ⟨covers.within entry, unused⟩
    · rintro ⟨flattened, unused⟩
      exact ⟨covers.complete flattened (mem_identifiers.mp member).1,
        fun same => unused (same ▸ member), unused⟩
  constructor
  · intro same
    refine (named.eq_or_active_of_applied_eq early late same).imp_right ?_
    rintro ⟨name, renamed, other⟩
    obtain ⟨flattened, unused⟩ := (active early).mp renamed
    exact ⟨name, flattened, ((active late).mp other).1, unused⟩
  · rintro (rfl | ⟨name, flattened, other, unused⟩)
    · rfl
    · have becomes : ∀ {word}, word ∈ identifiers.occurrences text → Flattened mode word name →
          (flattenedNames mode text).applied text word = name := fun member known =>
        Renames.applied_of_mem_active ((active member).mpr ⟨known, unused⟩)
          fun _other entry => (covers.within entry).unique known
      rw [becomes early flattened, becomes late other]

end

/-- The HLSL export succeeds on every text and changes the identifiers of what is left of it, once the
bookkeeping is stripped, one by one. Two of them have one name in the export if they had one before, or
if they are members of blocks with one declared name that is free, and in no other case. So names are
kept apart exactly if there are no two such members. -/
theorem exportArtifact_hlsl_same_name_iff (mode : ExecutionMode) (artifact : Text) :
    let stripped := stripBookkeeping platformGuards artifact.normalizeNewlines
    ∃ exported change, exportArtifact .hlsl mode artifact = .ok exported ∧
      identifiers.occurrences exported = (identifiers.occurrences stripped).map change ∧
      (∀ first ∈ identifiers.occurrences stripped, ∀ second ∈ identifiers.occurrences stripped,
        (change first = change second ↔ first = second ∨ Collapse mode stripped first second)) ∧
      (KeepsNamesApart stripped exported ↔
        ∀ first ∈ identifiers.occurrences stripped, ∀ second ∈ identifiers.occurrences stripped,
          Collapse mode stripped first second → first = second) := by
  intro stripped
  let given := rename (mangledNames mode) stripped
  let flat := rename (flattenedNames mode given) given
  let declare := (mangledNames mode).applied stripped
  let shorten := (flattenedNames mode given).applied given
  obtain ⟨named, values⟩ := named_mangledNames mode
  have declared := renamesApart_rename named (Renames.distinct_of_nodup values) stripped
  have shortened : identifiers.occurrences flat = (identifiers.occurrences given).map shorten :=
    occurrences_of_pieces_map (pieces_rename
      (fun _entry member => named_flattened ((covers_flattenedNames mode given).within member)) given)
  obtain ⟨count, counted⟩ := renamesApart_renameTemporaries flat
  have kept : ∀ {name}, name ∈ identifiers.occurrences stripped →
      declare name ∈ identifiers.occurrences given := by
    intro name member
    rw [occurrences_of_pieces_map declared.pieces]
    exact List.mem_map_of_mem member
  have held : ∀ {name}, name ∈ identifiers.occurrences given →
      shorten name ∈ identifiers.occurrences flat := by
    intro name member
    rw [shortened]
    exact List.mem_map_of_mem member
  have same : identifiers.occurrences (hlsl mode artifact) =
      (identifiers.occurrences stripped).map (count ∘ shorten ∘ declare) := by
    calc identifiers.occurrences (hlsl mode artifact)
        = identifiers.occurrences (renameTemporaries flat) := by
          rw [occurrences_identifiers, occurrences_identifiers]
          exact congrArg _ (words_finish _)
      _ = (identifiers.occurrences flat).map count := occurrences_of_pieces_map counted.pieces
      _ = (identifiers.occurrences stripped).map (count ∘ shorten ∘ declare) := by
          rw [shortened, occurrences_of_pieces_map declared.pieces, List.map_map, List.map_map]
          rfl
  have pairs : ∀ first ∈ identifiers.occurrences stripped,
      ∀ second ∈ identifiers.occurrences stripped,
        ((count ∘ shorten ∘ declare) first = (count ∘ shorten ∘ declare) second ↔
          first = second ∨ Collapse mode stripped first second) := by
    intro first early second late
    calc count (shorten (declare first)) = count (shorten (declare second))
        ↔ shorten (declare first) = shorten (declare second) :=
          counted.apart.eq_iff (held (kept early)) (held (kept late))
      _ ↔ declare first = declare second ∨ ∃ name, Flattened mode (declare first) name ∧
            Flattened mode (declare second) name ∧ name ∉ identifiers.occurrences given :=
          applied_flattenedNames_eq_iff (kept early) (kept late)
      _ ↔ first = second ∨ Collapse mode stripped first second := by
          refine or_congr (declared.apart.eq_iff early late) (exists_congr fun name => ?_)
          rw [flattened_applied_mangledNames_iff, flattened_applied_mangledNames_iff]
          refine and_congr_right fun flattened => and_congr_right fun _other => ?_
          rw [mem_rename_mangledNames_iff flattened, not_or]
  refine ⟨hlsl mode artifact, _, rfl, same, pairs, ?_, ?_⟩
  · rintro ⟨change, equal, apart⟩ first early second late collapse
    -- the change is the one above on every identifier that is there
    have agrees := List.map_inj_left.mp (equal.symm.trans same)
    refine apart early late ?_
    rw [agrees first early, agrees second late]
    exact (pairs first early second late).mpr (.inr collapse)
  · intro distinct
    refine ⟨_, same, fun first early second late equal => ?_⟩
    exact ((pairs first early second late).mp equal).elim id (distinct first early second late)

/-- The times of two blocks become one name. -/
theorem exportArtifact_hlsl_same_name_iff_of_two_blocks :
    let artifact : Text := "float a = _20_uTime + _21_uTime;\n"
    let exported : Text := "float a = uTime + uTime;\n"
    exportArtifact .hlsl .materialLibrary artifact = .ok exported ∧
      Collapse .materialLibrary artifact "_20_uTime" "_21_uTime" ∧
      ¬ KeepsNamesApart artifact exported := by
  intro artifact exported
  have read : exportArtifact .hlsl .materialLibrary artifact = .ok exported := by decide +kernel
  have stripped : stripBookkeeping platformGuards artifact.normalizeNewlines = artifact := by
    decide +kernel
  have declared : ∃ symbol ∈ modeSymbols .materialLibrary, symbol.name = "uTime" := by
    decide +kernel
  have collapse : Collapse .materialLibrary artifact "_20_uTime" "_21_uTime" := by
    obtain ⟨symbol, member, name⟩ := declared
    refine ⟨"uTime", ⟨symbol, member, "20", ⟨by decide, by decide⟩, ?_, name.symm⟩,
      ⟨symbol, member, "21", ⟨by decide, by decide⟩, ?_, name.symm⟩,
      by decide +kernel, by decide +kernel⟩
    · rw [name]
      rfl
    · rw [name]
      rfl
  obtain ⟨once, _change, same, _image, _pairs, kept⟩ :=
    exportArtifact_hlsl_same_name_iff .materialLibrary artifact
  obtain rfl := Except.ok.inj (read.symm.trans same)
  rw [stripped] at kept
  refine ⟨read, collapse, fun apart => ?_⟩
  have equal := kept.mp apart "_20_uTime" (by decide +kernel) "_21_uTime" (by decide +kernel) collapse
  exact absurd equal (by decide)

end Export
end ShaderBridge
