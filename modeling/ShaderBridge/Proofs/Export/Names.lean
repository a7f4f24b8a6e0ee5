import Mathlib.Data.List.Nodup
import Mathlib.Data.Set.Function
import ShaderBridge.Proofs.Export.Plain
set_option autoImplicit false

/-! Renaming keeps names apart. A table of identifiers with distinct new names changes the
identifiers of a text one by one, no two of them to one name, and nothing else
(`renamesApart_rename`). An entry whose new name is an identifier of the text already is left aside,
so a new name never meets one that stays. Passes of this kind compose, and the layout of an export
moves white space alone; so the WGSL and the Metal export keep different names different. -/

namespace ShaderBridge

namespace Piece

/-- A piece with its match changed. -/
def map (change : Text → Text) : Piece → Piece
  | kept char => kept char
  | found text => found (change text)

end Piece

namespace Text

theorem words_normalizeNewlines (text : Text) : words (normalizeNewlines text) = words text := by
  by_cases turned : '\r' ∈ text
  · obtain ⟨front, rest, rfl, free⟩ := List.eq_append_cons_of_mem turned
    have mark : isWord '\r' = false := by decide
    have outside : ('\r' :: rest).head? ≠ some '\n' :=
      fun same => absurd (Option.some.inj same) (by decide)
    rw [normalizeNewlines_append front _ (.inr outside), normalizeNewlines_eq_self free,
      words_append_mark mark]
    -- a line feed behind the carriage return is one line end with it
    have tail : words (normalizeNewlines ('\r' :: rest)) = words rest := by
      cases rest with
      | nil => rfl
      | cons char rest =>
          by_cases feed : char = '\n'
          · subst feed
            rw [normalizeNewlines]
            exact words_normalizeNewlines rest
          · rw [normalizeNewlines_cons fun _more _same split => feed (List.cons.inj split).1]
            exact words_normalizeNewlines (char :: rest)
    have apart : startsWord (normalizeNewlines ('\r' :: rest)) = false := by
      cases rest with
      | nil => rfl
      | cons char rest =>
          by_cases feed : char = '\n'
          · subst feed
            rfl
          · rw [normalizeNewlines_cons fun _more _same split => feed (List.cons.inj split).1]
            rfl
    rw [words_append fun _ends => apart, tail]
  · rw [normalizeNewlines_eq_self turned]
termination_by text.length

end Text

namespace Code

open Text (IsOneWord tokens words)

/-- The other text is the first with each identifier changed, no two of them to one name. Every
other character stays as it is. -/
structure RenamesApart (change : Text → Text) (text other : Text) : Prop where
  pieces : identifiers.pieces other = (identifiers.pieces text).map (Piece.map change)
  apart : Set.InjOn change {name | name ∈ identifiers.occurrences text}

/-- The identifiers of the other text are those of the first, each changed, no two of them to one
name. -/
def KeepsNamesApart (text other : Text) : Prop :=
  ∃ change, identifiers.occurrences other = (identifiers.occurrences text).map change ∧
    Set.InjOn change {name | name ∈ identifiers.occurrences text}

theorem occurrences_identifiers (text : Text) :
    identifiers.occurrences text = (words text).filter isIdentifier :=
  occurrences_of_readsWord readsWord_identifier text

section
variable {change : Text → Text} {text other third : Text}

/-- Words that are changed one by one, identifiers to identifiers and no other word at all. -/
theorem pieces_of_tokens_map (same : tokens other = (tokens text).map (Token.map change))
    (named : ∀ word, isIdentifier word = true → isIdentifier (change word) = true)
    (fixed : ∀ word, isIdentifier word = false → change word = word) :
    identifiers.pieces other = (identifiers.pieces text).map (Piece.map change) := by
  unfold identifiers Pattern.pieces
  rw [piecesFrom_of_readsWord readsWord_identifier none other nofun,
    piecesFrom_of_readsWord readsWord_identifier none text nofun, same, List.flatMap_map,
    List.map_flatMap]
  refine congrArg (fun cut => (tokens text).flatMap cut) (funext fun token => ?_)
  cases token with
  | mark char => rfl
  | word word =>
      simp only [Token.map, Part.ofToken]
      cases accepted : Scan.identifier.accepts word with
      | true =>
          have kept : Scan.identifier.accepts (change word) = true := named word accepted
          rw [if_pos kept, if_pos rfl]
          rfl
      | false =>
          rw [fixed word accepted, accepted, if_neg Bool.false_ne_true]
          simp only [Part.pieces, Token.text, List.map_map]
          rfl

theorem occurrences_of_pieces_map
    (same : identifiers.pieces other = (identifiers.pieces text).map (Piece.map change)) :
    identifiers.occurrences other = (identifiers.occurrences text).map change := by
  unfold Pattern.occurrences
  rw [same, List.filterMap_map, List.map_filterMap]
  refine congrArg (fun read => List.filterMap read (identifiers.pieces text)) (funext fun piece => ?_)
  cases piece <;> rfl

theorem RenamesApart.keeps (renames : RenamesApart change text other) :
    KeepsNamesApart text other :=
  ⟨change, occurrences_of_pieces_map renames.pieces, renames.apart⟩

theorem KeepsNamesApart.trans (first : KeepsNamesApart text other)
    (second : KeepsNamesApart other third) : KeepsNamesApart text third := by
  obtain ⟨change, same, apart⟩ := first
  obtain ⟨more, equal, distant⟩ := second
  refine ⟨more ∘ change, by rw [equal, same, List.map_map], ?_⟩
  refine distant.comp apart fun name member => ?_
  change change name ∈ identifiers.occurrences other
  rw [same]
  exact List.mem_map_of_mem member

theorem KeepsNamesApart.of_words (same : words other = words text) :
    KeepsNamesApart text other := by
  refine ⟨id, ?_, Set.injOn_id _⟩
  rw [occurrences_identifiers, occurrences_identifiers, same, List.map_id]

end

namespace Renames

/-- Every entry renames an identifier to an identifier. -/
def Named (table : Renames) : Prop :=
  ∀ entry ∈ table, isIdentifier entry.1 = true ∧ isIdentifier entry.2 = true

def Distinct (table : Renames) : Prop :=
  ∀ first ∈ table, ∀ second ∈ table, first.2 = second.2 → first.1 = second.1

theorem Named.ofWords {table : Renames} (named : table.Named) : table.OfWords := by
  intro entry member
  obtain ⟨old, new⟩ := named entry member
  exact ⟨(isIdentifier_iff.mp old).1, new⟩

theorem distinct_of_nodup {table : Renames} (values : (table.map Prod.snd).Nodup) :
    table.Distinct := by
  intro first member second known same
  rw [List.inj_on_of_nodup_map values member known same]

section
variable {table : Renames} (named : table.Named) {text : Text}
include named

theorem Named.mem_active {old new : Text} :
    (old, new) ∈ table.active text ↔
      (old, new) ∈ table ∧ old ≠ new ∧ new ∉ identifiers.occurrences text := by
  rw [named.ofWords.mem_active]
  refine and_congr_right fun member => and_congr_right fun _apart => not_congr ?_
  rw [mem_identifiers]
  exact (and_iff_left (named _ member).2).symm

/-- A name becomes its new name, unless that is an identifier of the text already. -/
theorem Named.applied_eq (keys : table.keys.Nodup) {old new : Text}
    (entry : (old, new) ∈ table) :
    table.applied text old = if new ∈ identifiers.occurrences text then old else new := by
  have unique : ∀ {other : Text}, (old, other) ∈ table → other = new := fun known =>
    congrArg Prod.snd (List.inj_on_of_nodup_map keys known entry rfl)
  rcases table.applied_cases text old with active | ⟨stays, missing⟩
  · obtain ⟨known, _apart, unused⟩ := named.mem_active.mp active
    rw [unique known] at unused ⊢
    rw [if_neg unused]
  · rw [stays]
    split
    · rfl
    · next unused =>
        by_contra apart
        exact missing (mem_keys.mpr ⟨new, named.mem_active.mpr ⟨entry, apart, unused⟩⟩)

omit named in
theorem applied_of_not_mem {word : Text} (missing : word ∉ table.keys) :
    table.applied text word = word := by
  unfold applied
  rw [lookup_eq_none_iff.mpr fun member => missing (table.keys_active_subset text member)]
  rfl

omit named in
theorem applied_of_mem_active {old new : Text} (active : (old, new) ∈ table.active text)
    (unique : ∀ other, (old, other) ∈ table → other = new) : table.applied text old = new := by
  rcases table.applied_cases text old with same | ⟨_stays, missing⟩
  · exact unique _ (List.mem_filter.mp same).1
  · exact absurd (mem_keys.mpr ⟨new, active⟩) missing

/-- A new name is no identifier of the text, so it meets no name that stays: two names become one only
if both are renamed to it. -/
theorem Named.eq_or_active_of_applied_eq {first second : Text}
    (early : first ∈ identifiers.occurrences text) (late : second ∈ identifiers.occurrences text)
    (same : table.applied text first = table.applied text second) :
    first = second ∨
      ∃ new, (first, new) ∈ table.active text ∧ (second, new) ∈ table.active text := by
  have settled : ∀ {name other : Text}, (name, table.applied text name) ∈ table.active text →
      other ∈ identifiers.occurrences text → table.applied text other = other →
        table.applied text name ≠ table.applied text other := by
    intro name other active member stays same
    rw [same, stays] at active
    exact (named.mem_active.mp active).2.2 member
  rcases table.applied_cases text first with renamed | ⟨stays, _missing⟩
  · rcases table.applied_cases text second with other | ⟨keeps, _missing⟩
    · exact .inr ⟨_, renamed, same ▸ other⟩
    · exact absurd same (settled renamed late keeps)
  · rcases table.applied_cases text second with other | ⟨keeps, _missing⟩
    · exact absurd same.symm (settled other early stays)
    · exact .inl (stays.symm.trans (same.trans keeps))

end

end Renames

theorem pieces_rename {table : Renames} (named : table.Named) (text : Text) :
    identifiers.pieces (rename table text) =
      (identifiers.pieces text).map (Piece.map (table.applied text)) := by
  refine pieces_of_tokens_map (tokens_rename named.ofWords text) ?_ ?_
  · intro word identifier
    rcases table.applied_cases text word with active | ⟨stays, _missing⟩
    · exact (named _ (named.mem_active.mp active).1).2
    · rwa [stays]
  · intro word other
    refine Renames.applied_of_not_mem fun member => ?_
    obtain ⟨new, entry⟩ := Renames.mem_keys.mp member
    exact absurd (other.symm.trans (named _ entry).1) nofun

theorem renamesApart_rename {table : Renames} (named : table.Named) (distinct : table.Distinct)
    (text : Text) : RenamesApart (table.applied text) text (rename table text) where
  pieces := pieces_rename named text
  apart := by
    intro name member other known same
    rcases named.eq_or_active_of_applied_eq member known same with equal | ⟨new, first, second⟩
    · exact equal
    · exact distinct _ (named.mem_active.mp first).1 _ (named.mem_active.mp second).1 rfl

theorem renamesApart_renameTemporaries (text : Text) :
    ∃ change, RenamesApart change text (renameTemporaries text) := by
  obtain ⟨table, same, covers⟩ := renameTemporaries_eq text
  have low : isIdentifierStart '_' = true := by decide
  have named : table.Named := by
    intro entry member
    have temporary := covers.within member
    refine ⟨isIdentifier_iff.mpr ⟨isRenaming_temporary.oneWord temporary, ?_⟩,
      isRenaming_temporary.identifier temporary⟩
    obtain ⟨digits, _number, old, _new⟩ := temporary
    rw [old]
    exact low
  have distinct : table.Distinct := by
    intro first member second known equal
    obtain ⟨digits, _number, old, new⟩ := covers.within member
    obtain ⟨numbers, _numeral, name, value⟩ := covers.within known
    rw [new, value] at equal
    rw [old, name, (List.cons.inj equal).2]
  rw [same]
  exact ⟨_, renamesApart_rename named distinct text⟩

end Code

namespace Export

open Code

theorem named_mangledNames (mode : ExecutionMode) :
    (mangledNames mode).Named ∧ ((mangledNames mode).map Prod.snd).Nodup := by
  unfold Renames.Named
  cases mode <;> decide +kernel

private theorem keepsNamesApart_finish (mode : ExecutionMode) (text : Text) :
    KeepsNamesApart text (finish (renameTemporaries (rename (mangledNames mode) text))) := by
  obtain ⟨named, values⟩ := named_mangledNames mode
  have declared := renamesApart_rename named (Renames.distinct_of_nodup values) text
  obtain ⟨change, counted⟩ := renamesApart_renameTemporaries (rename (mangledNames mode) text)
  exact (declared.keeps.trans counted.keeps).trans (.of_words (words_finish _))

/-- Renaming by a table of identifiers with distinct new names changes the identifiers one by one by
a change that is injective on them, gives a name its new name exactly where that is no identifier of
the text, and leaves everything else as it is. So the names of temporaries and the exports that give
declared names back keep different names different. -/
theorem rename_keeps_names_apart {table : Renames} (named : table.Named)
    (keys : table.keys.Nodup) (values : (table.map Prod.snd).Nodup) (text : Text)
    (mode : ExecutionMode) :
    (∃ change, RenamesApart change text (rename table text) ∧
      (∀ old new, (old, new) ∈ table →
        change old = if new ∈ identifiers.occurrences text then old else new) ∧
      ∀ name, name ∉ table.keys → change name = name) ∧
    (∃ change, RenamesApart change text (renameTemporaries text)) ∧
    KeepsNamesApart text (wgsl mode text) ∧
    KeepsNamesApart (markerLine.remove text.normalizeNewlines) (metal mode text) := by
  refine ⟨⟨table.applied text, ?_, ?_, ?_⟩, renamesApart_renameTemporaries text, ?_, ?_⟩
  · exact renamesApart_rename named (Renames.distinct_of_nodup values) text
  · exact fun old new entry => named.applied_eq keys entry
  · exact fun name missing => Renames.applied_of_not_mem missing
  · exact (KeepsNamesApart.of_words (Text.words_normalizeNewlines text)).trans
      (keepsNamesApart_finish mode text.normalizeNewlines)
  · exact keepsNamesApart_finish mode _

/-- A swap of two names that are both in use, beside a name that is free: the swap is left aside. -/
theorem rename_keeps_names_apart_of_swap :
    let table : Renames := [("a", "b"), ("b", "a"), ("c", "d")]
    let code : Text := "a + b * c"
    (table.Named ∧ table.keys.Nodup ∧ (table.map Prod.snd).Nodup) ∧
      rename table code = "a + b * d" ∧
      ∃ change, RenamesApart change code (rename table code) ∧
        change "a" = "a" ∧ change "b" = "b" ∧ change "c" = "d" := by
  intro table code
  have named : table.Named := by
    unfold Renames.Named
    decide +kernel
  have keys : table.keys.Nodup := by decide
  have values : (table.map Prod.snd).Nodup := by decide
  refine ⟨⟨named, keys, values⟩, by decide +kernel, ?_⟩
  obtain ⟨⟨change, renames, becomes, _fixed⟩, _others⟩ :=
    rename_keeps_names_apart named keys values code .shaderToy
  refine ⟨change, renames, ?_, ?_, ?_⟩
  · rw [becomes "a" "b" (by decide)]
    decide +kernel
  · rw [becomes "b" "a" (by decide)]
    decide +kernel
  · rw [becomes "c" "d" (by decide)]
    decide +kernel

end Export
end ShaderBridge
