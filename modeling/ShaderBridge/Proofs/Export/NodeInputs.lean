import ShaderBridge.Proofs.Code.Access
import ShaderBridge.Proofs.Export.Unreal
set_option autoImplicit false

/-! The inputs of a node and the accesses that stand for them. Whatever names a compiler gives the
symbols of a module, a name belongs to one input (`NamesSymbol.unique`), no input is part of an access,
and no access reaches into another, so the table of inputs is one of accesses
(`ofAccesses_nodeInputs`). -/

namespace ShaderBridge
namespace Export

open Code
open Text (tokens words)

def reservedWords : List Text :=
  qualifiers ++ statementWords ++ symbolBlocks ++ outputNames ++
    (["float3", "xyz", "Shader", "logic"] : List Text)

def Numbered (word : Text) : Prop :=
  word.head? = some '_' ∧ word.tail.head?.any isDecimalDigit = true

instance (word : Text) : Decidable (Numbered word) := inferInstanceAs (Decidable (_ ∧ _))

/-- The names of the inputs, as the header of a node declares them. -/
def headerNames : List Text :=
  ["Time", "UV", "Normal", "Position", "Resolution", "DeltaTime", "Frame", "FrameRate"]

private theorem symbols_distinct (mode : ExecutionMode) :
    ∀ symbol ∈ uniforms mode ++ varyings mode, ∀ other ∈ uniforms mode ++ varyings mode,
      ∀ first ∈ [symbol.name, symbol.name ++ "_0"], ∀ second ∈ [other.name, other.name ++ "_0"],
        first = second → unrealInput? symbol = unrealInput? other := by
  rw [symbols_eq]
  unfold unrealInput? shaderToyUniforms materialUniforms
  repeat rw [String.toList_ofList]
  cases mode <;> decide +kernel

/-- No name of a symbol is a word of another kind. -/
theorem symbols_plain (mode : ExecutionMode) :
    ∀ symbol ∈ uniforms mode ++ varyings mode,
      (∀ input ∈ unrealInput? symbol, input ∈ headerNames) ∧
        (∀ name ∈ [symbol.name, symbol.name ++ "_0"], name ∉ reservedWords ∧ name ∉ headerNames ∧
          name.head? ≠ some '_' ∧ name.head? ≠ some 't') ∧
          (∃ char ∈ symbol.name, ¬ InEndlessHead char) ∧
            (∃ char ∈ symbol.name, ¬ InBoundedHead char) ∧ ¬ symbol.name <:+: nodeHeader mode := by
  rw [symbols_eq]
  unfold unrealInput? shaderToyUniforms materialUniforms headerNames reservedWords
  cases mode
  all_goals
    unfold nodeHeader resolutionLine
    repeat rw [block_cons]
    rw [block_nil]
    repeat rw [String.toList_ofList]
    decide +kernel

theorem reserved_checked :
    ∀ word ∈ reservedWords ++ headerNames, ¬ Numbered word ∧ word.head? ≠ some 't' := by
  decide

theorem headerNames_checked :
    ∀ name ∈ headerNames, isIdentifier name = true ∧ name ∉ reservedWords ∧
      name.head? ≠ some '_' ∧ (∃ char ∈ name, ¬ InEndlessHead char) ∧
        ∃ char ∈ name, ¬ InBoundedHead char := by
  decide +kernel

theorem plain_of_not_reserved {word : Text} (other : word ∉ reservedWords) : Plain word := by
  refine ⟨fun member => other ?_, fun member => other ?_⟩
  · exact List.mem_append_left _ (List.mem_append_left _ (List.mem_append_left _
      (List.mem_append_left _ member)))
  · exact List.mem_append_left _ (List.mem_append_left _ (List.mem_append_left _
      (List.mem_append_right _ member)))

namespace NamesSymbol

variable {mode : ExecutionMode} {symbol : HeaderSymbol} {member : Text}

theorem listed_or_flat (names : NamesSymbol symbol.name member) :
    member ∈ [symbol.name, symbol.name ++ "_0"] ∨
      ∃ digits, IsNumber digits ∧ member = '_' :: (digits ++ '_' :: symbol.name) := by
  cases names with
  | own => exact .inl List.mem_cons_self
  | zero => exact .inl (List.mem_cons_of_mem _ List.mem_cons_self)
  | flat number => exact .inr ⟨_, number, rfl⟩

theorem isInfix (names : NamesSymbol symbol.name member) : symbol.name <:+: member := by
  cases names with
  | own => exact List.infix_rfl
  | zero => exact (List.prefix_append _ _).isInfix
  | @flat digits _number =>
      exact ⟨'_' :: (digits ++ ['_']), [], by simp⟩

private theorem numbered {digits rest : Text} (number : IsNumber digits) :
    Numbered ('_' :: (digits ++ rest)) := by
  refine ⟨rfl, ?_⟩
  cases digits with
  | nil => exact absurd rfl number.1
  | cons digit digits => exact number.2 digit List.mem_cons_self

variable (known : symbol ∈ uniforms mode ++ varyings mode)
include known

theorem not_mem_reserved (names : NamesSymbol symbol.name member) :
    member ∉ reservedWords ∧ member ∉ headerNames := by
  rcases names.listed_or_flat with listed | ⟨digits, number, rfl⟩
  · obtain ⟨reserved, header, _head⟩ := (symbols_plain mode symbol known).2.1 member listed
    exact ⟨reserved, header⟩
  · refine ⟨fun inside => ?_, fun inside => ?_⟩
    · exact (reserved_checked _ (List.mem_append_left _ inside)).1 (numbered number)
    · exact (reserved_checked _ (List.mem_append_right _ inside)).1 (numbered number)

theorem not_temporary (names : NamesSymbol symbol.name member) {old new : Text}
    (temporary : Temporary old new) : member ≠ old ∧ member ≠ new := by
  obtain ⟨count, _count, rfl, rfl⟩ := temporary
  rcases names.listed_or_flat with listed | ⟨digits, number, rfl⟩
  · obtain ⟨_reserved, _header, low, letter⟩ := (symbols_plain mode symbol known).2.1 member listed
    exact ⟨fun same => low (same ▸ rfl), fun same => letter (same ▸ rfl)⟩
  · refine ⟨fun same => ?_, fun same => ?_⟩
    · have flat : Numbered ('_' :: (digits ++ '_' :: symbol.name)) := numbered number
      have ends := flat.2
      have letter : ¬ (some 'S').any isDecimalDigit = true := by decide
      rw [same] at ends
      exact letter ends
    · cases (List.cons.inj same).1

/-- A name belongs to one input. -/
theorem unique (names : NamesSymbol symbol.name member) {other : HeaderSymbol}
    (listed : other ∈ uniforms mode ++ varyings mode) (same : NamesSymbol other.name member) :
    unrealInput? symbol = unrealInput? other := by
  have symbols : ∀ symbol ∈ uniforms mode ++ varyings mode, symbol ∈ modeSymbols mode := by
    intro symbol known
    rcases List.mem_append.mp known with uniform | varying
    · exact (List.mem_filter.mp uniform).1
    · exact (List.mem_filter.mp varying).1
  have apart : ∀ symbol ∈ uniforms mode ++ varyings mode,
      ∀ name ∈ [symbol.name, symbol.name ++ "_0"], ∀ rest, name ≠ '_' :: rest := by
    rintro symbol known _ listed rest rfl
    exact ((symbols_plain mode symbol known).2.1 _ listed).2.2.1 rfl
  rcases names.listed_or_flat with first | ⟨digits, number, rfl⟩
  · rcases same.listed_or_flat with second | ⟨digits, _number, rfl⟩
    · exact symbols_distinct mode symbol known other listed member first member second rfl
    · exact absurd rfl (apart symbol known _ first _)
  · rcases same.listed_or_flat with second | ⟨others, count, flat⟩
    · exact absurd rfl (apart other listed _ second _)
    · have first : Flattened mode ('_' :: (digits ++ '_' :: symbol.name)) symbol.name :=
        ⟨symbol, symbols symbol known, digits, number, rfl, rfl⟩
      have second : Flattened mode ('_' :: (digits ++ '_' :: symbol.name)) other.name :=
        ⟨other, symbols other listed, others, count, flat, rfl⟩
      have named := first.unique second
      exact symbols_distinct mode symbol known other listed symbol.name List.mem_cons_self
        other.name List.mem_cons_self named

end NamesSymbol

namespace ReadsSymbol

variable {mode : ExecutionMode} {old member new : Text} (reads : ReadsSymbol mode old member new)
include reads

theorem not_mem_reserved : member ∉ reservedWords ∧ member ∉ headerNames := by
  obtain ⟨⟨symbol, known, _given, names⟩, _access⟩ := reads
  exact names.not_mem_reserved known

theorem not_mem_nodeHeader : member ∉ words (nodeHeader mode) := by
  obtain ⟨⟨symbol, known, _given, names⟩, _access⟩ := reads
  intro inside
  have stands := (Text.mem_words_iff_standsIn (Text.oneWord_of_mem_words inside)).mp inside
  exact (symbols_plain mode symbol known).2.2.2.2 (names.isInfix.trans stands.isInfix)

theorem mem_headerNames : new ∈ headerNames := by
  obtain ⟨⟨symbol, known, given, _names⟩, _access⟩ := reads
  exact (symbols_plain mode symbol known).1 new given

theorem tokens_eq :
    tokens old = [.word member] ∨
      ∃ block ∈ symbolBlocks, tokens old = [.word block, .mark '.', .word member] := by
  obtain ⟨⟨symbol, known, _given, names⟩, access⟩ := reads
  have one := names.oneWord (oneWord_symbol known)
  rcases access with rfl | ⟨block, listed, rfl⟩
  · exact .inl (Text.tokens_of_oneWord one)
  · have single : ∀ block ∈ symbolBlocks, tokens block = [.word block] := by decide
    refine .inr ⟨block, listed, ?_⟩
    have whole : block ++ ("." : Text) ++ member = block ++ '.' :: member := List.append_assoc _ _ _
    rw [whole, Text.tokens_append_mark (by decide), single block listed, Text.tokens_of_oneWord one]
    rfl

theorem accesses : Accesses old member := by
  refine ⟨plain_of_not_reserved reads.not_mem_reserved.1, reads.tokens_eq.imp_right ?_⟩
  rintro ⟨block, listed, shape⟩
  have plain : ∀ block ∈ symbolBlocks, Plain block := by decide
  exact ⟨block, plain block listed, shape⟩

theorem eq_or_mem_of_word_mem {word : Text} (inside : .word word ∈ tokens old) :
    word = member ∨ word ∈ symbolBlocks := by
  rcases reads.tokens_eq with shape | ⟨block, listed, shape⟩
  · rw [shape] at inside
    exact .inl (Token.word.inj (List.mem_singleton.mp inside))
  · rw [shape] at inside
    simp only [List.mem_cons, Token.word.injEq, reduceCtorEq, List.not_mem_nil, or_false,
      false_or] at inside
    exact inside.elim (fun same => .inr (same ▸ listed)) .inl

theorem unique {other input : Text} (others : ReadsSymbol mode other member input) : new = input := by
  obtain ⟨⟨symbol, known, given, names⟩, _access⟩ := reads
  obtain ⟨⟨another, listed, value, same⟩, _other⟩ := others
  exact Option.some.inj (given.symm.trans ((names.unique known listed same).trans value))

theorem word_not_mem {word : Text} (other : word ≠ member) (apart : word ∉ symbolBlocks) :
    .word word ∉ tokens old := fun inside =>
  (reads.eq_or_mem_of_word_mem inside).elim other apart

end ReadsSymbol

theorem not_mem_of_mem_headerNames {mode : ExecutionMode} {old member new name : Text}
    (reads : ReadsSymbol mode old member new) (listed : name ∈ headerNames) :
    .word name ∉ tokens old := by
  have apart : ∀ name ∈ headerNames, name ∉ symbolBlocks := by decide
  refine reads.word_not_mem ?_ (apart name listed)
  rintro rfl
  exact reads.not_mem_reserved.2 listed

theorem mem_nodeInputs_iff {mode : ExecutionMode} {preamble old new : Text} :
    (old, new) ∈ nodeInputs mode preamble ↔ AccessesInput mode preamble old new := by
  refine ⟨accessesInput_of_mem_nodeInputs, fun accesses => ?_⟩
  have put : old ∈ (Renames.collect Prod.fst Prod.snd (inputEntries mode preamble) []).keys :=
    Renames.mem_keys_collect (mem_inputEntries_iff.mpr accesses) []
  obtain ⟨value, listed⟩ := Renames.mem_keys.mp put
  rw [← nodeInputs_eq_collect] at listed
  obtain ⟨_member, reads⟩ := accesses.readsSymbol
  obtain ⟨_other, others⟩ := reads_of_mem_nodeInputs listed
  obtain rfl := reads.accesses.unique others.accesses
  obtain rfl := reads.unique others
  exact listed

/-- The table of inputs is one of accesses to inputs. -/
theorem ofAccesses_nodeInputs (mode : ExecutionMode) (preamble : Text) :
    (nodeInputs mode preamble).OfAccesses where
  access entry known := by
    obtain ⟨member, reads⟩ := reads_of_mem_nodeInputs known
    exact ⟨member, reads.accesses⟩
  input entry known := by
    obtain ⟨_member, reads⟩ := reads_of_mem_nodeInputs known
    obtain ⟨identifier, other, _rest⟩ := headerNames_checked _ reads.mem_headerNames
    exact ⟨identifier, plain_of_not_reserved other⟩
  fresh entry known other listed := by
    obtain ⟨_member, reads⟩ := reads_of_mem_nodeInputs known
    obtain ⟨_last, others⟩ := reads_of_mem_nodeInputs listed
    exact not_mem_of_mem_headerNames others reads.mem_headerNames
  single entry known other listed member accesses same := by
    obtain ⟨first, reads⟩ := reads_of_mem_nodeInputs known
    obtain ⟨second, others⟩ := reads_of_mem_nodeInputs listed
    obtain rfl := accesses.unique reads.accesses
    obtain rfl := same.unique others.accesses
    exact reads.unique others
  apart entry known other listed block member accesses shape := by
    obtain ⟨first, reads⟩ := reads_of_mem_nodeInputs known
    obtain ⟨_second, others⟩ := reads_of_mem_nodeInputs listed
    obtain rfl := accesses.unique reads.accesses
    rcases others.tokens_eq with alone | ⟨stem, inside, pair⟩
    · rw [shape] at alone
      cases alone
    · rw [shape] at pair
      refine reads.not_mem_reserved.1 ?_
      rw [Token.word.inj (List.cons.inj pair).1]
      exact List.mem_append_left _ (List.mem_append_left _ (List.mem_append_right _ inside))

end Export
end ShaderBridge
