import ShaderBridge.Export
import ShaderBridge.Proofs.Code.Function
import ShaderBridge.Proofs.Code.Loop
import ShaderBridge.Proofs.Export.Plain
import ShaderBridge.Proofs.Export.Return
import ShaderBridge.Proofs.Export.Shorthand
set_option autoImplicit false

/-! When exporting a node body once more changes nothing. The passes cannot undo each other's work:
a line that goes takes a hash with it, an entry function its brace, a constructor call that is
written out brings commas, a loop that is bounded a less-than sign, and a rename a word. So the
export of a text is the text itself just when no pass finds anything to do in it
(`unreal_eq_self_iff`), and an export that is exported again stays as it is just then. -/

namespace ShaderBridge
namespace Export

open Code
open Attempt (bind_eq_ok_iff map_eq_ok_iff)
open Text (IsOneWord startsWord words)

def symbolBlocks : List Text := ["globalParams_0", "globalParams", "input_0", "input"]

/-- The names that compiled code has for a symbol: its own, that with a zero behind it, and that of a
member of a flattened block. -/
inductive NamesSymbol (name : Text) : Text → Prop where
  | own : NamesSymbol name name
  | zero : NamesSymbol name (name ++ "_0")
  | flat {digits : Text} : IsNumber digits → NamesSymbol name ('_' :: (digits ++ '_' :: name))

/-- An access to a symbol of a mode, with or without a block, and the input that stands for it. -/
structure ReadsSymbol (mode : ExecutionMode) (old member new : Text) : Prop where
  symbol : ∃ symbol ∈ uniforms mode ++ varyings mode,
    unrealInput? symbol = some new ∧ NamesSymbol symbol.name member
  access : old = member ∨ ∃ block ∈ symbolBlocks, old = block ++ "." ++ member

structure IsAccess (old : Text) : Prop where
  opens : startsWord old = true
  letters : ∀ char ∈ old, isWord char = true ∨ char ∈ ("." : Text)

theorem symbols_eq (mode : ExecutionMode) :
    uniforms mode ++ varyings mode =
      match mode with
      | .shaderToy => shaderToyUniforms ++ [varyingSymbol "uv" "uv" 2, varyingSymbol "vUv" "uv" 2]
      | .materialLibrary =>
        materialUniforms ++ [varyingSymbol "uv" "iUV" 2, varyingSymbol "normal" "iNormal" 3,
          varyingSymbol "position" "iPosition" 3, varyingSymbol "vUv" "iUV" 2,
          varyingSymbol "vNormal" "iNormal" 3, varyingSymbol "vPosition" "iPosition" 3] := by
  cases mode <;> rfl

private theorem symbols_checked (mode : ExecutionMode) :
    ∀ symbol ∈ uniforms mode ++ varyings mode,
      (symbol.name ≠ [] ∧ symbol.name.all isWord = true) ∧
        ∀ input ∈ unrealInput? symbol, isIdentifier input = true := by
  rw [symbols_eq]
  -- A literal is spelled out once, or it is decoded each time a character of it is compared.
  unfold unrealInput? shaderToyUniforms materialUniforms
  repeat rw [String.toList_ofList]
  cases mode <;> decide +kernel

theorem oneWord_symbol {mode : ExecutionMode} {symbol : HeaderSymbol}
    (known : symbol ∈ uniforms mode ++ varyings mode) : IsOneWord symbol.name := by
  obtain ⟨⟨filled, letters⟩, _inputs⟩ := symbols_checked mode symbol known
  exact ⟨filled, List.all_eq_true.mp letters⟩

theorem NamesSymbol.oneWord {name member : Text} (one : IsOneWord name)
    (names : NamesSymbol name member) : IsOneWord member := by
  have low : isWord '_' = true := by decide
  cases names with
  | own => exact one
  | zero =>
      refine ⟨List.append_ne_nil_of_left_ne_nil one.1 _, List.forall_mem_append.mpr ⟨one.2, ?_⟩⟩
      decide
  | flat number =>
      refine ⟨List.cons_ne_nil _ _, List.forall_mem_cons.mpr ⟨low, List.forall_mem_append.mpr ⟨?_, ?_⟩⟩⟩
      · exact fun char digit => isWord_of_isDecimalDigit (number.2 char digit)
      · exact List.forall_mem_cons.mpr ⟨low, one.2⟩

inductive SpellsUniform (preamble name : Text) : Text → Prop where
  | member : SpellsUniform preamble name ("globalParams_0." ++ name ++ "_0")
  | plain : SpellsUniform preamble name ("globalParams." ++ name)
  | bare : SpellsUniform preamble name (name ++ "_0")
  | flat {digits : Text} (number : IsNumber digits)
      (declared : '_' :: (digits ++ '_' :: name) ∈ words preamble) :
      SpellsUniform preamble name ('_' :: (digits ++ '_' :: name))

inductive SpellsVarying (preamble name : Text) : Text → Prop where
  | member : SpellsVarying preamble name ("input_0." ++ name ++ "_0")
  | plain : SpellsVarying preamble name ("input." ++ name)
  | global (declared : (privateGlobal name).occursIn preamble = true) :
      SpellsVarying preamble name name

/-- An access to a symbol of the mode, as compilers spell it, and the input of the node for it. -/
inductive AccessesInput (mode : ExecutionMode) (preamble old new : Text) : Prop where
  | uniform {symbol : HeaderSymbol} (known : symbol ∈ uniforms mode)
      (given : unrealInput? symbol = some new) (spells : SpellsUniform preamble symbol.name old)
  | varying {symbol : HeaderSymbol} (known : symbol ∈ varyings mode)
      (given : unrealInput? symbol = some new) (spells : SpellsVarying preamble symbol.name old)

private theorem mem_uniformInputs_iff {preamble : Text} {symbol : HeaderSymbol} {input old new : Text}
    (one : IsOneWord symbol.name) : (old, new) ∈ uniformInputs preamble symbol input ↔
      SpellsUniform preamble symbol.name old ∧ new = input := by
  unfold uniformInputs
  simp only [List.mem_append, List.mem_cons, List.mem_map, Prod.mk.injEq, List.not_mem_nil, or_false,
    mem_flattened one.2]
  constructor
  · rintro ((⟨rfl, rfl⟩ | ⟨rfl, rfl⟩ | ⟨rfl, rfl⟩) | ⟨_, ⟨inside, digits, number, rfl⟩, rfl, rfl⟩)
    · exact ⟨.member, rfl⟩
    · exact ⟨.plain, rfl⟩
    · exact ⟨.bare, rfl⟩
    · exact ⟨.flat number inside, rfl⟩
  · rintro ⟨spells, rfl⟩
    cases spells with
    | member => exact .inl (.inl ⟨rfl, rfl⟩)
    | plain => exact .inl (.inr (.inl ⟨rfl, rfl⟩))
    | bare => exact .inl (.inr (.inr ⟨rfl, rfl⟩))
    | flat number declared => exact .inr ⟨_, ⟨declared, _, number, rfl⟩, rfl, rfl⟩

private theorem mem_varyingInputs_iff {preamble : Text} {symbol : HeaderSymbol} {input old new : Text} :
    (old, new) ∈ varyingInputs preamble symbol input ↔
      SpellsVarying preamble symbol.name old ∧ new = input := by
  unfold varyingInputs
  simp only [List.mem_append, List.mem_cons, Prod.mk.injEq, List.not_mem_nil, or_false]
  constructor
  · rintro ((⟨rfl, rfl⟩ | ⟨rfl, rfl⟩) | bare)
    · exact ⟨.member, rfl⟩
    · exact ⟨.plain, rfl⟩
    · obtain ⟨declared, bare⟩ := List.mem_ite_nil_right.mp bare
      cases List.mem_singleton.mp bare
      exact ⟨.global declared, rfl⟩
  · rintro ⟨spells, rfl⟩
    cases spells with
    | member => exact .inl (.inl ⟨rfl, rfl⟩)
    | plain => exact .inl (.inr ⟨rfl, rfl⟩)
    | global declared =>
        exact .inr (List.mem_ite_nil_right.mpr ⟨declared, List.mem_singleton.mpr rfl⟩)

def inputEntries (mode : ExecutionMode) (preamble : Text) : Renames :=
  ((uniforms mode).flatMap fun symbol =>
    ((unrealInput? symbol).map (uniformInputs preamble symbol)).getD []) ++
  ((varyings mode).flatMap fun symbol =>
    ((unrealInput? symbol).map (varyingInputs preamble symbol)).getD [])

theorem nodeInputs_eq_collect (mode : ExecutionMode) (preamble : Text) :
    nodeInputs mode preamble = Renames.collect Prod.fst Prod.snd (inputEntries mode preamble) [] :=
  rfl

theorem mem_inputEntries_iff {mode : ExecutionMode} {preamble old new : Text} :
    (old, new) ∈ inputEntries mode preamble ↔ AccessesInput mode preamble old new := by
  have held {read : HeaderSymbol → Text → Renames} {symbol : HeaderSymbol} :
      (old, new) ∈ ((unrealInput? symbol).map (read symbol)).getD [] ↔
        ∃ input, unrealInput? symbol = some input ∧ (old, new) ∈ read symbol input := by
    cases unrealInput? symbol <;> simp
  unfold inputEntries
  simp only [List.mem_append, List.mem_flatMap, held]
  constructor
  · rintro (⟨symbol, known, input, given, entry⟩ | ⟨symbol, known, input, given, entry⟩)
    · obtain ⟨spells, rfl⟩ :=
        (mem_uniformInputs_iff (oneWord_symbol (List.mem_append_left _ known))).mp entry
      exact .uniform known given spells
    · obtain ⟨spells, rfl⟩ := mem_varyingInputs_iff.mp entry
      exact .varying known given spells
  · rintro (⟨known, given, spells⟩ | ⟨known, given, spells⟩)
    · have one := oneWord_symbol (List.mem_append_left (varyings mode) known)
      exact .inl ⟨_, known, new, given, (mem_uniformInputs_iff one).mpr ⟨spells, rfl⟩⟩
    · exact .inr ⟨_, known, new, given, mem_varyingInputs_iff.mpr ⟨spells, rfl⟩⟩

theorem AccessesInput.readsSymbol {mode : ExecutionMode} {preamble old new : Text}
    (accesses : AccessesInput mode preamble old new) : ∃ name, ReadsSymbol mode old name new := by
  cases accesses with
  | @uniform symbol known given spells =>
      have listed := List.mem_append_left (varyings mode) known
      cases spells with
      | member =>
          exact ⟨_, ⟨symbol, listed, given, .zero⟩,
            .inr ⟨"globalParams_0", by decide, List.append_assoc _ _ _⟩⟩
      | plain => exact ⟨_, ⟨symbol, listed, given, .own⟩, .inr ⟨"globalParams", by decide, rfl⟩⟩
      | bare => exact ⟨_, ⟨symbol, listed, given, .zero⟩, .inl rfl⟩
      | flat number _declared => exact ⟨_, ⟨symbol, listed, given, .flat number⟩, .inl rfl⟩
  | @varying symbol known given spells =>
      have listed := List.mem_append_right (uniforms mode) known
      cases spells with
      | member =>
          exact ⟨_, ⟨symbol, listed, given, .zero⟩,
            .inr ⟨"input_0", by decide, List.append_assoc _ _ _⟩⟩
      | plain => exact ⟨_, ⟨symbol, listed, given, .own⟩, .inr ⟨"input", by decide, rfl⟩⟩
      | global _declared => exact ⟨_, ⟨symbol, listed, given, .own⟩, .inl rfl⟩

theorem accessesInput_of_mem_nodeInputs {mode : ExecutionMode} {preamble old new : Text}
    (member : (old, new) ∈ nodeInputs mode preamble) : AccessesInput mode preamble old new := by
  rw [nodeInputs_eq_collect] at member
  rcases Renames.mem_collect member with ⟨entry, held, same⟩ | impossible
  · cases same
    exact mem_inputEntries_iff.mp held
  · cases impossible

theorem reads_of_mem_nodeInputs {mode : ExecutionMode} {preamble old new : Text}
    (member : (old, new) ∈ nodeInputs mode preamble) :
    ∃ name, ReadsSymbol mode old name new :=
  (accessesInput_of_mem_nodeInputs member).readsSymbol

/-- The inputs of a node stand for accesses, and their names are identifiers. -/
theorem mem_nodeInputs {mode : ExecutionMode} {preamble old new : Text}
    (member : (old, new) ∈ nodeInputs mode preamble) :
    IsAccess old ∧ isIdentifier new = true := by
  obtain ⟨name, ⟨symbol, known, given, names⟩, access⟩ := reads_of_mem_nodeInputs member
  have one := names.oneWord (oneWord_symbol known)
  refine ⟨?_, (symbols_checked mode symbol known).2 new given⟩
  rcases access with rfl | ⟨block, listed, rfl⟩
  · exact ⟨one.startsWord, fun char member => .inl (one.2 char member)⟩
  · have opening : ∀ block ∈ symbolBlocks, startsWord (block ++ ".") = true ∧
        ∀ char ∈ block ++ ".", isWord char = true ∨ char ∈ ("." : Text) := by
      decide
    obtain ⟨opens, letters⟩ := opening block listed
    refine ⟨?_, List.forall_mem_append.mpr ⟨letters, fun char member => .inl (one.2 char member)⟩⟩
    have filled : block ++ ("." : Text) ≠ [] := List.append_ne_nil_of_right_ne_nil block (by decide)
    rwa [Text.startsWord_append filled]

def nodeMarks : Text := " \n.,:;()[]=<+-/\""

private theorem marks_nodeHeader (mode : ExecutionMode) :
    ∀ char ∈ nodeHeader mode, isWord char = true ∨ char ∈ nodeMarks := by
  cases mode
  all_goals
    unfold nodeHeader resolutionLine
    repeat rw [block_cons]
    rw [block_nil]
    decide +kernel

private theorem not_mem_of_nodeMarks {mark : Char} {marks : Text} (other : mark ∉ nodeMarks)
    (within : ∀ char ∈ marks, char ∈ nodeMarks) : mark ∉ marks :=
  fun member => other (within mark member)

theorem count_helperFunctions_le (preamble : Text) (mark : Char) :
    (helperFunctions preamble).count mark ≤ preamble.count mark := by
  unfold helperFunctions
  calc
    _ ≤ (registerLine.remove (staticLine.remove (recordDeclaration.remove preamble))).count mark :=
      Text.count_trim_le _ mark
    _ ≤ (staticLine.remove (recordDeclaration.remove preamble)).count mark :=
      Pattern.count_remove_le _ _ mark
    _ ≤ (recordDeclaration.remove preamble).count mark := Pattern.count_remove_le _ _ mark
    _ ≤ preamble.count mark := Pattern.count_remove_le _ _ mark

section
variable {mark : Char} (apart : isWord mark = false)
include apart

theorem count_rename_nodeInputs_le (mode : ExecutionMode) (preamble text : Text) :
    (rename (nodeInputs mode preamble) text).count mark ≤ text.count mark :=
  count_rename_le
    (fun _entry member => not_mem_of_isIdentifier apart (mem_nodeInputs member).2) text

variable (other : mark ∉ nodeMarks)
include other

theorem count_spellOut_le {vectors : List Text} {text spelled : Text}
    (done : spellOut vectors text = .ok spelled) : spelled.count mark ≤ text.count mark := by
  have bounded := count_boundLoops_le apart (not_mem_of_nodeMarks other (by decide)) done
  have written : (expandVectorCalls hlslVectors vectors text).count mark ≤ text.count mark :=
    count_expandVectorCalls_le apart (not_mem_of_nodeMarks other (by decide)) text
  exact bounded.trans written

theorem count_nodeHelpers_le {mode : ExecutionMode} {vectors helpers : List Text}
    {source preamble body : Text}
    (done : nodeHelpers mode (nodeInputs mode source) vectors preamble body = .ok helpers) :
    (helpers.map (List.count mark)).sum ≤ preamble.count mark := by
  unfold nodeHelpers at done
  simp only at done
  split at done
  · obtain ⟨spelled, out, rfl⟩ := map_eq_ok_iff.mp done
    have written := count_spellOut_le apart other out
    have timed := count_renameTemporaries_le apart
      (rename (nodeInputs mode source) (helperFunctions preamble))
    have named := count_rename_nodeInputs_le apart mode source (helperFunctions preamble)
    have kept := count_helperFunctions_le preamble mark
    rw [List.map_singleton, List.sum_singleton]
    omega
  · cases done
    exact Nat.zero_le _

end

/-- What an export is: a node body with its passes applied, or what is taken out of a module, with
no more marks than its preamble and the body of its entry function. -/
theorem unreal_eq_ok {mode : ExecutionMode} {artifact exported : Text}
    (done : unreal mode artifact = .ok exported) :
    let text := stripBookkeeping platformGuards artifact.normalizeNewlines
    (findFunction text entryFunctions = none ∧ ∃ spelled,
      spellOut (declaredVectors hlslVectors (nodeHeader mode ++ text))
        (rename (nodeInputs mode text) text) = .ok spelled ∧ exported = finish spelled) ∨
    ∃ span node, findFunction text entryFunctions = some span ∧ exported = finish node ∧
      ∀ mark, isWord mark = false → mark ∉ nodeMarks →
        node.count mark ≤ (text.take span.start).count mark +
          ((text.take span.bodyEnd).drop span.bodyStart).count mark := by
  intro text
  unfold unreal at done
  simp only at done
  split at done
  · next missing =>
      obtain ⟨spelled, out, same⟩ := bind_eq_ok_iff.mp done
      cases same
      exact .inl ⟨missing, spelled, out, rfl⟩
  · next span found =>
      obtain ⟨spelled, out, rest⟩ := bind_eq_ok_iff.mp done
      obtain ⟨helpers, helped, same⟩ := bind_eq_ok_iff.mp rest
      refine .inr ⟨span, _, found, (Except.ok.inj same).symm, ?_⟩
      intro mark apart other
      have feed : mark ≠ '\n' := fun same => other (same ▸ by decide)
      have header : (nodeHeader mode).count mark = 0 :=
        count_eq_zero_of_marks apart other (marks_nodeHeader mode)
      have remark : ("// Shader logic" : Text).count mark = 0 :=
        count_eq_zero_of_marks apart other (by decide)
      have kept : (helpers.map (List.count mark)).sum ≤ (text.take span.start).count mark :=
        count_nodeHelpers_le apart other helped
      have body : (dedent (writeAsReturn spelled)).count mark ≤
          ((text.take span.bodyEnd).drop span.bodyStart).count mark :=
        calc
          _ ≤ (writeAsReturn spelled).count mark := count_dedent_le feed _
          _ ≤ spelled.count mark :=
            count_writeAsReturn_le apart (not_mem_of_nodeMarks other (by decide)) spelled
          _ ≤ _ := count_spellOut_le apart other out
          _ ≤ _ := count_renameTemporaries_le apart _
          _ ≤ _ := count_rename_nodeInputs_le apart mode _ _
      rw [Text.count_unlines feed]
      simp only [List.map_append, List.map_cons, List.map_nil, List.sum_append, List.sum_cons,
        List.sum_nil, header, remark]
      omega

/-- The vectors that the header of a node declares. -/
def headerVectors : List Text := ["UV", "Normal", "Position", "Resolution"]

private theorem exists_last_mark (mode : ExecutionMode) :
    ∃ front, nodeHeader mode = front ++ [';', '\n'] ∧
      declaredVectors hlslVectors (front ++ [';']) = headerVectors := by
  have spelled : ∃ header, nodeHeader mode = header ∧
      header = header.dropLast.dropLast ++ [';', '\n'] ∧
      declaredVectors hlslVectors (header.dropLast.dropLast ++ [';']) = headerVectors := by
    cases mode
    all_goals
      unfold nodeHeader resolutionLine
      repeat rw [block_cons]
      rw [block_nil]
      exact ⟨_, rfl, by decide +kernel⟩
  obtain ⟨header, rfl, ends, given⟩ := spelled
  exact ⟨_, ends, given⟩

/-- What stands behind the header declares its vectors as it does alone: the header ends in a
semicolon. -/
theorem declaredVectors_nodeHeader_append (mode : ExecutionMode) (text : Text) :
    declaredVectors hlslVectors (nodeHeader mode ++ text) =
      headerVectors ++ declaredVectors hlslVectors text := by
  obtain ⟨front, split, given⟩ := exists_last_mark mode
  have parts : Parts ';' := ⟨by decide, by decide⟩
  have feed : declarationsAfter hlslVectors (some ';') ('\n' :: text) =
      declarationsAfter hlslVectors none text := by
    rw [declarationsAfter_cons_mark wellNamed_hlslVectors (by decide)]
    exact declarationsAfter_congr (by decide) text
  have whole : declarationsAfter hlslVectors none (front ++ ';' :: '\n' :: text) =
      declarationsAfter hlslVectors none (front ++ [';']) ++
        declarationsAfter hlslVectors none text := by
    rw [declarationsAfter_mark wellNamed_hlslVectors parts, feed]
  rw [split, List.append_assoc, ← given]
  exact (congrArg _ whole).trans List.map_append

theorem nodeHelpers_of_bare {preamble : Text} (bare : helperFunctions preamble = [])
    (mode : ExecutionMode) (inputs : Renames) (vectors : List Text) (body : Text) :
    nodeHelpers mode inputs vectors preamble body = .ok [] := by
  unfold nodeHelpers
  rw [bare]
  rfl

section
variable {mode : ExecutionMode} {artifact text entry spelled : Text} {vectors : List Text}
variable (plain : stripBookkeeping platformGuards artifact.normalizeNewlines = text)
include plain

theorem exportArtifact_of_bare (missing : findFunction text entryFunctions = none)
    (named : rename (nodeInputs mode text) text = entry)
    (given : headerVectors ++ declaredVectors hlslVectors text = vectors)
    (spelling : spellOut vectors entry = .ok spelled) :
    exportArtifact .unrealHlsl mode artifact = .ok (finish spelled) := by
  subst plain named given
  change unreal mode artifact = _
  unfold unreal
  simp only
  rw [declaredVectors_nodeHeader_append]
  split
  · exact bind_eq_ok_iff.mpr ⟨spelled, spelling, rfl⟩
  · next span found => exact absurd (missing.symm.trans found) nofun

/-- The export of a module with an entry function. -/
theorem exportArtifact_of_spelled {span : FunctionSpan} {preamble : Text} {helpers : List Text}
    (found : findFunction text entryFunctions = some span) (front : text.take span.start = preamble)
    (named : renameTemporaries (rename (nodeInputs mode preamble)
      ((text.take span.bodyEnd).drop span.bodyStart)) = entry)
    (given : headerVectors ++ declaredVectors hlslVectors text ++
      declaredVectors hlslVectors ((text.take span.bodyStart).drop span.start ++ entry) = vectors)
    (spelling : spellOut vectors entry = .ok spelled)
    (helped : nodeHelpers mode (nodeInputs mode preamble) vectors preamble (writeAsReturn spelled) =
      .ok helpers) :
    exportArtifact .unrealHlsl mode artifact = .ok (finish (Text.unlines
      ([nodeHeader mode, "// Shader logic"] ++ helpers ++ [dedent (writeAsReturn spelled)]))) := by
  subst plain front named given
  change unreal mode artifact = _
  unfold unreal
  simp only
  rw [declaredVectors_nodeHeader_append]
  split
  · next missing => exact absurd (found.symm.trans missing) nofun
  · next other known =>
      obtain rfl := Option.some.inj (found.symm.trans known)
      refine bind_eq_ok_iff.mpr ⟨spelled, spelling, ?_⟩
      exact bind_eq_ok_iff.mpr ⟨helpers, helped, rfl⟩

end

/-- A node body in which the export finds nothing to do. -/
structure IsNodeBody (mode : ExecutionMode) (text : Text) : Prop where
  /-- No line of it is bookkeeping or opens a platform guard. -/
  plain : PlainLines platformGuards text
  /-- It defines no entry function. -/
  bare : findFunction text entryFunctions = none
  /-- Of the accesses that stand in it, each has its input in use as a name of its own. -/
  named : ∀ old ∈ ((nodeInputs mode text).active text).keys, ¬ Text.StandsIn old text
  /-- No constructor call in it repeats a simple scalar, as far as the vectors declared in it and in
  the header of a node tell. -/
  spelled :
    WrittenOut hlslVectors (declaredVectors hlslVectors (nodeHeader mode ++ text)) none text
  /-- The numbers of its loop counters can be read. -/
  numbered : ∃ free, freeCounter text = .ok free
  /-- It has no endless loop. -/
  bounded : endlessHead.occurrences text = []

theorem lineFed_unreal {mode : ExecutionMode} {artifact exported : Text}
    (done : unreal mode artifact = .ok exported) : LineFed exported := by
  have apart : isWord '\r' = false := by decide
  have other : '\r' ∉ nodeMarks := by decide
  have fed : LineFed (stripBookkeeping platformGuards artifact.normalizeNewlines) :=
    LineFed.stripBookkeeping (Text.not_mem_normalizeNewlines artifact) _
  have none : ∀ {text : Text}, text.count '\r' ≤ 0 → LineFed text :=
    fun fewer => List.count_eq_zero.mp (Nat.le_zero.mp fewer)
  rcases unreal_eq_ok done with ⟨_missing, spelled, out, same⟩ | ⟨span, node, _found, same, kept⟩
  · rw [same]
    apply LineFed.finish
    apply none
    calc
      _ ≤ _ := count_spellOut_le apart other out
      _ ≤ _ := count_rename_nodeInputs_le apart mode _ _
      _ = 0 := List.count_eq_zero.mpr fed
  · rw [same]
    apply LineFed.finish
    apply none
    have fewer := kept '\r' apart other
    have early := ((List.take_sublist span.start
      (stripBookkeeping platformGuards artifact.normalizeNewlines)).count_le '\r')
    have late := (((List.drop_sublist span.bodyStart _).trans (List.take_sublist span.bodyEnd
      (stripBookkeeping platformGuards artifact.normalizeNewlines))).count_le '\r')
    rw [List.count_eq_zero.mpr fed] at early late
    omega

theorem tidy_unreal {mode : ExecutionMode} {artifact exported : Text}
    (done : unreal mode artifact = .ok exported) : Tidy exported := by
  rcases unreal_eq_ok done with ⟨_missing, spelled, _out, rfl⟩ | ⟨_span, node, _found, rfl, _kept⟩
  · exact tidy_finish spelled
  · exact tidy_finish node

/-- The passes over a node body leave it as it is only where each of them does. -/
private theorem isNodeBody_of_spellOut {mode : ExecutionMode} {text spelled : Text}
    (bare : findFunction text entryFunctions = none) (plain : PlainLines platformGuards text)
    (out : spellOut (declaredVectors hlslVectors (nodeHeader mode ++ text))
      (rename (nodeInputs mode text) text) = .ok spelled) (same : text = finish spelled) :
    IsNodeBody mode text := by
  let vectors := declaredVectors hlslVectors (nodeHeader mode ++ text)
  let named := rename (nodeInputs mode text) text
  have renamed : ∀ {mark : Char}, isWord mark = false → mark ≠ '.' →
      named.count mark = text.count mark := by
    intro mark apart other
    apply count_rename_eq
    intro entry member
    obtain ⟨access, identifier⟩ := mem_nodeInputs member
    refine ⟨fun held => ?_, not_mem_of_isIdentifier apart identifier⟩
    rcases access.letters mark held with letter | point
    · exact absurd (apart.symm.trans letter) nofun
    · exact other (List.mem_singleton.mp point)
  have comma : text.count ',' = spelled.count ',' := by
    rw [same, count_finish (by decide)]
  have less : text.count '<' = spelled.count '<' := by
    rw [same, count_finish (by decide)]
  have unwritten : WrittenOut hlslVectors vectors none named := by
    apply writtenOut_of_count_comma wellNamed_hlslVectors.named
    rw [← count_boundLoops_eq (by decide) (by decide) (by decide) out,
      renamed (by decide) (by decide), comma]
  have spelling := (expandVectorCalls_eq_self_iff wellNamed_hlslVectors.named).mpr unwritten
  unfold spellOut at out
  rw [show expandVectorCalls hlslVectors vectors named = named from spelling] at out
  obtain ⟨free, read, _pieces⟩ := bind_eq_ok_iff.mp out
  have endless : endlessHead.occurrences named = [] := by
    have counted := count_less_boundLoops out
    rw [← less, renamed (by decide) (by decide)] at counted
    exact List.length_eq_zero_iff.mp (by omega)
  have settled := boundLoops_eq_self_iff.mpr ⟨⟨free, read⟩, endless⟩
  obtain rfl := Except.ok.inj (settled.symm.trans out)
  have absent := not_standsIn_of_words_rename
    (fun old member => by
      obtain ⟨new, entry⟩ := Renames.mem_keys.mp member
      exact (mem_nodeInputs entry).1.opens)
    (fun entry member => (mem_nodeInputs member).2)
    (by rw [← words_finish, ← same]; exact List.Subset.refl _)
  have stays : named = text := rename_eq_self_of_not_standsIn absent
  rw [stays] at unwritten read endless
  exact ⟨plain, bare, absent, unwritten, ⟨free, read⟩, endless⟩

/-- A tidy text is its own export when it is a node body in which there is nothing to do, and only
then. -/
theorem unreal_eq_self_iff {mode : ExecutionMode} {text : Text} (fed : LineFed text)
    (tidy : Tidy text) : unreal mode text = .ok text ↔ IsNodeBody mode text := by
  have ends := Text.normalizeNewlines_eq_self fed
  constructor
  · intro done
    rcases unreal_eq_ok done with ⟨missing, spelled, out, same⟩ | ⟨span, node, found, same, kept⟩
    · rw [ends] at missing out
      have hashes : text.count '#' ≤ (stripBookkeeping platformGuards text).count '#' :=
        calc
          text.count '#' = spelled.count '#' := by rw [same, count_finish (by decide)]
          _ ≤ _ := count_spellOut_le (by decide) (by decide) out
          _ ≤ _ := count_rename_nodeInputs_le (by decide) mode _ _
      have plain := plainLines_of_count_hash oneWord_guard hashes
      rw [plain.stripBookkeeping_eq_self oneWord_guard] at missing out
      exact isNodeBody_of_spellOut missing plain out same
    · rw [ends] at found kept
      have braces := count_brace_of_findFunction found
      have fewer := kept '{' (by decide) (by decide)
      have stripped := count_stripBookkeeping_le (by decide : '{' ≠ '\n') platformGuards text
      rw [← count_finish (by decide : isBlank '{' = false) node, ← same] at fewer
      omega
  · intro node
    have expanded := (expandVectorCalls_eq_self_iff wellNamed_hlslVectors.named).mpr node.spelled
    have looped := boundLoops_eq_self_iff.mpr ⟨node.numbered, node.bounded⟩
    unfold unreal
    simp only
    rw [ends, node.plain.stripBookkeeping_eq_self oneWord_guard, node.bare]
    simp only
    rw [rename_eq_self_of_not_standsIn node.named]
    unfold spellOut
    rw [expanded, looped]
    exact congrArg Except.ok tidy.finish_eq_self

/-- The export of an export is the export again when that is a node body in which there is nothing to
do, and only then. -/
theorem exportArtifact_unreal_again_iff {mode : ExecutionMode} {artifact exported : Text}
    (done : exportArtifact .unrealHlsl mode artifact = .ok exported) :
    exportArtifact .unrealHlsl mode exported = .ok exported ↔ IsNodeBody mode exported :=
  unreal_eq_self_iff (lineFed_unreal done) (tidy_unreal done)

/-- A parameter is no longer known to be a vector once the head of its function is left out: exported
again, its copy is taken for a repeated scalar. -/
theorem exportArtifact_unreal_again_iff_of_copied_parameter :
    let artifact : Text := "float4 fragmentMain(float3 n : NORMAL) : SV_TARGET\n\x7b\n" ++
      "    return float4(float3(n), 1.0);\n\x7d\n"
    let node : Text → Text := fun arguments =>
      nodeHeader .materialLibrary ++ "\n// Shader logic\nreturn float3(" ++ arguments ++ ");\n"
    exportArtifact .unrealHlsl .materialLibrary artifact = .ok (node "n") ∧
      exportArtifact .unrealHlsl .materialLibrary (node "n") = .ok (node "n, n, n") ∧
      ¬ IsNodeBody .materialLibrary (node "n") := by
  intro artifact node
  let code : Text := "\n    return float4(float3(n), 1.0);\n"
  let tail : Text → Text := fun arguments =>
    "\n// Shader logic\nreturn float3(" ++ (arguments ++ ");\n")
  have whole : ∀ arguments, node arguments = nodeHeader .materialLibrary ++ tail arguments :=
    fun arguments => by simp only [node, tail, List.append_assoc]
  obtain ⟨plain, found, entered, given, spelling⟩ :
      stripBookkeeping platformGuards artifact.normalizeNewlines = artifact ∧
        findFunction artifact entryFunctions = some ⟨0, 52, 88, 89⟩ ∧
        renameTemporaries (rename (nodeInputs .materialLibrary [])
          ((artifact.take 88).drop 52)) = code ∧
        headerVectors ++ declaredVectors hlslVectors artifact ++
          declaredVectors hlslVectors ((artifact.take 52).drop 0 ++ code) =
            headerVectors ++ (["n", "n"] : List Text) ∧
        spellOut (headerVectors ++ (["n", "n"] : List Text)) code = .ok code := by
    simp only [artifact, code]
    repeat rw [String.toList_ofList]
    decide +kernel
  have helped := nodeHelpers_of_bare (rfl : helperFunctions [] = []) .materialLibrary
    (nodeInputs .materialLibrary []) (headerVectors ++ (["n", "n"] : List Text)) (writeAsReturn code)
  have undeclared : declaredVectors hlslVectors (tail "n") = [] := by decide +kernel
  -- the lines of the header are spelled out once for all that is said of a node
  obtain ⟨header, same, laid, lines, bare, named, written⟩ : ∃ header,
      nodeHeader .materialLibrary = header ∧
        let text := header ++ tail "n"
        finish (Text.unlines ([header, "// Shader logic"] ++ [] ++ [dedent (writeAsReturn code)])) =
          text ∧
          stripBookkeeping platformGuards text.normalizeNewlines = text ∧
          findFunction text entryFunctions = none ∧
          rename (nodeInputs .materialLibrary text) text = text ∧
          (spellOut (headerVectors ++ headerVectors) text).map finish =
            .ok (header ++ tail "n, n, n") := by
    unfold nodeHeader resolutionLine
    repeat rw [block_cons]
    rw [block_nil]
    simp only [code, tail]
    repeat rw [String.toList_ofList]
    refine ⟨_, rfl, ?_, ?_, ?_, ?_, ?_⟩
    all_goals decide +kernel
  subst same
  have first : exportArtifact .unrealHlsl .materialLibrary artifact = .ok (node "n") := by
    rw [whole, ← laid]
    exact exportArtifact_of_spelled plain found List.take_zero entered given spelling helped
  have second : exportArtifact .unrealHlsl .materialLibrary (node "n") = .ok (node "n, n, n") := by
    obtain ⟨spelled, out, last⟩ := map_eq_ok_iff.mp written
    have vectors : headerVectors ++ declaredVectors hlslVectors
        (nodeHeader .materialLibrary ++ tail "n") = headerVectors ++ headerVectors := by
      rw [declaredVectors_nodeHeader_append, undeclared, List.append_nil]
    rw [whole, whole, ← last]
    exact exportArtifact_of_bare lines bare named vectors out
  refine ⟨first, second, fun settled => ?_⟩
  have same := Except.ok.inj
    (second.symm.trans ((exportArtifact_unreal_again_iff first).mpr settled))
  have arguments := List.append_cancel_left (List.append_cancel_right same)
  exact absurd arguments (by decide)

end Export
end ShaderBridge
