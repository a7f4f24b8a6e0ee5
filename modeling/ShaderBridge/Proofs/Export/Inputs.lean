import ShaderBridge.Proofs.Export.Branch
set_option autoImplicit false

/-! What a converted module still says of the inputs whose declarations it lost. An access is replaced
by the plain name of its input unless that name is in use in the code. Then the access lingers, and
the export names a block or an input that is declared nowhere; it does so in no other way, but for a
name of the code's own that is taken for the mangled name of the block
(`exportArtifact_glsl_names_input`). -/

namespace ShaderBridge
namespace Export

open Code
open Text (IsOneWord startsWord endsWord tokens words spell StandsIn)

/-- The block of parameters, as the dropped declaration names it. -/
def blockName : Text := "globalParams"

def mangledBlock : Text := "globalParams_0"

def inputStem : Text := "input_"

/-- A name that belongs to a dropped declaration. -/
def NamesInput (name : Text) : Prop := name = blockName ∨ inputStem <+: name

instance (name : Text) : Decidable (NamesInput name) :=
  inferInstanceAs (Decidable (name = blockName ∨ inputStem <+: name))

def Tracked (name : Text) : Prop := NamesInput name ∨ name = mangledBlock

instance (name : Text) : Decidable (Tracked name) :=
  inferInstanceAs (Decidable (NamesInput name ∨ name = mangledBlock))

/-- The code reads the block through its members, and inputs by the names of the varyings. -/
structure ReadsInputs (mode : ExecutionMode) (code : Text) : Prop where
  /-- From each name of the block on, the tokens are an access to a member. -/
  members : ∀ rest ∈ (tokens code).tails, rest.head? = some (.word blockName) →
    ∃ symbol ∈ uniforms mode, [.word blockName, .mark '.', .word symbol.name] <+: rest
  inputs : ∀ word ∈ words code, inputStem <+: word →
    ∃ symbol ∈ varyings mode, word = inputStem ++ symbol.name

/-- How a name of a dropped declaration stays in the code. -/
inductive Lingers (mode : ExecutionMode) (code : Text) : Text → Prop where
  /-- A member of the block is read whose plain name is in use. -/
  | member {symbol : HeaderSymbol} : symbol ∈ uniforms mode →
      StandsIn (blockName ++ "." ++ symbol.name) code →
        uniformExpression symbol ∈ words code → Lingers mode code blockName
  /-- An input is read whose plain name is in use. -/
  | input {symbol : HeaderSymbol} : symbol ∈ varyings mode →
      inputStem ++ symbol.name ∈ words code → symbol.name ∈ words code →
        Lingers mode code (inputStem ++ symbol.name)
  /-- A name of the code's own is taken for the mangled name of the block. -/
  | mangled : (Renames.pattern ((inputNames mode).active code)).Spares mangledBlock code →
      Lingers mode code blockName

theorem Tracked.letters {name : Text} (tracked : Tracked name) :
    'b' ∈ name ∨ 'n' ∈ name ∧ 'u' ∈ name := by
  rcases tracked with (rfl | begins) | rfl
  · exact .inl (by decide)
  · exact .inr ⟨begins.subset (by decide), begins.subset (by decide)⟩
  · exact .inl (by decide)

private theorem Tracked.exists_letter {name : Text} (tracked : Tracked name) {Other : Char → Prop}
    (first : ¬ Other 'b') (second : ¬ Other 'n' ∨ ¬ Other 'u') : ∃ char ∈ name, ¬ Other char := by
  rcases tracked.letters with letter | ⟨letter, another⟩
  · exact ⟨'b', letter, first⟩
  · rcases second with other | other
    · exact ⟨'n', letter, other⟩
    · exact ⟨'u', another, other⟩

private theorem inputNames_unique (mode : ExecutionMode) :
    ∀ entry ∈ inputNames mode, ∀ other ∈ inputNames mode,
      tokens entry.1 <+: tokens other.1 → entry = other := by
  cases mode <;> decide +kernel

private theorem inputNames_checked (mode : ExecutionMode) :
    ∀ entry ∈ inputNames mode,
      (startsWord entry.1 = true ∧ endsWord entry.1 = true) ∧
        (entry.1 ≠ entry.2 ∧ ']' ∉ entry.2) ∧
          (isIdentifier entry.2 = true ∨ entry.2.all isWord = false) ∧
            (∀ word ∈ words entry.2, ¬ Tracked word) ∧
              ∀ token ∈ (tokens entry.1).tail, ¬ Tracked token.text := by
  cases mode <;> decide +kernel

private theorem startsWord_inputNames (mode : ExecutionMode) :
    ∀ old ∈ (inputNames mode).keys, startsWord old = true := by
  intro old member
  obtain ⟨new, entry⟩ := Renames.mem_keys.mp member
  exact (inputNames_checked mode _ entry).1.1

private theorem accesses_mem_inputNames (mode : ExecutionMode) :
    (∀ symbol ∈ uniforms mode,
      (blockName ++ "." ++ symbol.name, uniformExpression symbol) ∈ inputNames mode ∧
        tokens (blockName ++ "." ++ symbol.name) =
          [.word blockName, .mark '.', .word symbol.name]) ∧
      ∀ symbol ∈ varyings mode,
        (inputStem ++ symbol.name, symbol.name) ∈ inputNames mode ∧
          tokens (inputStem ++ symbol.name) = [.word (inputStem ++ symbol.name)] := by
  cases mode <;> decide +kernel

private theorem mangledNames_block (mode : ExecutionMode) :
    (mangledBlock, blockName) ∈ mangledNames mode ∧
      ∀ entry ∈ mangledNames mode, (NamesInput entry.2 → entry = (mangledBlock, blockName)) ∧
        (entry.1 = mangledBlock → entry.2 = blockName) ∧ entry.1 ≠ blockName ∧
          ∀ symbol ∈ varyings mode, entry.1 ≠ inputStem ++ symbol.name := by
  cases mode <;> decide +kernel

section
variable {mode : ExecutionMode} {code : Text}

private theorem mem_active_inputNames {old new : Text} :
    (old, new) ∈ (inputNames mode).active code ↔
      (old, new) ∈ inputNames mode ∧ new ∉ words code := by
  unfold Renames.active
  rw [List.mem_filter]
  refine and_congr_right fun entry => ?_
  obtain ⟨_starts, ⟨apart, _bracket⟩, named, _rest⟩ := inputNames_checked mode _ entry
  simp only [Bool.and_eq_true, bne_iff_ne, Bool.not_eq_true', Bool.and_eq_false_iff,
    List.contains_eq_mem, decide_eq_false_iff_not, mem_identifiers]
  rw [and_iff_right apart]
  rcases named with identifier | other
  · rw [identifier]
    simp
  · have absent : new ∉ words code := by
      intro member
      have letters := (Text.oneWord_of_mem_words member).2
      rw [List.all_eq_true.mpr letters] at other
      cases other
    simp [absent]

private theorem entry_unique {entry other : Text × Text} (first : entry ∈ inputNames mode)
    (second : other ∈ inputNames mode) {rest more : Text} (apart : startsWord rest = false)
    (distant : startsWord more = false) (same : entry.1 ++ rest = other.1 ++ more) :
    entry = other := by
  have cut := congrArg tokens same
  rw [Text.tokens_append fun _ends => apart, Text.tokens_append fun _ends => distant] at cut
  have left : tokens entry.1 <+: tokens entry.1 ++ tokens rest := List.prefix_append _ _
  have right : tokens other.1 <+: tokens entry.1 ++ tokens rest := by
    rw [cut]
    exact List.prefix_append _ _
  rcases List.prefix_or_prefix_of_prefix left right with within | within
  · exact inputNames_unique mode _ first _ second within
  · exact (inputNames_unique mode _ second _ first within).symm

private theorem mem_words_mapped_iff {name : Text} (tracked : Tracked name) :
    name ∈ words (rename (inputNames mode) code) ↔
      (Renames.pattern ((inputNames mode).active code)).Spares name code := by
  refine mem_words_rename_iff (startsWord_inputNames mode) ?_ ?_
  · intro old member behind
    obtain ⟨new, entry⟩ := Renames.mem_keys.mp member
    obtain ⟨_starts, _apart, _named, _brought, inner⟩ := inputNames_checked mode _ entry
    exact inner _ behind tracked
  · intro entry member brought
    exact (inputNames_checked mode _ member).2.2.2.1 name brought tracked

private theorem spares_of_access {old new word : Text} {behind : List Token}
    (entry : (old, new) ∈ inputNames mode) (shape : tokens old = .word word :: behind)
    (stands : StandsIn old code) (used : new ∈ words code) :
    (Renames.pattern ((inputNames mode).active code)).Spares word code := by
  obtain ⟨front, rest, whole, before, after⟩ := stands
  have cut : tokens code = tokens front ++ .word word :: (behind ++ tokens rest) := by
    rw [whole, List.append_assoc,
      Text.tokens_append fun ends => absurd (before.symm.trans ends) nofun,
      Text.tokens_append fun _ends => after, shape]
    rfl
  refine ⟨tokens front, behind ++ tokens rest, cut, ?_⟩
  have spelled : word ++ spell (behind ++ tokens rest) = old ++ rest := by
    have same := congrArg spell shape
    rw [Text.spell_tokens, Text.spell_cons, Token.text] at same
    rw [Text.spell_append, Text.spell_tokens, same, List.append_assoc]
  rw [Text.spell_tokens, spelled, Renames.pattern_eq_none_iff before]
  intro other key more apart same
  obtain ⟨value, active⟩ := Renames.mem_keys.mp key
  obtain ⟨known, unused⟩ := mem_active_inputNames.mp active
  cases entry_unique entry known after apart same
  exact unused used

private theorem used_of_spares {old new word : Text} {first behind rest : List Token}
    (entry : (old, new) ∈ inputNames mode) (shape : tokens old = .word word :: behind)
    (cut : tokens code = first ++ .word word :: (behind ++ rest))
    (spared : Renames.pattern ((inputNames mode).active code) (spell first).getLast?
      (word ++ spell (behind ++ rest)) = none) :
    StandsIn old code ∧ new ∈ words code := by
  have lexed := Text.lexed_tokens code
  rw [cut] at lexed
  obtain ⟨_left, right, apart⟩ := lexed.split
  have same := congrArg spell shape
  rw [Text.spell_tokens, Text.spell_cons, Token.text] at same
  have spelled : word ++ spell (behind ++ rest) = old ++ spell rest := by
    rw [Text.spell_append, same, List.append_assoc]
  obtain ⟨begins, ended⟩ := (inputNames_checked mode _ entry).1
  have before : endsWord (spell first) = false := by
    refine Bool.eq_false_iff.mpr fun ends => ?_
    have met := apart ends
    have filled : old ≠ [] := by
      intro empty
      rw [empty] at begins
      cases begins
    rw [Text.spell_cons, Token.text, spelled, Text.startsWord_append filled, begins] at met
    cases met
  have after : startsWord (spell rest) = false := by
    rw [← List.cons_append, ← shape] at right
    apply right.split.2.2
    rw [Text.spell_tokens]
    exact ended
  have code_eq : code = spell first ++ old ++ spell rest := by
    rw [← Text.spell_tokens code, cut, Text.spell_append, Text.spell_cons, Token.text, spelled,
      List.append_assoc]
  refine ⟨⟨_, _, code_eq, before, after⟩, ?_⟩
  by_contra unused
  have active := mem_active_inputNames.mpr ⟨entry, unused⟩
  rw [spelled, Renames.pattern_eq_none_iff before] at spared
  exact spared old (Renames.mem_keys.mpr ⟨new, active⟩) _ after rfl

theorem lingers_of_spares (reads : ReadsInputs mode code) {name : Text} (names : NamesInput name)
    (spared : (Renames.pattern ((inputNames mode).active code)).Spares name code) :
    Lingers mode code name := by
  obtain ⟨first, later, cut, none⟩ := spared
  rcases names with rfl | begins
  · have tail : .word blockName :: later ∈ (tokens code).tails := by
      rw [List.mem_tails, cut]
      exact List.suffix_append first _
    obtain ⟨symbol, known, access⟩ := reads.members _ tail rfl
    obtain ⟨rest, split⟩ := access
    obtain ⟨entry, shape⟩ := (accesses_mem_inputNames mode).1 symbol known
    have behind : later = [.mark '.', .word symbol.name] ++ rest := (List.cons.inj split).2.symm
    rw [behind] at cut none
    obtain ⟨stands, used⟩ := used_of_spares entry shape cut none
    exact .member known stands used
  · have inside : name ∈ words code := by
      rw [Text.mem_words, cut]
      exact List.mem_append_right _ List.mem_cons_self
    obtain ⟨symbol, known, rfl⟩ := reads.inputs name inside begins
    obtain ⟨entry, shape⟩ := (accesses_mem_inputNames mode).2 symbol known
    obtain ⟨_stands, used⟩ := used_of_spares entry shape cut none
    exact .input known inside used

theorem spares_of_lingers {name : Text} (lingers : Lingers mode code name) :
    (Renames.pattern ((inputNames mode).active code)).Spares name code ∨
      name = blockName ∧
        (Renames.pattern ((inputNames mode).active code)).Spares mangledBlock code := by
  cases lingers with
  | @member symbol known stands used =>
      obtain ⟨entry, shape⟩ := (accesses_mem_inputNames mode).1 symbol known
      exact .inl (spares_of_access entry shape stands used)
  | @input symbol known inside used =>
      obtain ⟨entry, shape⟩ := (accesses_mem_inputNames mode).2 symbol known
      have stands := (Text.mem_words_iff_standsIn (Text.oneWord_of_mem_words inside)).mp inside
      exact .inl (spares_of_access entry shape stands used)
  | mangled spared => exact .inr ⟨rfl, spared⟩

end

private def elementScan : Scan :=
  Scan.literal "gl_FragData" >=> Scan.blanks >=> Scan.literal "[" >=> Scan.blanks
    >=> Scan.literal "0" >=> Scan.blanks >=> Scan.literal "]"

private theorem consumes_element : elementScan.Consumes :=
  (Scan.consumes_literal (by decide)).andThen (Scan.sound_blanks.andThen
    ((Scan.sound_literal _).andThen (Scan.sound_blanks.andThen ((Scan.sound_literal _).andThen
      (Scan.sound_blanks.andThen (Scan.sound_literal _))))))

private theorem endsIn_element : elementScan.EndsIn (· = ']') :=
  (Scan.sound_literal _).andThen_endsIn (Scan.sound_blanks.andThen_endsIn
    ((Scan.sound_literal _).andThen_endsIn (Scan.sound_blanks.andThen_endsIn
      ((Scan.sound_literal _).andThen_endsIn (Scan.sound_blanks.andThen_endsIn
        (Scan.endsIn_literal (show "]".toList = [] ++ [']'] by decide) rfl))))))

private def Among (chars : Text) (char : Char) : Prop := char ∈ chars ∨ isBlank char = true

private instance (chars : Text) (char : Char) : Decidable (Among chars char) :=
  inferInstanceAs (Decidable (char ∈ chars ∨ isBlank char = true))

private theorem within_element : elementScan.Within (Among "gl_FragData[0]") := by
  have literal : ∀ {expected : Text}, (∀ char ∈ expected, char ∈ ("gl_FragData[0]" : Text)) →
      Scan.Within (Among "gl_FragData[0]") (Scan.literal expected) :=
    fun each => Scan.within_literal fun char member => .inl (each char member)
  have blanks : Scan.Within (Among "gl_FragData[0]") Scan.blanks :=
    Scan.within_zeroOrMore fun _char white => .inr white
  exact (literal (by decide)).andThen (blanks.andThen ((literal (by decide)).andThen
    (blanks.andThen ((literal (by decide)).andThen (blanks.andThen (literal (by decide)))))))

private theorem apart_element : outputElement.Apart := by
  refine Pattern.apart_atWordStart consumes_element fun stretch rest found ends => ?_
  have marks : elementScan.EndsIn fun char => isWord char = false := by
    intro text rest found
    obtain ⟨front, char, split, rfl⟩ := endsIn_element text rest found
    exact ⟨front, ']', split, by decide⟩
  exact absurd ((marks.not_endsWord found).symm.trans ends) nofun

private theorem keepsStart_element (new : Text → Text) : outputElement.KeepsStart new :=
  Pattern.keepsStart_atWordStart consumes_element.sound
    (fun _text _rest found => Scan.startsWord_of_literal (by decide) found) new

private theorem not_mem_element {name : Text} (tracked : Tracked name) {before : Option Char}
    {stretch rest : Text}
    (found : outputElement before (stretch ++ rest) = some stretch.length) :
    name ∉ words stretch := by
  intro member
  obtain ⟨char, inside, other⟩ := tracked.exists_letter
    (by decide : ¬ Among "gl_FragData[0]" 'b') (.inl (by decide))
  exact other (Pattern.within_of_matched consumes_element.sound within_element found char
    (Text.mem_of_mem_words member inside))

section
variable {name text : Text} (tracked : Tracked name)
include tracked

private theorem mem_words_of_element
    (member : name ∈ words (outputElement.replace (fun _ => outputVariable) text)) :
    name ∈ words text := by
  have whole : IsOneWord outputVariable := ⟨by decide, by decide⟩
  refine (Pattern.words_replace_oneWord apart_element whole (keepsStart_element _)
    member).resolve_left fun begins => ?_
  have none : ∀ {name : Text}, inputStem <+: name → ¬ outputVariable <+: name := by
    intro name stem begins
    obtain ⟨rest, rfl⟩ := stem
    exact absurd (List.cons_prefix_cons.mp begins).1 (by decide)
  rcases tracked with (rfl | stem) | rfl
  · exact absurd begins (by decide)
  · exact none stem begins
  · exact absurd begins (by decide)

private theorem mem_words_element_iff (closed : ¬ Text.MeetsWord ']' text) :
    name ∈ words (outputElement.replace (fun _ => outputVariable) text) ↔ name ∈ words text := by
  refine Pattern.mem_words_replace_of_outside apart_element ⟨keepsStart_element _, ?_⟩ ?_
  · intro before stretch rest inside found _ends
    obtain ⟨_outside, read⟩ :=
      (Pattern.notAfter_append_eq_some_iff consumes_element.sound).mp found
    obtain ⟨front, char, split, rfl⟩ := endsIn_element _ _ read
    obtain ⟨early, whole⟩ := inside
    refine Bool.eq_false_iff.mpr fun begins => closed ⟨tokens (early ++ front), tokens rest, ?_, ?_⟩
    · rw [← whole, split, ← List.append_assoc, Text.tokens_append_mark (by decide)]
    · rw [Text.spell_tokens]
      exact begins
  · intro before stretch rest found
    refine ⟨not_mem_element tracked found, ?_⟩
    have single : words outputVariable = [outputVariable] := by decide
    rw [single]
    rcases tracked with (rfl | stem) | rfl
    · decide
    · intro same
      rw [List.mem_singleton.mp same] at stem
      exact absurd stem (by decide)
    · decide

private theorem mem_words_highPrecision_iff :
    name ∈ words (highPrecision.remove text) ↔ name ∈ words text := by
  let qualifier : Scan := Scan.literal "highp" >=> Scan.someBlanks
  have consumes : qualifier.Consumes :=
    (Scan.consumes_literal (by decide)).andThen (Scan.consumes_oneOrMore isBlank).sound
  have blank : qualifier.EndsIn fun char => isWord char = false :=
    (Scan.sound_literal _).andThen_endsIn
      (Scan.endsIn_oneOrMore fun _char white => isWord_of_isBlank white)
  have within : qualifier.Within (Among "highp") :=
    (Scan.within_literal fun _char member => .inl member).andThen
      (Scan.within_oneOrMore fun _char white => .inr white)
  have apart : highPrecision.Apart := Pattern.apart_atWordStart consumes
    fun _stretch _rest found ends => absurd ((blank.not_endsWord found).symm.trans ends) nofun
  have keeps : highPrecision.KeepsStart fun _ => [] :=
    Pattern.keepsStart_atWordStart consumes.sound
      (fun _text _rest found => Scan.startsWord_of_literal (by decide) found) _
  refine Pattern.mem_words_replace_of_outside apart ⟨keeps, fun _inside _found => nofun⟩ ?_
  intro before stretch rest found
  refine ⟨fun member => ?_, List.not_mem_nil⟩
  obtain ⟨char, inside, other⟩ := tracked.exists_letter
    (by decide : ¬ Among "highp" 'b') (.inl (by decide))
  exact other (Pattern.within_of_matched consumes.sound within found char
    (Text.mem_of_mem_words member inside))

private theorem mem_words_loops_iff {bounded : Text}
    (done : boundLoops iterationCeiling text = .ok bounded) :
    name ∈ words bounded ↔ name ∈ words text := by
  apply mem_words_boundLoops_iff _ _ done
  · exact tracked.exists_letter (by decide : ¬ InEndlessHead 'b') (.inl (by decide))
  · exact tracked.exists_letter (by decide : ¬ InBoundedHead 'b') (.inr (by decide))

private theorem mem_words_temporaries_iff :
    name ∈ words (renameTemporaries text) ↔ name ∈ words text := by
  have reworded := reworded_renameTemporaries text
  have other : ∀ {char : Char} {rest : Text}, name = char :: rest → char = 'g' ∨ char = 'i' := by
    intro char rest same
    rw [same] at tracked
    rcases tracked with (equal | stem) | equal
    · exact .inl (List.cons.inj equal).1
    · exact .inr (List.cons_prefix_cons.mp stem).1.symm
    · exact .inl (List.cons.inj equal).1
  constructor
  · intro member
    refine (reworded.mem_words member).resolve_right fun renamed => ?_
    obtain ⟨old, _source, digits, _number, _same, equal⟩ := renamed
    rcases other equal with impossible | impossible
    · cases impossible
    · cases impossible
  · intro member
    refine (reworded.mem_words_of_mem member).resolve_right fun renamed => ?_
    obtain ⟨new, _held, digits, _number, equal, _same⟩ := renamed
    rcases other equal with impossible | impossible
    · cases impossible
    · cases impossible

end

section
variable {mode : ExecutionMode} {code image name : Text}
  (done : boundLoops iterationCeiling (highPrecision.remove (renameTemporaries
    (rename (mangledNames mode) (mapInputs mode code)))) = .ok image)
include done

private theorem mem_words_converted_iff (names : NamesInput name) :
    name ∈ words image ↔ name ∈ words (rename (mangledNames mode) (mapInputs mode code)) := by
  have tracked : Tracked name := .inl names
  rw [mem_words_loops_iff tracked done, mem_words_highPrecision_iff tracked,
    mem_words_temporaries_iff tracked]

private theorem lingers_of_converted (reads : ReadsInputs mode code) (names : NamesInput name)
    (member : name ∈ words image) : Lingers mode code name := by
  rw [mem_words_converted_iff done names] at member
  have reworded := (isRenaming_mangled mode).reworded id (mapInputs mode code)
  rcases reworded.mem_words member with kept | ⟨old, source, renamed⟩
  · have mapped := mem_words_of_element (.inl names) kept
    exact lingers_of_spares reads names ((mem_words_mapped_iff (.inl names)).mp mapped)
  · cases ((mangledNames_block mode).2 _ renamed).1 names
    have mapped := mem_words_of_element (.inr rfl) source
    exact .mangled ((mem_words_mapped_iff (.inr rfl)).mp mapped)

private theorem mem_words_of_lingers (closed : ¬ Text.MeetsWord ']' code)
    (lingers : Lingers mode code name) : name ∈ words image := by
  have names : NamesInput name := by
    cases lingers with
    | member _known _stands _used => exact .inl rfl
    | input _known _inside _used => exact .inr (List.prefix_append _ _)
    | mangled _spared => exact .inl rfl
  have apart : ¬ Text.MeetsWord ']' (rename (inputNames mode) code) := fun meets =>
    closed (meetsWord_of_rename (startsWord_inputNames mode)
      (fun entry member => (inputNames_checked mode entry member).2.1.2) meets)
  have mapped : ∀ {word : Text}, Tracked word →
      (Renames.pattern ((inputNames mode).active code)).Spares word code →
        word ∈ words (mapInputs mode code) := fun tracked spared =>
    (mem_words_element_iff tracked apart).mpr ((mem_words_mapped_iff tracked).mpr spared)
  have reworded := (isRenaming_mangled mode).reworded id (mapInputs mode code)
  obtain ⟨entry, checked⟩ := mangledNames_block mode
  rw [mem_words_converted_iff done names]
  rcases spares_of_lingers lingers with spared | ⟨rfl, spared⟩
  · rcases reworded.mem_words_of_mem (mapped (.inl names) spared) with stays | ⟨new, _held, renamed⟩
    · exact stays
    · obtain ⟨_names, _mangled, block, inputs⟩ := checked _ renamed
      cases lingers with
      | member _known _stands _used => exact absurd rfl block
      | input known _inside _used => exact absurd rfl (inputs _ known)
      | mangled _spared => exact absurd rfl block
  · rcases reworded.mem_words_of_mem (mapped (.inr rfl) spared) with stays | ⟨new, held, renamed⟩
    · exact (covers_mangled mode _).settled (isRenaming_mangled mode) _ _ entry stays
    · have same : new = blockName := (checked _ renamed).2.1 rfl
      rwa [same] at held

end

/-- The words that an image function takes over: those in front of the entry function and those of its
body, or only the former when they hold an image function. -/
def carriedWords (text : Text) : List Text :=
  match findFunction text [glslEntryPoint] with
  | none => words text
  | some span =>
    words (text.take span.start) ++
      if imageFunctionHead.occursIn (Text.trim (text.take span.start)) then []
      else words ((text.take span.bodyEnd).drop span.bodyStart)

theorem carriedWords_subset (text : Text) : carriedWords text ⊆ words text := by
  unfold carriedWords
  cases found : findFunction text [glslEntryPoint] with
  | none => exact List.Subset.refl _
  | some span =>
      obtain ⟨front, head, body, rest, divides⟩ := findFunction_eq_some found
      simp only [divides.front_eq, divides.body_eq, divides.words_eq]
      intro word member
      rcases List.mem_append.mp member with early | inside
      · exact List.mem_append_left _ (List.mem_append_left _ early)
      · split at inside
        · cases inside
        · exact List.mem_append_right _ (List.mem_append_left _ inside)

theorem mem_words_imageFunction_iff (mode : ExecutionMode) {name text : Text}
    (names : NamesInput name) :
    name ∈ words (imageFunction mode text) ↔ name ∈ carriedWords text := by
  have blank : Text.Blank margin := List.all_eq_true.mp (by decide : margin.isBlankText = true)
  have absent : ∀ {text : Text}, (∀ word ∈ words text, ¬ NamesInput word) → name ∉ words text :=
    fun each member => each name member names
  unfold imageFunction carriedWords
  cases findFunction text [glslEntryPoint] with
  | none => exact Iff.rfl
  | some span =>
      simp only
      by_cases head : imageFunctionHead.occursIn (Text.trim (text.take span.start)) = true
      · rw [if_pos head, if_pos head, List.append_nil, Text.words_trim]
      · have uniformRemark := absent (by rw [String.toList_ofList]; decide +kernel : ∀ word ∈ words
          "// Uniforms: iResolution, iTime, iTimeDelta, iFrame, iFrameRate", ¬ NamesInput word)
        have outputRemark := absent (by rw [String.toList_ofList]; decide +kernel : ∀ word ∈ words
          "// Output: fragColor (vec4)", ¬ NamesInput word)
        have signature := absent (by rw [String.toList_ofList]; decide +kernel : ∀ word ∈ words
          "void mainImage(out vec4 fragColor, in vec2 fragCoord)", ¬ NamesInput word)
        have opening := absent (by decide : ∀ word ∈ words "\x7b", ¬ NamesInput word)
        have closing := absent (by decide : ∀ word ∈ words "\x7d", ¬ NamesInput word)
        have nothing : name ∉ words [] := List.not_mem_nil
        have setup : name ∉ words (entrySetup mode) := absent (by cases mode <;> decide)
        have declared : words (indent margin (entrySetup mode)) = words (entrySetup mode) :=
          words_of_content_eq (content_indent blank _)
        have inner : ∀ body : Text, words (indent margin (dedent body)) = words body :=
          fun body => words_of_content_eq ((content_indent blank _).trans (content_dedent body))
        rw [if_neg head, if_neg head, Text.words_unlines, ← Text.words_trim (text.take span.start)]
        by_cases empty : (Text.trim (text.take span.start)).isEmpty = true
        · rw [if_pos empty, List.isEmpty_iff.mp empty]
          simp only [List.flatMap_append, List.flatMap_cons, List.flatMap_nil, List.mem_append,
            List.not_mem_nil, uniformRemark, outputRemark, signature, opening, closing, nothing,
            setup, declared, inner, false_or, or_false]
        · rw [if_neg empty]
          simp only [List.flatMap_append, List.flatMap_cons, List.flatMap_nil, List.mem_append,
            List.not_mem_nil, uniformRemark, outputRemark, signature, opening, closing, nothing,
            setup, declared, inner, false_or, or_false]

/-! ### Exports -/

/-- The export of a converted module names a block or an input that it does not declare only where an
access lingers. It is the image function of the module with its accesses renamed, which takes over the
words in front of the entry function and in its body; if no word is written right behind a bracket,
every access that lingers is in that module. -/
theorem exportArtifact_glsl_names_input {mode : ExecutionMode} {artifact exported : Text}
    (done : exportArtifact .glsl mode artifact = .ok exported)
    (unmarked : userSection? artifact.normalizeNewlines = none)
    (converts : isGlslModule artifact.normalizeNewlines = true)
    (reads : ReadsInputs mode (dropDeclarations mode artifact.normalizeNewlines)) :
    let code := dropDeclarations mode artifact.normalizeNewlines
    (∀ name, NamesInput name → name ∈ words exported → Lingers mode code name) ∧
      ∃ image, boundLoops iterationCeiling (highPrecision.remove
          (renameTemporaries (rename (mangledNames mode) (mapInputs mode code)))) = .ok image ∧
        exported = finish (imageFunction mode image) ∧
        (∀ name, NamesInput name → (name ∈ words exported ↔ name ∈ carriedWords image)) ∧
        (¬ Text.MeetsWord ']' code →
          ∀ name, NamesInput name → (name ∈ words image ↔ Lingers mode code name)) := by
  intro code
  obtain ⟨image, loops, same⟩ : ∃ image, boundLoops iterationCeiling (highPrecision.remove
      (renameTemporaries (rename (mangledNames mode) (mapInputs mode code)))) = .ok image ∧
        exported = finish (imageFunction mode image) := by
    rcases glsl_eq_ok done with ⟨inside, _bounded, found, _loops, _same⟩ |
      ⟨_missing, _module, image, loops, same⟩ | ⟨_missing, plain, _same⟩
    · exact absurd (unmarked.symm.trans found) nofun
    · exact ⟨image, loops, same⟩
    · exact absurd (converts.symm.trans plain) nofun
  have carried : ∀ name, NamesInput name →
      (name ∈ words exported ↔ name ∈ carriedWords image) := by
    intro name names
    rw [same, words_finish]
    exact mem_words_imageFunction_iff mode names
  have lingering : ∀ name, NamesInput name → name ∈ words image → Lingers mode code name :=
    fun _name names => lingers_of_converted loops reads names
  refine ⟨fun name names member => ?_, image, loops, same, carried, fun closed name names =>
    ⟨lingering name names, mem_words_of_lingers loops closed⟩⟩
  exact lingering name names (carriedWords_subset image ((carried name names).mp member))

/-- In ShaderToy mode a parameter is its own plain name, which is in use wherever the parameter is
read; so every read of the block lingers, but for that of the frame number. -/
theorem lingers_of_shaderToy {code : Text} {symbol : HeaderSymbol}
    (known : symbol ∈ uniforms .shaderToy) (other : symbol.name ≠ "iFrame".toList)
    (stands : StandsIn (blockName ++ "." ++ symbol.name) code) :
    Lingers .shaderToy code blockName := by
  have plain : ∀ symbol ∈ uniforms .shaderToy, symbol.name ≠ "iFrame".toList →
      uniformExpression symbol = symbol.name := by
    decide +kernel
  refine .member known stands ?_
  obtain ⟨front, rest, whole, before, after⟩ := stands
  obtain ⟨_entry, shape⟩ := (accesses_mem_inputNames .shaderToy).1 symbol known
  rw [plain symbol known other, Text.mem_words, whole, List.append_assoc,
    Text.tokens_append fun ends => absurd (before.symm.trans ends) nofun,
    Text.tokens_append fun _ends => after, shape]
  simp

/-- A module that reads the time, in ShaderToy mode. -/
theorem exportArtifact_glsl_names_input_of_time :
    let declarations : Text := "#version 100\nstruct GlobalParams_std140\n\x7b\n" ++
      "    highp float iTime;\n\x7d;\n\nuniform GlobalParams_std140 globalParams;\n\n" ++
      "varying highp vec2 input_uv;\n\n"
    let main : Text := "void main()\n\x7b\n" ++
      "    gl_FragData[0] = vec4(input_uv, globalParams.iTime, 1.0);\n\x7d\n"
    let exported : Text := "// Uniforms: iResolution, iTime, iTimeDelta, iFrame, iFrameRate\n" ++
      "// Output: fragColor (vec4)\n\n" ++
      "void mainImage(out vec4 fragColor, in vec2 fragCoord)\n\x7b\n" ++
      "    vec2 uv = fragCoord / iResolution.xy;\n\n" ++
      "    fragColor = vec4(uv, globalParams.iTime, 1.0);\n\x7d\n"
    let code := dropDeclarations .shaderToy (declarations ++ main).normalizeNewlines
    exportArtifact .glsl .shaderToy (declarations ++ main) = .ok exported ∧
      userSection? (declarations ++ main).normalizeNewlines = none ∧
        isGlslModule (declarations ++ main).normalizeNewlines = true ∧
          ReadsInputs .shaderToy code ∧ blockName ∈ words exported ∧
            Lingers .shaderToy code blockName := by
  -- A literal is spelled out once, or it is decoded each time a character of it is compared.
  repeat rw [String.toList_ofList]
  intro declarations main exported code
  have done : exportArtifact .glsl .shaderToy (declarations ++ main) = .ok exported := by
    decide +kernel
  have unmarked : userSection? (declarations ++ main).normalizeNewlines = none := by
    decide +kernel
  have converts : isGlslModule (declarations ++ main).normalizeNewlines = true := by
    decide +kernel
  have reads : ReadsInputs .shaderToy code := ⟨by decide +kernel, by decide +kernel⟩
  have named : blockName ∈ words exported := by
    decide +kernel
  obtain ⟨lingering, _exact⟩ := exportArtifact_glsl_names_input done unmarked converts reads
  exact ⟨done, unmarked, converts, reads, named, lingering blockName (.inl rfl) named⟩

end Export
end ShaderBridge
