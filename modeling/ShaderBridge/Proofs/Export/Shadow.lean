import ShaderBridge.Proofs.Code.Between
import ShaderBridge.Proofs.Code.Uncommented
import ShaderBridge.Proofs.Export.Color
import ShaderBridge.Proofs.Export.NodeInputs
set_option autoImplicit false

/-! Locals of an entry function that shadow the inputs of a node. An access to an input is replaced by
the name of the input unless that name is in use in the body; then it stays, and names a block that the
node does not have. What the body declares at the top level the node declares again, and a local with
the name of an access becomes one with the name of an input
(`exportArtifact_unreal_accesses_iff`). -/

namespace ShaderBridge
namespace Export

open Attempt (map_eq_ok_iff)
open Code
open Text (Blank IsOneWord startsWord endsWord tokens words StandsIn)

structure Steady (piece : List Token) : Prop where
  linked : Linked piece
  ends : ∃ last, piece.getLast? = some (.word last) ∧ (∃ char ∈ last, ¬ InEndlessHead char) ∧
    ∃ char ∈ last, ¬ InBoundedHead char
  apart : ∀ old new, Temporary old new → .word old ∉ piece ∧ .word new ∉ piece
  foreign : ∀ word ∈ reservedWords, word ∉ symbolBlocks → .word word ∉ piece

private theorem word_not_temporary {word : Text} (first : word.head? ≠ some '_' ∧ word.head? ≠ some 't')
    {old new : Text} (temporary : Temporary old new) : word ≠ old ∧ word ≠ new := by
  obtain ⟨digits, _number, rfl, rfl⟩ := temporary
  refine ⟨?_, ?_⟩
  · rintro rfl
    exact first.1 rfl
  · rintro rfl
    exact first.2 rfl

theorem ReadsSymbol.steady {mode : ExecutionMode} {old member new : Text}
    (reads : ReadsSymbol mode old member new) : Steady (tokens old) where
  linked := reads.accesses.linked
  ends := by
    obtain ⟨⟨symbol, known, _given, names⟩, _access⟩ := id reads
    obtain ⟨_inputs, _names, ⟨char, inside, other⟩, ⟨letter, within, another⟩, _header⟩ :=
      symbols_plain mode symbol known
    exact ⟨member, reads.accesses.getLast?, ⟨char, names.isInfix.subset inside, other⟩,
      ⟨letter, names.isInfix.subset within, another⟩⟩
  apart old new temporary := by
    obtain ⟨⟨symbol, known, _given, names⟩, _access⟩ := id reads
    obtain ⟨before, after⟩ := names.not_temporary known temporary
    have first : ∀ block ∈ symbolBlocks, block.head? ≠ some '_' ∧ block.head? ≠ some 't' := by
      decide
    refine ⟨reads.word_not_mem before.symm fun block => ?_,
      reads.word_not_mem after.symm fun block => ?_⟩
    · exact (word_not_temporary (first _ block) temporary).1 rfl
    · exact (word_not_temporary (first _ block) temporary).2 rfl
  foreign word reserved other := by
    refine reads.word_not_mem ?_ other
    rintro rfl
    exact reads.not_mem_reserved.1 reserved

theorem steady_of_mem_headerNames {name : Text} (listed : name ∈ headerNames) :
    Steady [.word name] := by
  obtain ⟨_identifier, other, low, unread, unwritten⟩ := headerNames_checked name listed
  have letter := (reserved_checked name (List.mem_append_right _ listed)).2
  have single : ∀ {word : Text}, name ≠ word → .word word ∉ [Token.word name] := by
    intro word different member
    exact different (Token.word.inj (List.mem_singleton.mp member)).symm
  refine ⟨⟨List.cons_ne_nil _ _, by simp⟩, ⟨name, rfl, unread, unwritten⟩, ?_, ?_⟩
  · intro old new temporary
    obtain ⟨before, after⟩ := word_not_temporary ⟨low, letter⟩ temporary
    exact ⟨single before, single after⟩
  · intro word reserved _other
    refine single ?_
    rintro rfl
    exact other reserved

section
variable {Here : Code.Place → Prop} {piece : List Token} (steady : Steady piece)
include steady

theorem Steady.occurs_iff {vectors : List Text} {text spelled : Text}
    (done : spellOut vectors (renameTemporaries text) = .ok spelled) (place : Code.Place) :
    Occurs Here piece place (tokens spelled) ↔ Occurs Here piece place (tokens text) := by
  obtain ⟨last, ends, unread, unwritten⟩ := steady.ends
  rw [occurs_boundLoops_iff steady.linked ends unread unwritten done,
    occurs_expandVectorCalls_iff steady.linked, occurs_renameTemporaries_iff ends steady.apart]

theorem Steady.not_infix_of_reserved {parts : List Token}
    (reserved : ∀ token ∈ parts, token ∉ piece) : ¬ piece <:+: parts := by
  intro inside
  obtain ⟨last, ends, _rest⟩ := steady.ends
  have member := List.mem_of_getLast? ends
  exact reserved _ (inside.subset member) member

private theorem infix_join (parts : List Text) (inside : piece <:+: tokens (Text.join ", " parts)) :
    ∃ part ∈ parts, piece <:+: tokens part := by
  induction parts with
  | nil => exact absurd (List.infix_nil.mp inside) steady.linked.1
  | cons part parts ih =>
      cases parts with
      | nil =>
          have single : Text.join ", " [part] = part := List.append_nil part
          rw [single] at inside
          exact ⟨part, List.mem_cons_self, inside⟩
      | cons next parts =>
          have split : Text.join ", " (part :: next :: parts) =
              part ++ ',' :: ' ' :: Text.join ", " (next :: parts) :=
            Text.join_cons_cons _ _ _ _
          have comma := steady.linked.not_mem (by decide : ',' ≠ '.')
          have space := steady.linked.not_mem (by decide : ' ' ≠ '.')
          rw [split, Text.tokens_append_mark (by decide), Text.tokens_cons_mark (by decide),
            infix_cut steady.linked.1 comma] at inside
          rcases inside with here | later
          · exact ⟨part, List.mem_cons_self, here⟩
          · rw [← List.nil_append (_ :: _), infix_cut steady.linked.1 space] at later
            rcases later with none | behind
            · exact absurd (List.infix_nil.mp none) steady.linked.1
            · obtain ⟨other, member, found⟩ := ih behind
              exact ⟨other, List.mem_cons_of_mem _ member, found⟩

/-- What stands in a color stands in the value that it is cut down from. -/
theorem Steady.infix_of_truncateToRgb {value : Text}
    (inside : piece <:+: tokens (truncateToRgb value)) : piece <:+: tokens value := by
  -- What a truncation brings in is not in a steady row, but for the point, in which no row ends.
  have swizzle : .word "xyz" ∉ piece := steady.foreign _ (by decide) (by decide)
  have type : .word "float3" ∉ piece := steady.foreign _ (by decide) (by decide)
  have point : ∀ front, ¬ piece <:+ front ++ [Token.mark '.'] := by
    rintro front ⟨before, same⟩
    obtain ⟨last, ends, _rest⟩ := steady.ends
    have final := congrArg List.getLast? same
    rw [List.getLast?_concat, List.getLast?_append_of_ne_nil _ steady.linked.1, ends] at final
    cases final
  have opening := steady.linked.not_mem (by decide : '(' ≠ '.')
  have closing := steady.linked.not_mem (by decide : ')' ≠ '.')
  have trimmed := (Text.standsIn_trim value).tokens_isInfix
  refine List.IsInfix.trans ?_ trimmed
  unfold truncateToRgb at inside
  simp only at inside
  cases made : truncateToRgb.constructed value.trim with
  | some color =>
      obtain ⟨inner, stands, shape⟩ := constructed_eq_some made
      have part : ∀ argument ∈ (splitArguments inner).dropLast,
          tokens argument <:+: tokens value.trim := by
        intro argument member
        exact ((standsIn_splitArguments ((List.dropLast_subset _) member)).trans stands).tokens_isInfix
      rw [made, Option.getD_some] at inside
      rcases shape with single | rfl
      · exact inside.trans (part color (single ▸ List.mem_singleton.mpr rfl))
      · have whole : ("float3(" ++ Text.join ", " (splitArguments inner).dropLast ++ ")" : Text) =
            "float3" ++ '(' :: (Text.join ", " (splitArguments inner).dropLast ++ ')' :: []) :=
          List.append_assoc _ _ _
        have name : tokens "float3" = [.word "float3"] := by decide
        rw [whole, Text.tokens_append_mark (by decide), Text.tokens_append_mark (by decide), name,
          infix_cut steady.linked.1 opening, infix_cut steady.linked.1 closing] at inside
        rcases inside with early | joined | late
        · exact absurd early (steady.not_infix_of_reserved (List.forall_mem_singleton.mpr type))
        · obtain ⟨argument, member, found⟩ := infix_join steady _ joined
          exact found.trans (part argument member)
        · exact absurd late (steady.not_infix_of_reserved nofun)
  | none =>
      have swizzled : ∀ {front : List Token},
          piece <:+: front ++ .mark '.' :: tokens "xyz" → piece <:+: front := by
        intro front found
        have name : tokens "xyz" = [] ++ Token.word "xyz" :: [] := by decide
        rw [name, ← List.cons_append, ← List.append_assoc, infix_cut steady.linked.1 swizzle] at found
        rcases found with early | late
        · exact (List.infix_concat_iff.mp early).resolve_left (point front)
        · exact absurd late (steady.not_infix_of_reserved nofun)
      rw [made, Option.getD_none] at inside
      split at inside
      · have whole : (value.trim ++ ".xyz" : Text) = value.trim ++ '.' :: "xyz" := rfl
        rw [whole, Text.tokens_append_mark (by decide)] at inside
        exact swizzled inside
      · have whole : ("(" ++ value.trim ++ ").xyz" : Text) =
            [] ++ '(' :: (value.trim ++ ')' :: '.' :: "xyz") := rfl
        rw [whole, Text.tokens_append_mark (by decide), Text.tokens_append_mark (by decide),
          Text.tokens_cons_mark (by decide), infix_cut steady.linked.1 opening,
          infix_cut steady.linked.1 closing] at inside
        rcases inside with early | here | late
        · exact absurd early (steady.not_infix_of_reserved nofun)
        · exact here
        · have none : piece <:+: [] := swizzled late
          exact absurd none (steady.not_infix_of_reserved nofun)

end

/-- A value that is handed on stands in its statement, in front of the semicolon. -/
theorem handedOn_eq_some {statement value : Text} (found : handedOn statement = some value) :
    ∃ front, statement = front ++ (value ++ [';']) ∧ front ≠ [] ∧ endsWord front = false := by
  have read : ∀ {scan : Scan} {rest : Text}, scan.EndsIn (fun char => isWord char = false) →
      scan statement = some rest → beforeSemicolon rest = some value →
        ∃ front, statement = front ++ (value ++ [';']) ∧ front ≠ [] ∧ endsWord front = false := by
    intro scan rest ends found ended
    obtain ⟨front, char, split, mark⟩ := ends statement rest found
    rw [beforeSemicolon_eq_some ended] at split
    refine ⟨front ++ [char], by rw [split, List.append_assoc]; rfl, by simp, ?_⟩
    rw [Text.endsWord_concat]
    exact mark
  have blanks : Scan.Sound Scan.someBlanks := (Scan.consumes_oneOrMore isBlank).sound
  have typeName : Scan.Sound (Scan.identifier >=> Scan.someBlanks) :=
    readsWord_identifier.consumes.sound.andThen blanks
  have constant : Scan.Sound (Scan.literal "const" >=> Scan.someBlanks) :=
    (Scan.sound_literal _).andThen blanks
  have equals : Scan.EndsIn (fun char => isWord char = false) (Scan.literal "=") :=
    Scan.endsIn_literal (show "=".toList = [] ++ ['='] by decide) rfl
  have target := readsWord_outputName.1.consumes.sound.andThen_endsIn
    (Scan.sound_blanks.andThen_endsIn (equals.andThen_notBefore (Scan.literal "=")))
  unfold handedOn at found
  obtain ⟨found, _other⟩ := Option.filter_eq_some_iff.mp found
  cases output : assignedOutput statement with
  | some assigned =>
      rw [output] at found
      cases found
      obtain ⟨behind, scanned, ended⟩ := Option.bind_eq_some_iff.mp output
      exact read ((constant.andThen_endsIn (typeName.andThen_endsIn target)).orElse
        ((typeName.andThen_endsIn target).orElse target)) scanned ended
  | none =>
      rw [output] at found
      obtain ⟨behind, scanned, found⟩ := Option.bind_eq_some_iff.mp found
      split at found
      · next char rest =>
          obtain ⟨white, ended⟩ := Option.ite_none_right_eq_some.mp found
          have whole := Scan.literal_eq_some_iff.mp scanned
          rw [beforeSemicolon_eq_some ended] at whole
          refine ⟨"return" ++ [char], by rw [whole, List.append_assoc]; rfl, by simp, ?_⟩
          rw [Text.endsWord_concat]
          exact isWord_of_isBlank white
      · cases found

/-- A value that is handed on stands in a body without comments. -/
theorem standsIn_of_handedOn {body value : Text} (plain : Uncommented body) {statement : Statement}
    (member : statement ∈ statements body) (found : handedOn statement.text = some value) :
    StandsIn value body := by
  obtain ⟨front, raw, rest, rfl, _start, _stop, text⟩ := spans_of_mem_statements member
  have clear : Uncommented raw := (List.IsChain.left_of_append plain).right_of_append
  obtain ⟨before, after, left, right, trimmed⟩ := Text.exists_trim raw
  obtain ⟨opening, split, filled, ends⟩ := handedOn_eq_some found
  rw [clear.stripComments_eq_self] at text
  rw [← text, split] at trimmed
  refine ⟨front ++ (before ++ opening), ';' :: (after ++ rest), ?_, ?_, rfl⟩
  · rw [trimmed]
    simp only [List.append_assoc, List.cons_append]
    rfl
  · rw [← List.append_assoc, Text.endsWord_append _ filled]
    exact ends

/-- A body ends in the return of its color, behind the statements that settle it, or stays as it is. -/
theorem writeAsReturn_cases {body : Text} (plain : Uncommented body) :
    writeAsReturn body = body ∨
      ∃ before statement after front value rest, statements body = before ++ statement :: after ∧
        writeAsReturn body = front ++ "return " ++ truncateToRgb value ++ ";" ++ rest ∧
          content front = content (body.take statement.start) ∧ endsWord front = false ∧ Blank rest ∧
            (value ∈ outputNames ∨
              (settling body).getLast? = some statement ∧ handedOn statement.text = some value) := by
  have split := statements_split body
  have same := writeAsReturn_eq body
  cases found : (settling body).getLast?.bind fun last =>
      (handedOn last.text).map fun value => (last.start, value) with
  | some entry =>
      obtain ⟨statement, final, read⟩ := Option.bind_eq_some_iff.mp found
      obtain ⟨value, handed, rfl⟩ := Option.map_eq_some_iff.mp read
      obtain ⟨before, settled⟩ := List.getLast?_eq_some_iff.mp final
      have placed : statements body = before ++ statement :: handingOn body := by
        rw [split, settled, List.append_assoc]
        rfl
      obtain ⟨front, last, ends⟩ : ∃ front last, statements body = front ++ [last] := by
        have filled : statements body ≠ [] := by
          rw [placed]
          exact List.append_ne_nil_of_right_ne_nil before (List.cons_ne_nil _ _)
        exact ⟨_, _, (List.dropLast_concat_getLast filled).symm⟩
      have stop : ((statements body).getLast?.map Statement.stop).getD 0 = last.stop := by
        rw [ends, List.getLast?_concat]
        rfl
      rw [found, stop] at same
      exact .inr ⟨before, statement, handingOn body, _, value, _, placed, same, rfl,
        (between_at plain placed).2, blank_behind plain ends, .inr ⟨final, handed⟩⟩
  | none =>
      rw [found] at same
      cases handed : handingOn body with
      | nil =>
          rw [handed] at same
          exact .inl same
      | cons first others =>
          rw [handed] at same
          refine .inr ⟨settling body, first, others, Text.trimEnd (body.take first.start) ++ ['\n'], _,
            ['\n'], handed ▸ split, ?_, ?_, ?_, ?_, .inl (writtenName_mem (first :: others))⟩
          · rw [same]
            simp only [List.append_assoc]
            rfl
          · have blank : Blank ['\n'] := List.forall_mem_singleton.mpr isBlank_line_feed
            rw [content_append_blank _ blank, content_trimEnd]
          · rw [Text.endsWord_concat]
            exact Text.isWord_line_feed
          · exact List.forall_mem_singleton.mpr isBlank_line_feed

section
variable {piece : List Token} {body : Text} (plain : Uncommented body)
include plain

private theorem occurs_of_writeAsReturn {Here : Code.Place → Prop} (steady : Steady piece)
    (occurs : Occurs Here piece .start (tokens (writeAsReturn body))) :
    Occurs Here piece .start (tokens body) ∨
      ∃ place value, place.Idle ∧ Occurs Here piece place (tokens (truncateToRgb value)) ∧
        (value ∈ outputNames ∨ ∃ statement,
          (settling body).getLast? = some statement ∧ handedOn statement.text = some value) := by
  rcases writeAsReturn_cases plain with same | ⟨before, statement, after, front, value, rest, split,
    same, early, cut, blank, source⟩
  · rw [same] at occurs
    exact .inl occurs
  · obtain ⟨between, ends⟩ := between_at plain split
    have foreign : .word "return" ∉ piece := steady.foreign _ (by decide) (by decide)
    have whole : tokens body =
        tokens (body.take statement.start) ++ tokens (body.drop statement.start) := by
      rw [← Text.tokens_append fun open_ => absurd (ends.symm.trans open_) nofun,
        List.take_append_drop]
    rw [same, occurs_returned_iff steady.linked foreign cut blank] at occurs
    rcases occurs with here | later
    · rw [occurs_of_content_eq steady.linked early] at here
      rw [whole]
      exact .inl (here.append_right _)
    · rw [across_of_content_eq early] at later
      refine .inr ⟨_, value, between.pass_return, later, source.imp_right ?_⟩
      exact fun handed => ⟨statement, handed⟩

/-- The return of a color brings nothing into a body that did not stand in it. -/
theorem infix_of_writeAsReturn (steady : Steady piece)
    (inside : piece <:+: tokens (writeAsReturn body)) : piece <:+: tokens body := by
  rw [← occurs_true_iff .start] at inside
  rcases occurs_of_writeAsReturn plain steady inside with here | ⟨_place, value, _idle, color, source⟩
  · exact (occurs_true_iff _ _).mp here
  · have held := steady.infix_of_truncateToRgb ((occurs_true_iff _ _).mp color)
    rcases source with name | ⟨statement, final, handed⟩
    · have known : ∀ name ∈ outputNames, tokens name = [.word name] ∧ name ∈ reservedWords ∧
          name ∉ symbolBlocks := by
        decide +kernel
      obtain ⟨single, reserved, other⟩ := known value name
      rw [single] at held
      refine absurd held (steady.not_infix_of_reserved (List.forall_mem_singleton.mpr ?_))
      exact steady.foreign value reserved other
    · have member : statement ∈ statements body := by
        rw [statements_split body]
        exact List.mem_append_left _ (List.mem_of_getLast? final)
      exact held.trans (standsIn_of_handedOn plain member handed).tokens_isInfix

/-- The return of a color declares nothing, if its value ends no statement. -/
theorem declaredIn_of_writeAsReturn {name : Text} (one : IsOneWord name) (steady : Steady [.word name])
    (quiet : ∀ last value, (settling body).getLast? = some last → handedOn last.text = some value →
      Inner value) (declared : DeclaredIn name (writeAsReturn body)) : DeclaredIn name body := by
  have single := Text.tokens_of_oneWord one
  unfold DeclaredIn StandsAt at declared ⊢
  rw [single] at declared ⊢
  refine (occurs_of_writeAsReturn plain steady declared).resolve_right ?_
  rintro ⟨place, value, idle, color, source⟩
  refine idle.not_occurs (fun char member => ?_) color
  have inside := (Text.mark_mem_tokens.mp member).1
  rcases source with known | ⟨statement, final, handed⟩
  · have each : ∀ name ∈ outputNames, ∀ char ∈ truncateToRgb name, char ≠ ';' ∧ char ≠ '}' := by
      decide +kernel
    exact each value known char inside
  · exact (inner_truncateToRgb (quiet statement value final handed)).unended char inside

end

section
variable {mode : ExecutionMode} {preamble text spelled : Text} {vectors : List Text}
  (done : spellOut vectors (renameTemporaries (rename (nodeInputs mode preamble) text)) = .ok spelled)
include done

private theorem standsIn_spelled_iff {old new : Text} (entry : (old, new) ∈ nodeInputs mode preamble) :
    StandsIn old spelled ↔ StandsIn old text ∧ new ∈ words text := by
  obtain ⟨_member, reads⟩ := reads_of_mem_nodeInputs entry
  obtain ⟨opens, closes⟩ := reads.accesses.ends
  rw [← standsIn_rename_iff (ofAccesses_nodeInputs mode preamble) entry, standsIn_iff opens closes,
    standsIn_iff opens closes, ← occurs_true_iff .start, ← occurs_true_iff .start,
    reads.steady.occurs_iff done]

private theorem declaredIn_spelled_iff {name : Text} (listed : name ∈ headerNames) :
    DeclaredIn name spelled ↔ DeclaredIn name text ∨
      name ∉ words text ∧ ∃ old, (old, name) ∈ nodeInputs mode preamble ∧ DeclaredIn old text := by
  have one : IsOneWord name := (isIdentifier_iff.mp (headerNames_checked name listed).1).1
  have steady := steady_of_mem_headerNames listed
  have foreign : ∀ entry ∈ nodeInputs mode preamble, .word name ∉ tokens entry.1 := by
    intro entry known
    obtain ⟨_member, reads⟩ := reads_of_mem_nodeInputs known
    exact not_mem_of_mem_headerNames reads listed
  rw [← declaredIn_rename_iff (ofAccesses_nodeInputs mode preamble) one foreign]
  unfold DeclaredIn StandsAt
  rw [Text.tokens_of_oneWord one, steady.occurs_iff done]

end

theorem spelled_of_mem_nodeHelpers {mode : ExecutionMode} {inputs : Renames} {vectors helpers : List Text}
    {preamble body helper : Text} (helped : nodeHelpers mode inputs vectors preamble body = .ok helpers)
    (member : helper ∈ helpers) :
    ∃ known, spellOut known (renameTemporaries (rename inputs (helperFunctions preamble))) =
      .ok helper := by
  unfold nodeHelpers at helped
  simp only at helped
  split at helped
  · obtain ⟨other, spelled, rfl⟩ := map_eq_ok_iff.mp helped
    rw [List.mem_singleton.mp member]
    exact ⟨_, spelled⟩
  · cases helped
    cases member

private theorem standsIn_node_iff {mode : ExecutionMode} {old member new : Text}
    (reads : ReadsSymbol mode old member new) (helpers : List Text) (returned : Text) :
    StandsIn old (finish (Text.unlines
      ([nodeHeader mode, "// Shader logic"] ++ helpers ++ [dedent returned]))) ↔
        StandsIn old returned ∨ ∃ helper ∈ helpers, StandsIn old helper := by
  obtain ⟨opens, closes⟩ := reads.accesses.ends
  have linked := reads.accesses.linked
  have laid : ∀ {text other : Text}, content text = content other →
      (tokens old <:+: tokens text ↔ tokens old <:+: tokens other) := by
    intro text other same
    rw [← occurs_true_iff .start, ← occurs_true_iff .start, occurs_of_content_eq linked same]
  have last : .word member ∈ tokens old := List.mem_of_getLast? reads.accesses.getLast?
  have header : ¬ tokens old <:+: tokens (nodeHeader mode) := fun inside =>
    reads.not_mem_nodeHeader (Text.mem_words.mpr (inside.subset last))
  have remark : ¬ tokens old <:+: tokens "// Shader logic" := by
    intro inside
    have listed : ∀ word ∈ words "// Shader logic", word ∈ reservedWords := by decide
    exact reads.not_mem_reserved.1 (listed _ (Text.mem_words.mpr (inside.subset last)))
  simp only [standsIn_iff opens closes]
  rw [laid (content_finish _), infix_tokens_unlines linked]
  simp only [List.mem_append, List.mem_cons, List.not_mem_nil, or_false, or_assoc, or_and_right,
    exists_or, exists_eq_left, header, remark, false_or, laid (content_dedent returned)]
  exact or_comm

theorem declaredIn_nodeHeader_iff (mode : ExecutionMode) {name : Text} (one : IsOneWord name) :
    DeclaredIn name (stripComments (nodeHeader mode)) ↔ name ∈ headerNames := by
  have declared : (declaredWords .start (tokens (stripComments (nodeHeader mode)))).Perm headerNames := by
    cases mode
    all_goals
      unfold nodeHeader resolutionLine headerNames
      repeat rw [block_cons]
      rw [block_nil]
      decide +kernel
  rw [declaredIn_iff one]
  exact declared.mem_iff

theorem uncommented_of_spelled {mode : ExecutionMode} {preamble text spelled : Text}
    {vectors : List Text} (plain : Uncommented text)
    (done : spellOut vectors (renameTemporaries (rename (nodeInputs mode preamble) text)) =
      .ok spelled) : Uncommented spelled := by
  have ofAccesses := ofAccesses_nodeInputs mode preamble
  have named := plain.rename (fun old key => ofAccesses.ends key) fun entry member =>
    (ofAccesses.input entry member).1
  exact (named.renameTemporaries.expandVectorCalls _ _).boundLoops done

/-- What becomes of the accesses to its inputs in a node, and of the names that its header declares. An
access stays in the body, or in a helper function, where its input is a word of the code, and a name of
the header is declared again where the code declares it, or declares a local with the name of an access
to it. So where the code of the entry function opens no comment, an export holds an access only if the
code or a helper function holds it beside its input. -/
theorem exportArtifact_unreal_accesses_iff {mode : ExecutionMode} {artifact exported : Text}
    {span : FunctionSpan} (done : exportArtifact .unrealHlsl mode artifact = .ok exported)
    (found : findFunction (stripBookkeeping platformGuards artifact.normalizeNewlines)
      entryFunctions = some span) :
    let text := stripBookkeeping platformGuards artifact.normalizeNewlines
    let preamble := text.take span.start
    let code := (text.take span.bodyEnd).drop span.bodyStart
    let inputs := nodeInputs mode preamble
    let entry := renameTemporaries (rename inputs code)
    let vectors := declaredVectors hlslVectors (nodeHeader mode ++ text) ++
      declaredVectors hlslVectors ((text.take span.bodyStart).drop span.start ++ entry)
    let Redeclares (name : Text) := DeclaredIn name code ∨
      name ∉ words code ∧ ∃ old, AccessesInput mode preamble old name ∧ DeclaredIn old code
    (∀ name, IsOneWord name →
      (DeclaredIn name (stripComments (nodeHeader mode)) ↔ name ∈ headerNames)) ∧
    ∃ body helpers, spellOut vectors entry = .ok body ∧
      nodeHelpers mode inputs vectors preamble (writeAsReturn body) = .ok helpers ∧
      exported = finish (Text.unlines ([nodeHeader mode, "// Shader logic"] ++ helpers ++
        [dedent (writeAsReturn body)])) ∧
      (∀ old new, AccessesInput mode preamble old new →
        (StandsIn old body ↔ StandsIn old code ∧ new ∈ words code) ∧
        (∀ helper ∈ helpers, StandsIn old helper ↔
          StandsIn old (helperFunctions preamble) ∧ new ∈ words (helperFunctions preamble)) ∧
        (StandsIn old exported ↔
          StandsIn old (writeAsReturn body) ∨ ∃ helper ∈ helpers, StandsIn old helper)) ∧
      (∀ name ∈ headerNames, DeclaredIn name body ↔ Redeclares name) ∧
      (¬ EndsInColor body → writeAsReturn body = body) ∧
      (Uncommented code →
        (∀ old new, AccessesInput mode preamble old new → StandsIn old exported →
          StandsIn old code ∧ new ∈ words code ∨
            StandsIn old (helperFunctions preamble) ∧ new ∈ words (helperFunctions preamble)) ∧
        ((∀ last value, (settling body).getLast? = some last →
            handedOn last.text = some value → Inner value) →
          ∀ name ∈ headerNames, DeclaredIn name (writeAsReturn body) → Redeclares name)) := by
  intro text preamble code inputs entry vectors Redeclares
  obtain ⟨body, helpers, spelled, helped, laid⟩ := node_of_unreal done found
  have inBody : ∀ {old new}, AccessesInput mode preamble old new →
      (StandsIn old body ↔ StandsIn old code ∧ new ∈ words code) := fun accesses =>
    standsIn_spelled_iff spelled (mem_nodeInputs_iff.mpr accesses)
  have inHelper : ∀ {old new helper}, AccessesInput mode preamble old new → helper ∈ helpers →
      (StandsIn old helper ↔
        StandsIn old (helperFunctions preamble) ∧ new ∈ words (helperFunctions preamble)) := by
    intro old new helper accesses member
    obtain ⟨_known, helped⟩ := spelled_of_mem_nodeHelpers helped member
    exact standsIn_spelled_iff helped (mem_nodeInputs_iff.mpr accesses)
  have inNode : ∀ {old new}, AccessesInput mode preamble old new → (StandsIn old exported ↔
      StandsIn old (writeAsReturn body) ∨ ∃ helper ∈ helpers, StandsIn old helper) := by
    intro old new accesses
    obtain ⟨_member, reads⟩ := accesses.readsSymbol
    rw [laid]
    exact standsIn_node_iff reads helpers _
  have declared : ∀ name ∈ headerNames, DeclaredIn name body ↔ Redeclares name := by
    intro name listed
    have again : DeclaredIn name body ↔ DeclaredIn name code ∨
        name ∉ words code ∧ ∃ old, (old, name) ∈ nodeInputs mode preamble ∧ DeclaredIn old code :=
      declaredIn_spelled_iff spelled listed
    simp only [mem_nodeInputs_iff] at again
    exact again
  refine ⟨fun name one => declaredIn_nodeHeader_iff mode one, body, helpers, spelled, helped, laid,
    fun old new accesses => ⟨inBody accesses, fun helper => inHelper accesses, inNode accesses⟩,
    declared, writeAsReturn_eq_self, fun plain => ?_⟩
  have clear : Uncommented body := uncommented_of_spelled plain spelled
  refine ⟨fun old new accesses stands => ?_, fun quiet name listed again => ?_⟩
  · rcases (inNode accesses).mp stands with returned | ⟨helper, member, held⟩
    · refine .inl ((inBody accesses).mp ?_)
      obtain ⟨_member, reads⟩ := accesses.readsSymbol
      obtain ⟨opens, closes⟩ := reads.accesses.ends
      rw [standsIn_iff opens closes] at returned ⊢
      exact infix_of_writeAsReturn clear reads.steady returned
    · exact .inr ((inHelper accesses member).mp held)
  · have one : IsOneWord name := (isIdentifier_iff.mp (headerNames_checked name listed).1).1
    exact (declared name listed).mp
      (declaredIn_of_writeAsReturn clear one (steady_of_mem_headerNames listed) quiet again)

/-- A local with the name of an input keeps an access to it, and declares the input again. -/
theorem exportArtifact_unreal_accesses_iff_of_local_time :
    let preamble : Text := "cbuffer Uniforms : register(b0)\n\x7b\n" ++
      "    float _20_uTime : packoffset(c0);\n\x7d;\n\nstatic float4 outFragColor;\n\n"
    let code : Text := "\n    float Time = _20_uTime;\n" ++
      "    outFragColor = float4(Time, 0.0f, 0.0f, 1.0f);\n"
    let artifact := preamble ++ "void frag_main()\n\x7b" ++ code ++ "\x7d\n"
    let text := stripBookkeeping platformGuards artifact.normalizeNewlines
    findFunction text entryFunctions = some ⟨105, 123, 203, 204⟩ ∧
      AccessesInput .materialLibrary preamble "_20_uTime" "Time" ∧ Uncommented code ∧
        ∃ exported, exportArtifact .unrealHlsl .materialLibrary artifact = .ok exported ∧
          StandsIn "_20_uTime" exported ∧
          DeclaredIn "Time" (stripComments (nodeHeader .materialLibrary)) ∧ ∃ body helpers,
            exported = finish (Text.unlines ([nodeHeader .materialLibrary, "// Shader logic"] ++
              helpers ++ [dedent (writeAsReturn body)])) ∧
            StandsIn "_20_uTime" body ∧ DeclaredIn "Time" body := by
  intro preamble code artifact text
  -- a literal is spelled out once, or it is decoded each time a character of it is compared
  obtain ⟨plain, known, cut, inside⟩ : text = artifact ∧
      findFunction artifact entryFunctions = some ⟨105, 123, 203, 204⟩ ∧
      artifact.take 105 = preamble ∧ (artifact.take 203).drop 123 = code := by
    simp only [text, artifact, preamble, code]
    repeat rw [String.toList_ofList]
    decide +kernel
  have found : findFunction text entryFunctions = some ⟨105, 123, 203, 204⟩ := by rw [plain, known]
  have front : text.take 105 = preamble := by rw [plain, cut]
  have inner : (text.take 203).drop 123 = code := by rw [plain, inside]
  obtain ⟨listed, entered⟩ :
      ("_20_uTime".toList, "Time".toList) ∈ nodeInputs .materialLibrary preamble ∧
        renameTemporaries (rename (nodeInputs .materialLibrary preamble) code) = code := by
    simp only [preamble, code]
    repeat rw [String.toList_ofList]
    decide +kernel
  have reads : AccessesInput .materialLibrary preamble "_20_uTime" "Time" :=
    mem_nodeInputs_iff.mp listed
  obtain ⟨given, spelling, bare, held⟩ :
      headerVectors ++ declaredVectors hlslVectors artifact ++
          declaredVectors hlslVectors ((artifact.take 123).drop 105 ++ code) =
        headerVectors ++ (["outFragColor"] : List Text) ∧
      spellOut (headerVectors ++ (["outFragColor"] : List Text)) code = .ok code ∧
      helperFunctions preamble = [] ∧ "_20_uTime".toList ∈ words (writeAsReturn code) := by
    simp only [artifact, preamble, code]
    repeat rw [String.toList_ofList]
    decide +kernel
  have access : IsOneWord "_20_uTime" := ⟨by decide, by decide⟩
  have input : IsOneWord "Time" := ⟨by decide, by decide⟩
  obtain ⟨_member, symbol⟩ := reads.readsSymbol
  obtain ⟨exported, done, stands⟩ : ∃ exported,
      exportArtifact .unrealHlsl .materialLibrary artifact = .ok exported ∧
        StandsIn "_20_uTime" exported := by
    refine ⟨_, exportArtifact_of_spelled plain known cut ?_ given spelling
      (nodeHelpers_of_bare bare _ _ _ _), (standsIn_node_iff symbol [] _).mpr (.inl ?_)⟩
    · rw [inside, entered]
    · exact (Text.mem_words_iff_standsIn access).mp held
  obtain ⟨header, body, helpers, _spelled, _helped, laid, accesses, declared, _kept, _returned⟩ :=
    exportArtifact_unreal_accesses_iff done found
  have known : AccessesInput .materialLibrary (text.take 105) "_20_uTime" "Time" := by rwa [front]
  have stays : StandsIn "_20_uTime" body ↔ StandsIn "_20_uTime" ((text.take 203).drop 123) ∧
      "Time".toList ∈ words ((text.take 203).drop 123) := (accesses _ _ known).1
  have again := (declared "Time" (by decide)).mpr
  change DeclaredIn "Time" ((text.take 203).drop 123) ∨ _ → _ at again
  rw [inner] at stays again
  refine ⟨found, reads, uncommented_of_not_mem (by decide), exported, done, stands,
    (header _ input).mpr (by decide), body, helpers, laid, ?_, ?_⟩
  · exact stays.mpr ⟨(Text.mem_words_iff_standsIn access).mp (by decide), by decide⟩
  · exact again (.inl ((declaredIn_iff input).mpr (by decide)))

end Export
end ShaderBridge
