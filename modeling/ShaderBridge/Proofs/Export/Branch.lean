import ShaderBridge.Proofs.Code.Function
import ShaderBridge.Proofs.Code.Loop
import ShaderBridge.Proofs.Export.Glsl
import ShaderBridge.Proofs.Export.Plain
set_option autoImplicit false

/-! Which of its three ways the GLSL export takes, and when exporting an export changes nothing. A
section that is taken out leaves the slashes of its markers behind, and a module that is converted
the hash of its version line, so an export stays as it is just when it is neither
(`glsl_eq_self_iff`). -/

namespace ShaderBridge
namespace Export

open Code
open Attempt (bind_eq_ok_iff map_eq_ok_iff)

def imageMarks : Text := " \n/:,().=;+<\x7b\x7d"

private theorem not_mem_of_subset {mark : Char} {marks : Text} (other : mark ∉ imageMarks)
    (within : ∀ char ∈ marks, char ∈ imageMarks) : mark ∉ marks :=
  fun member => other (within mark member)

private theorem inputNames_marks (mode : ExecutionMode) :
    ∀ entry ∈ inputNames mode, ∀ char ∈ entry.2, isWord char = true ∨ char ∈ imageMarks := by
  cases mode <;> decide +kernel

private theorem entrySetup_marks (mode : ExecutionMode) :
    ∀ char ∈ entrySetup mode, isWord char = true ∨ char ∈ imageMarks := by
  cases mode <;> decide

theorem count_dropDeclarations_le (mode : ExecutionMode) (text : Text) (mark : Char) :
    (dropDeclarations mode text).count mark ≤ (versionLine.remove text).count mark := by
  have inputs : ∀ (symbols : List HeaderSymbol) (text : Text),
      (symbols.foldl (fun text symbol => (inputLine symbol.name).remove text) text).count mark ≤
        text.count mark := by
    intro symbols
    induction symbols with
    | nil => exact fun text => Nat.le_refl _
    | cons symbol symbols ih =>
        exact fun text => (ih _).trans (Pattern.count_remove_le _ _ mark)
  unfold dropDeclarations
  exact (inputs _ _).trans ((Pattern.count_remove_le _ _ mark).trans
    ((Pattern.count_remove_le _ _ mark).trans (Pattern.count_remove_le _ _ mark)))

section
variable {mark : Char} (apart : isWord mark = false) (other : mark ∉ imageMarks)
include apart other

theorem count_mapInputs_le (mode : ExecutionMode) (text : Text) :
    (mapInputs mode text).count mark ≤ text.count mark := by
  have absent : ∀ entry ∈ inputNames mode, mark ∉ entry.2 := by
    intro entry member
    exact List.count_eq_zero.mp (count_eq_zero_of_marks apart other (inputNames_marks mode entry member))
  have output : outputVariable.count mark = 0 :=
    count_eq_zero_of_marks apart other (by decide)
  refine (Pattern.count_replace_le fun stretch _member => ?_).trans (count_rename_le absent text)
  rw [output]
  exact Nat.zero_le _

theorem count_imageFunction_le (mode : ExecutionMode) (text : Text) :
    (imageFunction mode text).count mark ≤ text.count mark := by
  have written : ∀ {text : Text}, (∀ char ∈ text, isWord char = true ∨ char ∈ imageMarks) →
      text.count mark = 0 :=
    fun each => count_eq_zero_of_marks apart other each
  have feed : mark ≠ '\n' := fun same => other (same ▸ by decide)
  have space : mark ∉ margin := not_mem_of_subset other (by decide)
  unfold imageFunction
  split
  · exact Nat.le_refl _
  · next span found =>
      obtain ⟨front, head, body, rest, divides⟩ := findFunction_eq_some found
      have counted := congrArg (List.count mark) divides.whole
      simp only [List.count_append] at counted
      have preamble := Text.count_trim_le front mark
      simp only
      rw [divides.front_eq, divides.body_eq]
      split
      · omega
      · have inside : (indent margin (dedent body)).count mark ≤ body.count mark :=
          (count_indent_le feed space _).trans (count_dedent_le feed body)
        have setup : (indent margin (entrySetup mode)).count mark = 0 := by
          have fewer := count_indent_le feed space (entrySetup mode)
          rw [written (entrySetup_marks mode)] at fewer
          exact Nat.le_zero.mp fewer
        have uniformRemark : ("// Uniforms: iResolution, iTime, iTimeDelta, iFrame, iFrameRate" :
            Text).count mark = 0 := written (by decide)
        have outputRemark : ("// Output: fragColor (vec4)" : Text).count mark = 0 :=
          written (by decide)
        have head : ("void mainImage(out vec4 fragColor, in vec2 fragCoord)" : Text).count mark = 0 :=
          written (by decide)
        have opening : ("\x7b" : Text).count mark = 0 := written (by decide)
        have closing : ("\x7d" : Text).count mark = 0 := written (by decide)
        rw [Text.count_unlines feed]
        split
        · simp only [List.append_nil, List.map_append, List.map_cons, List.map_nil, List.sum_append,
            List.sum_cons, List.sum_nil, List.count_nil, uniformRemark, outputRemark, head, opening,
            closing, setup]
          omega
        · simp only [List.map_append, List.map_cons, List.map_nil, List.sum_append, List.sum_cons,
            List.sum_nil, List.count_nil, uniformRemark, outputRemark, head, opening, closing, setup]
          omega

theorem count_converted_le {mode : ExecutionMode} {text bounded : Text}
    (done : boundLoops iterationCeiling (highPrecision.remove (renameTemporaries
      (rename (mangledNames mode) (mapInputs mode (dropDeclarations mode text))))) = .ok bounded) :
    (imageFunction mode bounded).count mark ≤ (versionLine.remove text).count mark := by
  have loops : mark ∉ headMarks := not_mem_of_subset other (by decide)
  calc
    _ ≤ _ := count_imageFunction_le apart other mode bounded
    _ ≤ _ := count_boundLoops_le apart loops done
    _ ≤ _ := Pattern.count_remove_le _ _ mark
    _ ≤ _ := count_renameTemporaries_le apart _
    _ ≤ _ := (isRenaming_mangled mode).count_rename_le id apart _
    _ ≤ _ := count_mapInputs_le apart other mode _
    _ ≤ _ := count_dropDeclarations_le mode text mark

end

/-- What an export is: the section between the markers, a module that was converted, or the text as
it is, bounded in the first two cases and always laid out. -/
theorem glsl_eq_ok {mode : ExecutionMode} {artifact exported : Text}
    (done : glsl mode artifact = .ok exported) :
    let text := artifact.normalizeNewlines
    (∃ inside bounded, userSection? text = some inside ∧
      boundLoops iterationCeiling (dedent inside) = .ok bounded ∧ exported = finish bounded) ∨
    (userSection? text = none ∧ isGlslModule text = true ∧ ∃ bounded,
      boundLoops iterationCeiling (highPrecision.remove (renameTemporaries
        (rename (mangledNames mode) (mapInputs mode (dropDeclarations mode text))))) = .ok bounded ∧
      exported = finish (imageFunction mode bounded)) ∨
    (userSection? text = none ∧ isGlslModule text = false ∧ exported = finish text) := by
  intro text
  unfold glsl at done
  simp only at done
  split at done
  · next inside found =>
      obtain ⟨bounded, loops, same⟩ := map_eq_ok_iff.mp done
      exact .inl ⟨inside, bounded, found, loops, same.symm⟩
  · next missing =>
      split at done
      · next converted =>
          obtain ⟨bounded, loops, same⟩ := map_eq_ok_iff.mp done
          exact .inr (.inl ⟨missing, converted, bounded, loops, same.symm⟩)
      · next plain =>
          cases done
          exact .inr (.inr ⟨missing, Bool.eq_false_iff.mpr plain, rfl⟩)

theorem userSection?_eq_some {text inside : Text} (found : userSection? text = some inside) :
    ∃ before after, text = before ++ startMarker ++ (inside ++ endMarker ++ after) ∧
      ¬ endMarker <:+: inside := by
  obtain ⟨⟨before, rest⟩, start, found⟩ := Option.bind_eq_some_iff.mp found
  obtain ⟨⟨section_, after⟩, ends, same⟩ := Option.bind_eq_some_iff.mp found
  cases same
  refine ⟨before, after, ?_, Text.not_infix_of_breakOn? (by decide) ends⟩
  rw [← Text.breakOn?_eq_append ends]
  exact Text.breakOn?_eq_append start

theorem tidy_glsl {mode : ExecutionMode} {artifact exported : Text}
    (done : glsl mode artifact = .ok exported) : Tidy exported := by
  rcases glsl_eq_ok done with ⟨_inside, bounded, _found, _loops, rfl⟩ |
    ⟨_missing, _module, bounded, _loops, rfl⟩ | ⟨_missing, _plain, rfl⟩
  · exact tidy_finish bounded
  · exact tidy_finish _
  · exact tidy_finish _

theorem lineFed_glsl {mode : ExecutionMode} {artifact exported : Text}
    (done : glsl mode artifact = .ok exported) : LineFed exported := by
  have fed : LineFed artifact.normalizeNewlines := Text.not_mem_normalizeNewlines artifact
  have none : ∀ {text : Text}, text.count '\r' ≤ 0 → LineFed text :=
    fun fewer => List.count_eq_zero.mp (Nat.le_zero.mp fewer)
  rcases glsl_eq_ok done with ⟨inside, bounded, found, loops, same⟩ |
    ⟨_missing, _module, bounded, loops, same⟩ | ⟨_missing, _plain, same⟩
  · rw [same]
    apply LineFed.finish
    apply none
    obtain ⟨before, after, whole, _first⟩ := userSection?_eq_some found
    have held : inside.count '\r' ≤ artifact.normalizeNewlines.count '\r' := by
      rw [whole]
      simp only [List.count_append]
      omega
    calc
      _ ≤ _ := count_boundLoops_le (by decide) (by decide) loops
      _ ≤ _ := count_dedent_le (by decide) inside
      _ ≤ _ := held
      _ = 0 := List.count_eq_zero.mpr fed
  · rw [same]
    apply LineFed.finish
    apply none
    calc
      _ ≤ _ := count_converted_le (by decide) (by decide) loops
      _ ≤ _ := Pattern.count_remove_le _ _ _
      _ = 0 := List.count_eq_zero.mpr fed
  · rw [same]
    exact fed.finish

private theorem consumes_versionLine : Scan.Consumes
    (Scan.blanks >=> Scan.literal "#version" >=> Scan.wordEnd >=> Scan.restOfLine) :=
  Scan.sound_blanks.andThen_consumes ((Scan.consumes_literal (by decide)).andThen
    (Scan.sound_wordEnd.andThen Scan.sound_restOfLine))

private theorem hash_mem_versionLine {text stretch : Text}
    (occurs : stretch ∈ versionLine.occurrences text) : '#' ∈ stretch := by
  have sound : versionLine.Sound := Pattern.sound_notAfter _ consumes_versionLine
  obtain ⟨_last, rest, matched⟩ :=
    (Pattern.cut_pieces sound text).matched (Pattern.mem_occurrences.mp occurs)
  obtain ⟨_start, read⟩ :=
    (Pattern.notAfter_append_eq_some_iff consumes_versionLine.sound).mp matched
  obtain ⟨behind, white, read⟩ := Scan.andThen_eq_some_iff.mp read
  obtain ⟨between, stem, read⟩ := Scan.andThen_eq_some_iff.mp read
  obtain ⟨after, ended, line⟩ := Scan.andThen_eq_some_iff.mp read
  obtain ⟨blanks, _blank, split, _dark⟩ := Scan.zeroOrMore_eq_some_iff.mp white
  obtain ⟨more, same⟩ :=
    (Scan.sound_restOfLine _ _ line).trans (Scan.sound_wordEnd _ _ ended)
  rw [Scan.literal_eq_some_iff.mp stem, ← same, ← List.append_assoc, ← List.append_assoc] at split
  rw [List.append_cancel_right split]
  simp

private theorem count_hash_versionLine {text : Text} (converted : isGlslModule text = true) :
    (versionLine.remove text).count '#' < text.count '#' := by
  obtain ⟨occurs, _entry⟩ := Bool.and_eq_true_iff.mp converted
  obtain ⟨stretch, member⟩ : ∃ stretch, stretch ∈ versionLine.occurrences text := by
    by_contra none
    have sound : versionLine.Sound := Pattern.sound_notAfter _ consumes_versionLine
    have absent := (Pattern.cut_pieces sound text).absent fun stretch found =>
      none ⟨stretch, Pattern.mem_occurrences.mpr found⟩
    -- where no line is read to its end, none is read to the end of the directive
    have shorter : Pattern.Absent (Scan.atLineStart
        (Scan.blanks >=> Scan.literal "#version" >=> Scan.wordEnd)) Option.none text := by
      intro front back split
      refine Option.eq_none_iff_forall_ne_some.mpr fun length found => ?_
      obtain ⟨start, after, read, _long⟩ := Pattern.notAfter_eq_some_iff.mp found
      obtain ⟨behind, white, read⟩ := Scan.andThen_eq_some_iff.mp read
      obtain ⟨between, stem, ended⟩ := Scan.andThen_eq_some_iff.mp read
      have whole : (Scan.blanks >=> Scan.literal "#version" >=> Scan.wordEnd >=> Scan.restOfLine)
          back = some (after.dropWhile (· != '\n')) :=
        Scan.andThen_eq_some_iff.mpr ⟨behind, white,
          Scan.andThen_eq_some_iff.mpr ⟨between, stem,
            Scan.andThen_eq_some_iff.mpr ⟨after, ended, rfl⟩⟩⟩
      have line := Pattern.notAfter_eq_some_iff.mpr ⟨start, _, whole, rfl⟩
      exact absurd ((absent front back split).symm.trans line) nofun
    obtain ⟨stretch, found⟩ := Pattern.exists_of_occursIn occurs
    have piece := Pattern.mem_occurrences.mp found
    rw [Pattern.pieces, Pattern.piecesFrom_of_absent shorter] at piece
    obtain ⟨_char, _held, impossible⟩ := List.mem_map.mp piece
    cases impossible
  exact Pattern.count_remove_lt member (hash_mem_versionLine member)

theorem glsl_eq_self_iff {mode : ExecutionMode} {text : Text} (fed : LineFed text)
    (tidy : Tidy text) :
    glsl mode text = .ok text ↔ userSection? text = none ∧ isGlslModule text = false := by
  have ends := Text.normalizeNewlines_eq_self fed
  constructor
  · intro done
    rcases glsl_eq_ok done with ⟨inside, bounded, found, loops, same⟩ |
      ⟨_missing, converted, bounded, loops, same⟩ | ⟨missing, plain, _same⟩
    · rw [ends] at found
      obtain ⟨before, after, whole, _first⟩ := userSection?_eq_some found
      have slashes : text.count '/' ≤ inside.count '/' :=
        calc
          text.count '/' = bounded.count '/' := by
            rw [same, count_finish (by decide)]
          _ ≤ _ := count_boundLoops_le (by decide) (by decide) loops
          _ ≤ _ := count_dedent_le (by decide) inside
      have marked : startMarker.count '/' = 2 := by decide
      have counted := congrArg (List.count '/') whole
      simp only [List.count_append, marked] at counted
      omega
    · rw [ends] at converted loops
      have fewer : text.count '#' ≤ (versionLine.remove text).count '#' :=
        calc
          text.count '#' = (imageFunction mode bounded).count '#' := by
            rw [same, count_finish (by decide)]
          _ ≤ _ := count_converted_le (by decide) (by decide) loops
      have lost := count_hash_versionLine converted
      omega
    · rw [ends] at missing plain
      exact ⟨missing, plain⟩
  · intro both
    obtain ⟨missing, plain⟩ := both
    unfold glsl
    simp only [ends, missing, plain, Bool.false_eq_true, if_false]
    rw [tidy.finish_eq_self]

/-- The code of a section has no end marker in it, and laying it out makes none. -/
theorem userSection?_of_section {mode : ExecutionMode} {artifact exported : Text}
    (done : glsl mode artifact = .ok exported)
    (marked : (userSection? artifact.normalizeNewlines).isSome = true) :
    userSection? exported = none := by
  rcases glsl_eq_ok done with ⟨inside, bounded, found, loops, same⟩ |
    ⟨missing, _module, _bounded, _loops, _same⟩ | ⟨missing, _plain, _same⟩
  · obtain ⟨_before, _after, _whole, first⟩ := userSection?_eq_some found
    refine Option.eq_none_iff_forall_ne_some.mpr fun code again => first ?_
    obtain ⟨before, after, split, _first⟩ := userSection?_eq_some again
    have here : endMarker <:+: exported := by
      rw [split, ← List.append_assoc, ← List.append_assoc]
      exact List.infix_append _ endMarker after
    rw [same] at here
    exact infix_of_infix_dedent (by decide)
      (infix_of_infix_boundLoops (by decide) (by decide) (by decide) loops
        (infix_of_infix_finish (by decide) (by decide) ⟨by decide, by decide⟩ here))
  · rw [missing] at marked
    cases marked
  · rw [missing] at marked
    cases marked

private theorem trailer_head (mode : ExecutionMode) :
    (template .glsl mode).trailer.head? ≠ some '\n' := by
  cases mode <;> decide +kernel

/-- A module has a section, whatever fragment it was made of. -/
theorem isSome_userSection?_wrap (source : Text) (mode : ExecutionMode) :
    (userSection? (wrap source .glsl mode).text.normalizeNewlines).isSome = true := by
  obtain ⟨front, start⟩ := header_marked mode
  obtain ⟨rest, trailer⟩ := trailer_marked mode
  obtain ⟨closed, ends⟩ := header_closed .glsl mode
  let code := (embeddedCode (template .glsl mode) source).normalizeNewlines
  have final : (template .glsl mode).header.getLast? ≠ some '\r' := by
    rw [ends, List.getLast?_concat]
    decide
  have whole : (wrap source .glsl mode).text.normalizeNewlines =
      front ++ startMarker ++ ('\n' :: (code ++ (endMarker ++ rest))) := by
    change Text.normalizeNewlines ((template .glsl mode).header ++
      embeddedCode (template .glsl mode) source ++ (template .glsl mode).trailer) = _
    rw [List.append_assoc, Text.normalizeNewlines_append _ _ (.inl final),
      Text.normalizeNewlines_append _ _ (.inr (trailer_head mode)), trailer,
      Text.breakOn?_eq_append start, List.append_assoc _ ['\n']]
    rfl
  obtain ⟨before, after, opened, behind⟩ :=
    Text.exists_breakOn? startMarker front ('\n' :: (code ++ (endMarker ++ rest)))
  obtain ⟨gap, same⟩ := behind
  obtain ⟨inside, left, found, _later⟩ :=
    Text.exists_breakOn? endMarker (gap ++ '\n' :: code) rest
  have here : gap ++ '\n' :: code ++ endMarker ++ rest = after := by
    rw [← same]
    simp only [List.append_assoc, List.cons_append]
  rw [here] at found
  unfold userSection?
  simp only [whole, opened, found, Option.bind_eq_bind, Option.bind_some]
  rfl

/-- The export of an export is the export again when it has no section and is no module, and only
then; the export of a wrapped fragment never has a section, so it has to be no module. -/
theorem exportArtifact_glsl_again_iff {mode : ExecutionMode} {artifact exported : Text}
    (done : exportArtifact .glsl mode artifact = .ok exported) :
    (exportArtifact .glsl mode exported = .ok exported ↔
      userSection? exported = none ∧ isGlslModule exported = false) ∧
    ∀ source, artifact = (wrap source .glsl mode).text →
      (exportArtifact .glsl mode exported = .ok exported ↔ isGlslModule exported = false) := by
  have again : exportArtifact .glsl mode exported = .ok exported ↔
      userSection? exported = none ∧ isGlslModule exported = false :=
    glsl_eq_self_iff (lineFed_glsl done) (tidy_glsl done)
  refine ⟨again, ?_⟩
  intro source wrapped
  refine again.trans (and_iff_right ?_)
  apply userSection?_of_section done
  rw [wrapped]
  exact isSome_userSection?_wrap source mode

/-- A fragment with a module in a comment: its export is taken for a module and converted. -/
theorem exportArtifact_glsl_again_iff_of_commented_module :
    let source : Text := "/*\n#version 300 es\nvoid main() \x7b \x7d\n*/\nfragColor = vec4(1.0);\n"
    exportArtifact .glsl .materialLibrary (wrap source .glsl .materialLibrary).text = .ok source ∧
      isGlslModule source = true ∧ exportArtifact .glsl .materialLibrary source ≠ .ok source := by
  intro source
  have first : exportArtifact .glsl .materialLibrary (wrap source .glsl .materialLibrary).text =
      .ok source := by
    have written : source.isBlankText = false := by decide
    have unmarked : ¬ endMarker <:+: source := by decide +kernel
    refine (glsl_wrap written unmarked .materialLibrary).trans ?_
    simp only [source]
    repeat rw [String.toList_ofList]
    decide +kernel
  have converted : isGlslModule source = true := by decide +kernel
  refine ⟨first, converted, fun again => ?_⟩
  have plain := ((exportArtifact_glsl_again_iff first).2 source rfl).mp again
  exact absurd (converted.symm.trans plain) nofun

end Export
end ShaderBridge
