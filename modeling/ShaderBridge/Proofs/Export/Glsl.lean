import Mathlib.Data.List.Infix
import ShaderBridge.Export
import ShaderBridge.Proofs.Code.Layout
import ShaderBridge.Proofs.Effect
import ShaderBridge.Proofs.Module.Wrap
import ShaderBridge.Proofs.Text.Search
set_option autoImplicit false

/-! The GLSL export of a module gives back the fragment that the module was made of: what stands
between the markers is the fragment and nothing else. -/

namespace ShaderBridge
namespace Export

open Code

theorem header_marked (mode : ExecutionMode) :
    ∃ front, Text.breakOn? startMarker (template .glsl mode).header.normalizeNewlines =
      some (front, ['\n']) := by
  have found : (Text.breakOn? startMarker
      (template .glsl mode).header.normalizeNewlines).map Prod.snd = some ['\n'] := by
    cases mode
    all_goals
      -- the lines are spelled out, or they are decoded each time a character is compared
      simp only [template, glslMaterialHeader, glslShaderToyHeader]
      repeat rw [block_cons]
      rw [block_nil]
      decide +kernel
  obtain ⟨⟨front, rest⟩, broken, same⟩ := Option.map_eq_some_iff.mp found
  cases same
  exact ⟨front, broken⟩

theorem trailer_marked (mode : ExecutionMode) :
    ∃ rest, (template .glsl mode).trailer.normalizeNewlines = endMarker ++ rest := by
  have found : (Text.after? endMarker
      (template .glsl mode).trailer.normalizeNewlines).isSome = true := by
    cases mode <;> decide +kernel
  obtain ⟨rest, read⟩ := Option.isSome_iff_exists.mp found
  exact ⟨rest, Text.after?_eq_some_iff.mp read⟩

private theorem endMarker_flat : '\n' ∉ endMarker := by decide

theorem normalizeNewlines_wrap {source : Text} (written : source.isBlankText = false)
    (language : SourceLanguage) (mode : ExecutionMode) :
    (wrap source language mode).text.normalizeNewlines =
      (template language mode).header.normalizeNewlines ++
        ((embeddedCode (template language mode) source).normalizeNewlines ++
          (template language mode).trailer.normalizeNewlines) := by
  have ended : ∀ {text : Text}, (∃ front, text = front ++ ['\n']) → text.getLast? ≠ some '\r' := by
    rintro _ ⟨front, rfl⟩ final
    rw [List.getLast?_concat] at final
    cases final
  obtain ⟨front, closed, _count, _ahead⟩ := embeddedCode_lines written (template language mode)
  rw [← Text.normalizeNewlines_append _ _ (.inl (ended ⟨front, closed⟩)),
    ← Text.normalizeNewlines_append _ _ (.inl (ended (header_closed language mode))),
    ← List.append_assoc]
  rfl

section
variable {source : Text} (written : source.isBlankText = false)
include written

/-- The code between the markers is the fragment, up to line feeds at its end. -/
theorem normalizeNewlines_embeddedCode (template : ModuleTemplate) :
    ∃ front, (embeddedCode template source).normalizeNewlines = front ++ ['\n'] ∧
      trimLineFeeds front = trimLineFeeds source.normalizeNewlines := by
  cases closed : Text.endsWith ['\n'] source with
  | true =>
      rw [embeddedCode_of_closed written template closed]
      obtain ⟨front, rfl⟩ := Text.endsWith_line_feed_iff.mp closed
      obtain ⟨front, same, _short⟩ := Text.normalizeNewlines_append_line_feed front
      refine ⟨front, same, ?_⟩
      rw [same, trimLineFeeds_concat]
  | false =>
      rw [embeddedCode_of_open written template closed]
      obtain ⟨front, same, short | joined⟩ := Text.normalizeNewlines_append_line_feed source
      · exact ⟨front, same, by rw [short]⟩
      · exact ⟨front, same, by rw [joined, trimLineFeeds_concat]⟩

theorem endMarker_not_infix_embeddedCode (unmarked : ¬ endMarker <:+: source)
    (template : ModuleTemplate) : ¬ endMarker <:+: embeddedCode template source := by
  cases closed : Text.endsWith ['\n'] source with
  | true =>
      rw [embeddedCode_of_closed written template closed]
      exact unmarked
  | false =>
      rw [embeddedCode_of_open written template closed]
      exact mt (Text.infix_of_infix_concat endMarker_flat) unmarked

theorem userSection?_wrap (unmarked : ¬ endMarker <:+: source) (mode : ExecutionMode) :
    ∃ inside, userSection? (wrap source .glsl mode).text.normalizeNewlines = some inside ∧
      trimLineFeeds inside = trimLineFeeds source.normalizeNewlines := by
  obtain ⟨before, start⟩ := header_marked mode
  obtain ⟨after, finish⟩ := trailer_marked mode
  obtain ⟨front, code, same⟩ := normalizeNewlines_embeddedCode written (template .glsl mode)
  -- the code does not hold the end marker, so the search goes on to the one in the trailer
  have absent : ¬ endMarker <:+: '\n' :: front := by
    intro found
    have inner := Text.infix_of_infix_cons endMarker_flat found
    have held : endMarker <:+: (embeddedCode (template .glsl mode) source).normalizeNewlines := by
      rw [code]
      exact inner.trans (List.prefix_append _ _).isInfix
    exact endMarker_not_infix_embeddedCode written unmarked (template .glsl mode)
      (Text.infix_of_infix_normalizeNewlines endMarker_flat held)
  refine ⟨'\n' :: front ++ ['\n'], ?_, ?_⟩
  · rw [normalizeNewlines_wrap written, code, finish]
    unfold userSection?
    rw [Text.breakOn?_append start]
    have cut := Text.breakOn?_of_flat endMarker_flat absent after
    simp only [List.append_assoc, List.cons_append, List.nil_append] at cut ⊢
    simp only [Option.bind_eq_bind, Option.bind_some, cut]
    rfl
  · rw [trimLineFeeds_concat, trimLineFeeds_cons, same]

theorem glsl_wrap (unmarked : ¬ endMarker <:+: source) (mode : ExecutionMode) :
    glsl mode (wrap source .glsl mode).text =
      (boundLoops iterationCeiling (dedent source.normalizeNewlines)).map Code.finish := by
  obtain ⟨inside, cut, same⟩ := userSection?_wrap written unmarked mode
  unfold glsl
  simp only [cut]
  rw [dedent_of_trimLineFeeds_eq same]

end

/-- The export of a module is the fragment, laid out and with its endless loops bounded: nothing in
front of the start marker or behind the end marker is in it and no line of the fragment is missing.
A fragment that these changes leave alone is given back as it was. -/
theorem exportArtifact_wrap {source : Text} (written : source.isBlankText = false)
    (unmarked : ¬ endMarker <:+: source) (mode : ExecutionMode) :
    let module := wrap source .glsl mode
    let laidOut :=
      (boundLoops iterationCeiling (dedent source.normalizeNewlines)).map Code.finish
    (∃ inside, userSection? module.text.normalizeNewlines = some inside ∧
        trimLineFeeds inside = trimLineFeeds source.normalizeNewlines) ∧
      exportArtifact .glsl mode module.text = laidOut ∧
      (laidOut = .ok source → exportArtifact .glsl mode module.text = .ok source) := by
  intro module laidOut
  have exported : exportArtifact .glsl mode module.text = laidOut := glsl_wrap written unmarked mode
  exact ⟨userSection?_wrap written unmarked mode, exported, exported.trans⟩

/-- A fragment with a start marker of its own, a carriage return and no line feed at its end. -/
theorem exportArtifact_wrap_of_marked_fragment :
    let source : Text := "  // ---- USER CODE START ----\r\n  for(;;) step();"
    let exported : Text := "// ---- USER CODE START ----\n" ++
      "for (int _loopIdx0 = 0; _loopIdx0 < 10000; _loopIdx0++) step();\n"
    source.isBlankText = false ∧ ¬ endMarker <:+: source ∧
      exportArtifact .glsl .shaderToy (wrap source .glsl .shaderToy).text = .ok exported := by
  intro source exported
  have written : source.isBlankText = false := by decide
  have unmarked : ¬ endMarker <:+: source := by decide +kernel
  obtain ⟨_inside, same, _unchanged⟩ := exportArtifact_wrap written unmarked .shaderToy
  have laidOut : (boundLoops iterationCeiling (dedent source.normalizeNewlines)).map Code.finish =
      .ok exported := by
    simp only [source, exported]
    repeat rw [String.toList_ofList]
    decide +kernel
  exact ⟨written, unmarked, same.trans laidOut⟩

end Export
end ShaderBridge
