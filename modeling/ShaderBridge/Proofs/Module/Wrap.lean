import ShaderBridge.Diagnostic.Basic
import ShaderBridge.Module.Wrap
import ShaderBridge.Proofs.Text.Lines
set_option autoImplicit false

/-! Where the lines of a fragment stand in its module, and that the way back from a line of the
module leads to the same place. -/

namespace ShaderBridge

theorem block_concat (lines : List String) (last : String) :
    block (lines ++ [last]) = block lines ++ last.toList ++ ['\n'] := by
  unfold block
  rw [List.flatMap_append, List.flatMap_singleton, List.append_assoc]
  rfl

theorem block_closed {lines : List String} (some : lines ≠ []) :
    ∃ front, block lines = front ++ ['\n'] := by
  rw [← List.dropLast_concat_getLast some]
  exact ⟨_, block_concat _ _⟩

theorem header_closed (language : SourceLanguage) (mode : ExecutionMode) :
    ∃ front, (template language mode).header = front ++ ['\n'] := by
  cases language <;> cases mode <;> exact block_closed (List.cons_ne_nil _ _)

section
variable {source : Text} (written : source.isBlankText = false) (template : ModuleTemplate)
include written

theorem ne_nil_of_written : source ≠ [] := by
  rintro rfl
  cases written

theorem embeddedCode_of_closed (closed : Text.endsWith ['\n'] source = true) :
    embeddedCode template source = source := by
  unfold embeddedCode
  simp only [written, Bool.false_eq_true, if_false]
  exact if_pos (Bool.or_eq_true_iff.mpr (.inr closed))

theorem embeddedCode_of_open (unclosed : Text.endsWith ['\n'] source = false) :
    embeddedCode template source = source ++ ['\n'] := by
  have filled : source.isEmpty = false := List.isEmpty_eq_false_iff.mpr (ne_nil_of_written written)
  have neither : (source.isEmpty || Text.endsWith ['\n'] source) = false := by
    rw [filled, unclosed]
    rfl
  unfold embeddedCode
  simp only [written, Bool.false_eq_true, if_false]
  exact if_neg (Bool.eq_false_iff.mp neither)

theorem embeddedCode_lines :
    ∃ front, embeddedCode template source = front ++ ['\n'] ∧
      source.countLines = front.lines.length ∧ front.lines <+: source.lines := by
  cases closed : Text.endsWith ['\n'] source with
  | true =>
      rw [embeddedCode_of_closed written template closed]
      obtain ⟨front, rfl⟩ := Text.endsWith_line_feed_iff.mp closed
      exact ⟨front, rfl, Text.countLines_append_line_feed front,
        ⟨_, (Text.lines_append_line_feed front []).symm⟩⟩
  | false =>
      rw [embeddedCode_of_open written template closed]
      exact ⟨source, rfl, Text.countLines_of_open (ne_nil_of_written written) closed,
        List.prefix_refl _⟩

end

theorem countLines_embeddedCode {source : Text} (written : source.isBlankText = false)
    (template : ModuleTemplate) :
    (embeddedCode template source).countLines = source.countLines := by
  obtain ⟨front, closed, count, _ahead⟩ := embeddedCode_lines written template
  rw [closed, Text.countLines_append_line_feed, count]

theorem userLines_wrap_of_blank {source : Text} (blank : source.isBlankText = true)
    (language : SourceLanguage) (mode : ExecutionMode) :
    (wrap source language mode).userLines = if mode = .shaderToy then 1 else 0 := by
  change (embeddedCode (template language mode) source).countLines = _
  unfold embeddedCode
  simp only [blank, if_true]
  cases language <;> cases mode <;> decide +kernel

/-- The lines of a module are as many as its offset says, then those of the fragment, then the
others. -/
theorem lines_wrap {source : Text} (written : source.isBlankText = false)
    (language : SourceLanguage) (mode : ExecutionMode) :
    ∃ before own after, (wrap source language mode).text.lines = before ++ own ++ after ∧
      before.length = (wrap source language mode).lineOffset ∧
      own.length = (wrap source language mode).userLines ∧ own <+: source.lines := by
  obtain ⟨head, opened⟩ := header_closed language mode
  obtain ⟨front, closed, _count, ahead⟩ :=
    embeddedCode_lines written (template language mode)
  refine ⟨head.lines, front.lines, (template language mode).trailer.lines, ?_, ?_, ?_, ahead⟩
  · change Text.lines ((template language mode).header ++
      embeddedCode (template language mode) source ++ (template language mode).trailer) = _
    rw [opened, closed, List.append_assoc, List.append_assoc, List.append_assoc]
    simp only [List.singleton_append]
    rw [Text.lines_append_line_feed, Text.lines_append_line_feed, List.append_assoc]
  · change _ = (template language mode).header.count '\n'
    rw [opened, Text.length_lines, List.count_append, List.count_singleton_self]
  · change _ = (embeddedCode (template language mode) source).countLines
    rw [closed, Text.countLines_append_line_feed]

theorem remapLine_eq_some_iff {line offset own : Int} {count : Nat} :
    remapLine line offset (some (count : Int)) = some own ↔
      line = offset + own ∧ 1 ≤ own ∧ own ≤ count := by
  unfold remapLine
  simp only [Option.any_some]
  by_cases early : line - offset ≤ 0
  · simp only [if_pos early]
    constructor
    · intro impossible
      cases impossible
    · rintro ⟨same, first, _last⟩
      omega
  · rw [if_neg early]
    by_cases late : (count : Int) < line - offset
    · simp only [late, decide_true, if_true]
      constructor
      · intro impossible
        cases impossible
      · rintro ⟨same, _first, last⟩
        omega
    · simp only [late, decide_false, Bool.false_eq_true, if_false, Option.some.injEq]
      omega

theorem remapLine_eq_none_iff {line offset : Int} {count : Nat} :
    remapLine line offset (some (count : Int)) = none ↔ line ≤ offset ∨ offset + count < line := by
  rw [Option.eq_none_iff_forall_ne_some]
  constructor
  · intro nowhere
    have outside := mt remapLine_eq_some_iff.mpr (nowhere (line - offset))
    omega
  · intro outside own same
    obtain ⟨same, first, last⟩ := remapLine_eq_some_iff.mp same
    omega

/-- The lines of a fragment stand in its module behind the offset, in order and unchanged, and a
line of the module leads back to its number among them; all other lines lead nowhere. -/
theorem wrap_numbers_lines {source : Text} (written : source.isBlankText = false)
    (language : SourceLanguage) (mode : ExecutionMode) :
    let module := wrap source language mode
    module.userLines = source.countLines ∧
      (∀ number, 1 ≤ number → number ≤ module.userLines →
        ∃ line, source.line? number = some line ∧
          module.text.line? (module.lineOffset + number) = some line) ∧
      (∀ line own : Int, remapLine line module.lineOffset (some module.userLines) = some own ↔
        line = module.lineOffset + own ∧ 1 ≤ own ∧ own ≤ module.userLines) ∧
      (∀ line : Int, remapLine line module.lineOffset (some module.userLines) = none ↔
        line ≤ module.lineOffset ∨ module.lineOffset + module.userLines < line) := by
  intro module
  obtain ⟨before, own, after, split, offset, count, ahead⟩ := lines_wrap written language mode
  refine ⟨countLines_embeddedCode written _, ?_, fun line own => remapLine_eq_some_iff,
    fun line => remapLine_eq_none_iff⟩
  intro number first last
  obtain ⟨index, rfl⟩ := Nat.exists_eq_add_of_le' first
  have within : index < own.length := by
    rw [count]
    exact last
  refine ⟨own[index], ?_, ?_⟩
  · obtain ⟨rest, same⟩ := ahead
    change source.lines[index]? = _
    rw [← same, List.getElem?_append_left within, List.getElem?_eq_getElem within]
  · change module.text.lines[module.lineOffset + index]? = _
    rw [split, ← offset, List.append_assoc, List.getElem?_append_right (Nat.le_add_right _ _),
      Nat.add_sub_cancel_left, List.getElem?_append_left within, List.getElem?_eq_getElem within]

/-- A fragment of two lines, the second without a line feed. -/
theorem wrap_numbers_lines_of_open_fragment :
    let source : Text := "float a = iTime;\nfragColor.x = a;"
    let module := wrap source .glsl .materialLibrary
    source.isBlankText = false ∧ module.userLines = 2 ∧
      module.text.line? (module.lineOffset + 2) = some "fragColor.x = a;".toList ∧
      remapLine (module.lineOffset + 2) module.lineOffset (some module.userLines) = some 2 := by
  intro source module
  have written : source.isBlankText = false := by decide
  obtain ⟨count, inPlace, back, _outside⟩ := wrap_numbers_lines written .glsl .materialLibrary
  have lines : module.userLines = 2 := count.trans (by decide)
  obtain ⟨line, own, found⟩ := inPlace 2 (by decide) (Nat.le_of_eq lines.symm)
  have last : source.line? 2 = some "fragColor.x = a;".toList := by decide
  refine ⟨written, lines, found.trans (own.symm.trans last), (back _ 2).mpr ⟨rfl, by decide, ?_⟩⟩
  rw [lines]
  decide

end ShaderBridge
