import ShaderBridge.Proofs.Code.Layout
set_option autoImplicit false

/-! The form in which every export leaves a text, said line by line (`finish_canonical`). It follows from
`Tidy`, which says the same of characters in a row: a line that is not wanted would stand between line
feeds of the text. -/

namespace ShaderBridge
namespace Code

open Text (Trimmed lines)

def closedLines (text : Text) : List Text := (lines text).dropLast

/-- A text that ends in one line feed and does not begin with white space, in which no line ends in a
space or a tab and no two empty lines follow each other. -/
structure Canonical (text : Text) : Prop where
  closed : ∃ inner, text = inner ++ ['\n'] ∧ inner.getLast? ≠ some '\n'
  begins : text = ['\n'] ∨ text.head?.any isBlank = false
  bare : ∀ line ∈ lines text, line.getLast?.any isSpaceOrTab = false
  spaced : ¬ [[], []] <:+: closedLines text

theorem closedLines_concat (inner : Text) : closedLines (inner ++ ['\n']) = lines inner := by
  unfold closedLines
  rw [Text.lines_concat_line_feed, List.dropLast_concat]

theorem infix_of_closedLines {stretch : List Text} {inner : Text} (inside : stretch <:+: lines inner) :
    stretch.flatMap (· ++ ['\n']) <:+: inner ++ ['\n'] := by
  obtain ⟨before, after, split⟩ := inside
  have whole := Text.unlines_concat_line_feed (Text.lines_ne_nil inner)
  rw [Text.unlines_lines, ← split, List.flatMap_append, List.flatMap_append] at whole
  exact ⟨_, _, whole.symm⟩

theorem Level.bare_line {inner : Text} (level : Level (inner ++ ['\n'])) {line : Text}
    (member : line ∈ lines inner) : line.getLast?.any isSpaceOrTab = false := by
  by_contra ends
  obtain ⟨space, last, white⟩ := (Option.any_eq_true _ _).mp (Bool.eq_true_of_not_eq_false ends)
  obtain ⟨front, rfl⟩ := List.getLast?_eq_some_iff.mp last
  have stands := infix_of_closedLines ((List.singleton_infix_iff _ _).mpr member)
  rw [List.flatMap_singleton, List.append_assoc] at stands
  exact level.bare space white ((List.suffix_append front _).isInfix.trans stands)

/-- Two empty lines follow a line, or else the text begins with a line feed. -/
theorem Level.spaced {inner : Text} (level : Level (inner ++ ['\n']))
    (begins : inner.head? ≠ some '\n') : ¬ [[], []] <:+: lines inner := by
  rintro ⟨before, after, split⟩
  induction before using List.reverseRecOn with
  | nil =>
      have same := Text.unlines_lines inner
      rw [← split] at same
      change Text.unlines ([] :: [] :: after) = inner at same
      rw [Text.unlines_cons_cons] at same
      exact begins (same ▸ rfl)
  | append_singleton before line _ih =>
      have stands : [line, [], []] <:+: lines inner := ⟨before, after, by rw [← split]; simp⟩
      have feeds := infix_of_closedLines stands
      have behind : ['\n', '\n', '\n'] <:+ [line, [], []].flatMap (· ++ ['\n']) :=
        ⟨line, by simp⟩
      exact level.close (behind.isInfix.trans feeds)

theorem Tidy.canonical {text : Text} (tidy : Tidy text) : Canonical text := by
  obtain ⟨inner, rfl, trimmed, level⟩ := tidy
  have whole := level.concat trimmed
  have apart : ∀ {place : Option Char}, place.any isBlank = false → place ≠ some '\n' := by
    rintro _ dark rfl
    exact absurd (isBlank_line_feed.symm.trans dark) nofun
  refine ⟨⟨inner, rfl, apart trimmed.2⟩, ?_, fun line member => ?_, ?_⟩
  · cases inner with
    | nil => exact .inl rfl
    | cons char inner => exact .inr trimmed.1
  · rw [Text.lines_concat_line_feed] at member
    rcases List.mem_append.mp member with early | last
    · exact whole.bare_line early
    · rw [List.mem_singleton.mp last]
      rfl
  · rw [closedLines_concat]
    exact whole.spaced (apart trimmed.1)

/-- Every text is brought into canonical form. It keeps its characters other than white space, in their
order, and the second time nothing changes. -/
theorem finish_canonical (text : Text) :
    Canonical (finish text) ∧ dark (finish text) = dark text ∧
      finish (finish text) = finish text := by
  have tidy := tidy_finish text
  exact ⟨tidy.canonical, dark_finish text, tidy.finish_eq_self⟩

/-- White space other than spaces and tabs stays at the end of a line, but not at the ends of the text. -/
example : finish "\x0b a \t\x0b\n\n\t\n\nb \x0b\n\x0c \n".toList = "a \t\x0b\n\nb\n".toList := by decide

end Code
end ShaderBridge
