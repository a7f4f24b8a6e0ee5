import ShaderBridge.Proofs.Code.Layout
set_option autoImplicit false

/-! What is left of the lines of a text without the indentation that they share. Lines that are not
blank keep their order and lose the same number of blanks (`darkLines_dedent`). At the ends of the text
only line feeds are dropped, so a blank line that is not empty stays there as an empty one, and goes
the next time (`dedent_blank_edges_iff`). -/

namespace ShaderBridge
namespace Code

open Text (Blank isBlankText_iff lines)

/-- The lines of a text that are not empty. -/
def filledLines (text : Text) : List Text := (lines text).filter (!·.isEmpty)

/-- The lines of a text that are not blank. -/
def darkLines (text : Text) : List Text := (lines text).filter (!·.isBlankText)

/-- The first of some lines is not blank. -/
def BeginsDark (parts : List Text) : Prop := ∀ line ∈ parts.head?, ¬ Blank line

/-- The last of some lines is not blank. -/
def EndsDark (parts : List Text) : Prop := ∀ line ∈ parts.getLast?, ¬ Blank line

instance : DecidablePred BeginsDark := fun parts =>
  inferInstanceAs (Decidable (∀ line ∈ parts.head?, ¬ Blank line))

instance : DecidablePred EndsDark := fun parts =>
  inferInstanceAs (Decidable (∀ line ∈ parts.getLast?, ¬ Blank line))

theorem mem_darkLines {text line : Text} :
    line ∈ darkLines text ↔ line ∈ lines text ∧ ¬ Blank line := by
  unfold darkLines
  rw [List.mem_filter, Bool.not_eq_true', ← Bool.not_eq_true, isBlankText_iff]

theorem filledLines_append_line_feed (first rest : Text) :
    filledLines (first ++ '\n' :: rest) = filledLines first ++ filledLines rest := by
  unfold filledLines
  rw [Text.lines_append_line_feed, List.filter_append]

theorem filledLines_feeds_append {feeds : Text} (each : ∀ char ∈ feeds, char = '\n') (text : Text) :
    filledLines (feeds ++ text) = filledLines text := by
  induction feeds with
  | nil => rfl
  | cons char feeds ih =>
      obtain ⟨rfl, rest⟩ := List.forall_mem_cons.mp each
      exact (filledLines_append_line_feed [] (feeds ++ text)).trans (ih rest)

theorem filledLines_append_feeds {feeds : Text} (each : ∀ char ∈ feeds, char = '\n') (text : Text) :
    filledLines (text ++ feeds) = filledLines text := by
  cases feeds with
  | nil => rw [List.append_nil]
  | cons char feeds =>
      obtain ⟨rfl, rest⟩ := List.forall_mem_cons.mp each
      have none := filledLines_feeds_append rest []
      rw [List.append_nil] at none
      rw [filledLines_append_line_feed, none]
      exact List.append_nil _

theorem filledLines_trimLineFeeds (text : Text) :
    filledLines (trimLineFeeds text) = filledLines text := by
  obtain ⟨before, after, left, right, same⟩ := exists_trimLineFeeds text
  have whole := filledLines_append_feeds right (before ++ trimLineFeeds text)
  rw [← same, filledLines_feeds_append left] at whole
  exact whole.symm

theorem darkLines_eq_filter (text : Text) :
    darkLines text = (filledLines text).filter (!·.isBlankText) := by
  unfold darkLines filledLines
  rw [List.filter_filter]
  refine List.filter_congr fun line _member => ?_
  cases line <;> simp [Text.isBlankText]

theorem darkLines_trimLineFeeds (text : Text) : darkLines (trimLineFeeds text) = darkLines text := by
  rw [darkLines_eq_filter, filledLines_trimLineFeeds, ← darkLines_eq_filter]

theorem head?_trimLineFeeds (text : Text) : (trimLineFeeds text).head? ≠ some '\n' := by
  intro begins
  have turned : trimLineFeeds text <+: text.dropWhile (· == '\n') := by
    rw [← List.reverse_suffix]
    unfold trimLineFeeds
    rw [List.reverse_reverse]
    exact List.dropWhile_suffix _
  obtain ⟨rest, same⟩ := turned
  have outside := List.head?_dropWhile_not (· == '\n') text
  rw [← same, List.head?_append, begins] at outside
  exact absurd outside nofun

theorem getLast?_trimLineFeeds (text : Text) : (trimLineFeeds text).getLast? ≠ some '\n' := by
  intro ends
  unfold trimLineFeeds at ends
  rw [List.getLast?_reverse] at ends
  have outside := List.head?_dropWhile_not (· == '\n') (text.dropWhile (· == '\n')).reverse
  rw [ends] at outside
  exact absurd outside nofun

theorem beginsDark_filledLines_iff {text : Text} (filled : text ≠ [])
    (begins : text.head? ≠ some '\n') : BeginsDark (filledLines text) ↔ BeginsDark (lines text) := by
  obtain ⟨line, others, split, some⟩ := Text.lines_eq_cons filled begins
  unfold filledLines
  rw [split, List.filter_cons_of_pos (by rw [List.isEmpty_eq_false_iff.mpr some]; rfl)]
  exact Iff.rfl

theorem endsDark_filledLines_iff {text : Text} (filled : text ≠ [])
    (ends : text.getLast? ≠ some '\n') : EndsDark (filledLines text) ↔ EndsDark (lines text) := by
  obtain ⟨others, line, split, some⟩ := Text.lines_eq_concat filled ends
  unfold filledLines EndsDark
  rw [split, List.filter_append,
    List.filter_cons_of_pos (by rw [List.isEmpty_eq_false_iff.mpr some]; rfl), List.filter_nil,
    List.getLast?_concat, List.getLast?_concat]

theorem blank_withoutMargin_iff {parts : List Text} {line : Text} (member : line ∈ parts) :
    Blank (withoutMargin parts line) ↔ Blank line := by
  by_cases blank : Blank line
  · rw [withoutMargin_of_blank blank]
    exact ⟨fun _none => blank, fun _blank => nofun⟩
  · rw [withoutMargin_of_dark blank]
    refine ⟨fun behind => ?_, fun white => absurd white blank⟩
    have margin := blank_take_of_le_indentation (commonIndentation_le member blank)
    have whole := margin.append behind
    rwa [List.take_append_drop] at whole

theorem darkLines_dedent (body : Text) : darkLines (dedent body) =
    (darkLines body).map (List.drop (commonIndentation (lines (trimLineFeeds body)))) := by
  rw [← darkLines_trimLineFeeds body]
  generalize trimmed : trimLineFeeds body = inner
  have kept : ∀ line ∈ lines inner, (withoutMargin (lines inner) line).isBlankText = line.isBlankText := by
    intro line member
    rw [Bool.eq_iff_iff, isBlankText_iff, isBlankText_iff, blank_withoutMargin_iff member]
  unfold darkLines
  rw [lines_dedent, trimmed, List.filter_map]
  have same : (lines inner).filter ((!·.isBlankText) ∘ withoutMargin (lines inner)) =
      (lines inner).filter (!·.isBlankText) :=
    List.filter_congr fun line member => congrArg not (kept line member)
  rw [same]
  exact List.map_congr_left fun line member => withoutMargin_of_dark (mem_darkLines.mp member).2

theorem exists_margin {body : Text} (some : darkLines body ≠ []) :
    ∃ line ∈ darkLines body, indentation line = commonIndentation (lines (trimLineFeeds body)) := by
  rw [← darkLines_trimLineFeeds body] at some ⊢
  have filled := mt (List.map_eq_nil_iff (f := indentation)).mp some
  obtain ⟨least, found⟩ := Option.ne_none_iff_exists'.mp (mt List.min?_eq_none_iff.mp filled)
  obtain ⟨line, member, same⟩ := List.mem_map.mp (List.min?_mem found)
  have shared : commonIndentation (lines (trimLineFeeds body)) = least := congrArg (·.getD 0) found
  exact ⟨line, member, same.trans shared.symm⟩

theorem indentation_drop (line : Text) : indentation (line.drop (indentation line)) = 0 := by
  have behind : line.drop (indentation line) = line.dropWhile isBlank := by
    have drops : (line.takeWhile isBlank ++ line.dropWhile isBlank).drop
        (line.takeWhile isBlank).length = line.dropWhile isBlank := List.drop_left
    rwa [List.takeWhile_append_dropWhile] at drops
  have outside := List.head?_dropWhile_not isBlank line
  rw [behind]
  cases rest : line.dropWhile isBlank with
  | nil => rfl
  | cons char rest =>
      rw [rest] at outside
      unfold indentation
      rw [List.takeWhile_cons_of_neg (Bool.eq_false_iff.mp outside)]
      rfl

theorem exists_level_dedent {body : Text} (some : darkLines body ≠ []) :
    ∃ line ∈ darkLines (dedent body), indentation line = 0 := by
  obtain ⟨line, member, same⟩ := exists_margin some
  refine ⟨line.drop (indentation line), ?_, indentation_drop line⟩
  rw [darkLines_dedent, ← same]
  exact List.mem_map_of_mem member

theorem empty_of_mem_dedent {body line : Text} (member : line ∈ lines (dedent body))
    (blank : Blank line) : line = [] := by
  rw [lines_dedent] at member
  obtain ⟨source, held, rfl⟩ := List.mem_map.mp member
  exact withoutMargin_of_blank ((blank_withoutMargin_iff held).mp blank)

theorem trimLineFeeds_ne_nil {body : Text} (some : darkLines body ≠ []) : trimLineFeeds body ≠ [] := by
  intro empty
  rw [← darkLines_trimLineFeeds, empty] at some
  exact some rfl

theorem beginsDark_dedent_iff {body : Text} (some : darkLines body ≠ []) :
    BeginsDark (lines (dedent body)) ↔ BeginsDark (filledLines body) := by
  rw [← filledLines_trimLineFeeds,
    beginsDark_filledLines_iff (trimLineFeeds_ne_nil some) (head?_trimLineFeeds body), lines_dedent]
  unfold BeginsDark
  rw [List.head?_map]
  cases first : (lines (trimLineFeeds body)).head? with
  | none => exact Iff.rfl
  | some line => simp [blank_withoutMargin_iff (List.mem_of_head? first)]

theorem endsDark_dedent_iff {body : Text} (some : darkLines body ≠ []) :
    EndsDark (lines (dedent body)) ↔ EndsDark (filledLines body) := by
  rw [← filledLines_trimLineFeeds,
    endsDark_filledLines_iff (trimLineFeeds_ne_nil some) (getLast?_trimLineFeeds body), lines_dedent]
  unfold EndsDark
  rw [List.getLast?_map]
  cases last : (lines (trimLineFeeds body)).getLast? with
  | none => exact Iff.rfl
  | some line => simp [blank_withoutMargin_iff (List.mem_of_getLast? last)]

theorem filledLines_dedent (body : Text) : filledLines (dedent body) = darkLines (dedent body) := by
  refine List.filter_congr fun line member => congrArg not (Bool.eq_iff_iff.mpr ?_)
  rw [isBlankText_iff, List.isEmpty_iff]
  exact ⟨fun empty => empty ▸ (nofun : Blank []), empty_of_mem_dedent member⟩

theorem beginsDark_darkLines (text : Text) : BeginsDark (darkLines text) :=
  fun _line first => (mem_darkLines.mp (List.mem_of_head? first)).2

theorem endsDark_darkLines (text : Text) : EndsDark (darkLines text) :=
  fun _line last => (mem_darkLines.mp (List.mem_of_getLast? last)).2

theorem dark_ends_dedent_dedent {body : Text} (some : darkLines (dedent body) ≠ []) :
    BeginsDark (lines (dedent (dedent body))) ∧ EndsDark (lines (dedent (dedent body))) := by
  rw [beginsDark_dedent_iff some, endsDark_dedent_iff some, filledLines_dedent]
  exact ⟨beginsDark_darkLines _, endsDark_darkLines _⟩

theorem trimLineFeeds_eq_self {text : Text} (begins : BeginsDark (lines text))
    (ends : EndsDark (lines text)) : trimLineFeeds text = text := by
  obtain ⟨before, after, left, right, same⟩ := exists_trimLineFeeds text
  have blank : Blank [] := nofun
  cases before with
  | cons char before =>
      obtain rfl := left char List.mem_cons_self
      have first := Text.lines_append_line_feed [] (before ++ trimLineFeeds text ++ after)
      rw [same] at begins
      exact absurd blank (begins [] (congrArg List.head? first))
  | nil =>
      induction after using List.reverseRecOn with
      | nil =>
          rw [List.append_nil] at same
          exact same.symm
      | append_singleton after char _ih =>
          obtain rfl := right char (List.mem_append_right after (List.mem_singleton_self char))
          have last := Text.lines_append_line_feed (trimLineFeeds text ++ after) []
          rw [same, List.nil_append, ← List.append_assoc] at ends
          refine absurd blank (ends [] ?_)
          rw [last]
          exact List.getLast?_concat

theorem dedent_eq_self {text : Text} (begins : BeginsDark (lines text)) (ends : EndsDark (lines text))
    (empty : ∀ line ∈ lines text, Blank line → line = [])
    (level : ∃ line ∈ darkLines text, indentation line = 0) : dedent text = text := by
  obtain ⟨first, stands, none⟩ := level
  obtain ⟨member, dark⟩ := mem_darkLines.mp stands
  have shared : commonIndentation (lines text) = 0 :=
    Nat.eq_zero_of_le_zero (none ▸ commonIndentation_le member dark)
  have kept : ∀ line ∈ lines text, withoutMargin (lines text) line = line := by
    intro line held
    by_cases blank : Blank line
    · rw [withoutMargin_of_blank blank, empty line held blank]
    · rw [withoutMargin_of_dark blank, shared]
      rfl
  rw [← Text.unlines_lines (dedent text), lines_dedent, trimLineFeeds_eq_self begins ends,
    List.map_congr_left kept, List.map_id', Text.unlines_lines]

theorem dedent_dedent_eq_iff {body : Text} (some : darkLines body ≠ []) :
    dedent (dedent body) = dedent body ↔
      BeginsDark (lines (dedent body)) ∧ EndsDark (lines (dedent body)) := by
  obtain ⟨line, member, level⟩ := exists_level_dedent some
  constructor
  · intro same
    have twice := dark_ends_dedent_dedent (List.ne_nil_of_mem member)
    rwa [same] at twice
  · rintro ⟨begins, ends⟩
    exact dedent_eq_self begins ends (fun line => empty_of_mem_dedent) ⟨line, member, level⟩

/-- What becomes of a text that has a line which is not blank. All such lines are kept in their order, each
without the same number of the blanks that it begins with, and one of them then begins with none. The
result begins with such a line just where the first line of the text that is not empty is one, and it ends
with one likewise. Exactly where it does both it stays the same the next time; after that it always does. -/
theorem dedent_blank_edges_iff {body : Text} (some : ∃ line ∈ lines body, ¬ Blank line) :
    (∃ margin, (∀ line ∈ darkLines body, margin ≤ indentation line) ∧
      darkLines (dedent body) = (darkLines body).map (List.drop margin)) ∧
    (∃ line ∈ darkLines (dedent body), indentation line = 0) ∧
    (BeginsDark (lines (dedent body)) ↔ BeginsDark (filledLines body)) ∧
    (EndsDark (lines (dedent body)) ↔ EndsDark (filledLines body)) ∧
    (dedent (dedent body) = dedent body ↔
      BeginsDark (lines (dedent body)) ∧ EndsDark (lines (dedent body))) ∧
    BeginsDark (lines (dedent (dedent body))) ∧ EndsDark (lines (dedent (dedent body))) ∧
    dedent (dedent (dedent body)) = dedent (dedent body) := by
  obtain ⟨first, member, dark⟩ := some
  have some : darkLines body ≠ [] := List.ne_nil_of_mem (mem_darkLines.mpr ⟨member, dark⟩)
  have level := exists_level_dedent some
  have again : darkLines (dedent body) ≠ [] := by
    obtain ⟨line, held, _none⟩ := level
    exact List.ne_nil_of_mem held
  have framed := dark_ends_dedent_dedent again
  refine ⟨⟨_, fun line held => ?_, darkLines_dedent body⟩, level, beginsDark_dedent_iff some,
    endsDark_dedent_iff some, dedent_dedent_eq_iff some, framed.1, framed.2,
    (dedent_dedent_eq_iff again).mpr framed⟩
  rw [← darkLines_trimLineFeeds] at held
  obtain ⟨inside, solid⟩ := mem_darkLines.mp held
  exact commonIndentation_le inside solid

/-- A closing brace that stood behind blanks leaves a blank line at the end of its body. -/
theorem dedent_blank_edges_of_indented_brace :
    (∃ line ∈ lines "\n    a;\n\t  b;\n  ".toList, ¬ Blank line) ∧
      darkLines (dedent "\n    a;\n\t  b;\n  ".toList) = [" a;".toList, "b;".toList] ∧
      BeginsDark (lines (dedent "\n    a;\n\t  b;\n  ".toList)) ∧
      ¬ EndsDark (lines (dedent "\n    a;\n\t  b;\n  ".toList)) ∧
      dedent (dedent "\n    a;\n\t  b;\n  ".toList) ≠ dedent "\n    a;\n\t  b;\n  ".toList := by
  have some : ∃ line ∈ lines "\n    a;\n\t  b;\n  ".toList, ¬ Blank line := by decide
  obtain ⟨_margin, _level, begins, ends, stays, _twice⟩ := dedent_blank_edges_iff some
  have first : BeginsDark (filledLines "\n    a;\n\t  b;\n  ".toList) := by decide
  have last : ¬ EndsDark (filledLines "\n    a;\n\t  b;\n  ".toList) := by decide
  exact ⟨some, by decide, begins.mpr first, mt ends.mp last,
    fun same => last (ends.mp (stays.mp same).2)⟩

end Code
end ShaderBridge
