import ShaderBridge.Proofs.Diagnostic.Lines
import ShaderBridge.Proofs.Text.Search
import ShaderBridge.Proofs.Text.Utf8
import ShaderBridge.Toolchain.Launch
set_option autoImplicit false

/-! Diagnostics from output that is cut off. The cut may go through a character, a number or the end of
a line, but the lines in front of the one it goes through are whole, and the line that tells of the cut
is known to no rule. So all that is read from what was kept, but for the last diagnostic, is read from
the whole output as well (`translate_readBounded`). -/

namespace ShaderBridge

def truncationNotice (limit : Nat) : Text :=
  "[output truncated at " ++ Text.decimal limit ++ " bytes]"

theorem readBounded_eq (limit : Nat) (stream : Bytes) :
    readBounded limit stream = Utf8.decodeLenient (stream.take limit) ++
      if limit < stream.length then '\n' :: truncationNotice limit else [] := by
  have counted : ((limit : Int) + 1).toNat = limit + 1 := rfl
  have fits : ¬ (limit : Int) + 1 < 0 := by omega
  have cut : (limit : Int) < (stream.take (limit + 1)).length ↔ limit < stream.length := by
    rw [List.length_take]
    omega
  unfold readBounded
  simp only [fits, if_false, counted, Int.natCast_nonneg, if_true, Int.toNat_natCast, cut,
    List.take_take, Nat.min_eq_left (Nat.le_succ limit)]
  rfl

namespace LineReading

/-- A line that begins with a square bracket and holds no place is known to no rule. -/
theorem ofLine?_eq_none_of_bracket {line : Text} (placeless : '(' ∉ line) (tool : Tool) :
    ofLine? tool ('[' :: line) = none := by
  have unplaced : ∀ {α : Type} (read : Text × Text → Option α),
      firstReading (fun text => (parenthesizedLine text).bind read) ('[' :: line) = none := by
    intro α read
    refine firstReading_eq_none_iff.mpr fun rest behind => ?_
    refine Option.eq_none_iff_forall_ne_some.mpr fun value found => ?_
    obtain ⟨_place, placed, _found⟩ := Option.bind_eq_some_iff.mp found
    obtain ⟨inner, opened, _placed⟩ := Option.bind_eq_some_iff.mp placed
    have member : '(' ∈ rest := by
      rw [Scan.literal_eq_some_iff.mp opened]
      exact List.mem_cons_self
    rcases List.mem_cons.mp (behind.subset member) with same | later
    · exact absurd same (by decide)
    · exact placeless later
  cases tool with
  | glslang => rfl
  | spirvCross => rfl
  | slang =>
      have note : compilerNote ('[' :: line) = none := unplaced _
      have report : compilerReport ('[' :: line) = none := unplaced _
      unfold ofLine? rules
      rw [List.findSome?_cons, note, List.findSome?_cons, report]
      rfl

end LineReading

namespace Diagnostic

open Text (Trimmed isLineBoundary)

private theorem decimal_flat {limit : Nat} {char : Char} (member : char ∈ Text.decimal limit) :
    isLineBoundary char = false ∧ char ≠ '(' := by
  have digit := (isNumber_decimal limit).2 char member
  have others : ∀ mark ∈ ['\n', '\r', '\x0b', '\x0c', '\x1c', '\x1d', '\x1e', '\u0085', '\u2028',
      '\u2029', '('], isDecimalDigit mark = false := by decide
  refine ⟨Bool.eq_false_iff.mpr fun ends => ?_, ?_⟩
  · have listed := List.mem_append_left ['('] (of_decide_eq_true ends)
    exact absurd (digit.symm.trans (others char listed)) nofun
  · rintro rfl
    exact absurd (digit.symm.trans (others '(' (by decide))) nofun

theorem contentLines_truncationNotice (limit : Nat) :
    contentLines (truncationNotice limit) = [truncationNotice limit] := by
  have flat : ∀ char ∈ truncationNotice limit, isLineBoundary char = false := by
    unfold truncationNotice
    rw [List.forall_mem_append, List.forall_mem_append]
    exact ⟨⟨by decide, fun _char member => (decimal_flat member).1⟩, by decide⟩
  have trimmed : Trimmed (truncationNotice limit) := by
    unfold truncationNotice
    exact ⟨rfl, by rw [List.getLast?_append]; rfl⟩
  rw [contentLines_of_flat flat, Text.trim_eq_self trimmed]
  rfl

theorem ofLine?_truncationNotice (tool : Tool) (limit : Nat) :
    LineReading.ofLine? tool (truncationNotice limit) = none := by
  have placeless : '(' ∉ "output truncated at ".toList ++ Text.decimal limit ++ " bytes]".toList := by
    simp only [List.mem_append, not_or]
    exact ⟨⟨by decide, fun member => (decimal_flat member).2 rfl⟩, by decide⟩
  exact LineReading.ofLine?_eq_none_of_bracket placeless tool

section
variable {tool : Tool} {offset : Int} {userLines : Option Int}

private theorem exists_last_line (text : Text) :
    (∀ char ∈ text, isLineBoundary char = false) ∨
      ∃ front boundary line, text = front ++ boundary :: line ∧ isLineBoundary boundary = true ∧
        ∀ char ∈ line, isLineBoundary char = false := by
  induction text with
  | nil => exact .inl nofun
  | cons char text ih =>
      rcases ih with flat | ⟨front, boundary, line, rfl, ends, flat⟩
      · cases first : isLineBoundary char with
        | false => exact .inl (List.forall_mem_cons.mpr ⟨first, flat⟩)
        | true => exact .inr ⟨[], char, text, rfl, first, flat⟩
      · exact .inr ⟨char :: front, boundary, line, rfl, ends, flat⟩

private theorem dropLast_reports_of_flat {line : Text}
    (flat : ∀ char ∈ line, isLineBoundary char = false) (before : List Diagnostic) :
    (before ++ reports tool offset userLines line).dropLast <+: before := by
  have few : (reports tool offset userLines line).length ≤ 1 := by
    unfold reports
    rw [contentLines_of_flat flat]
    exact (List.length_filterMap_le _ _).trans (List.length_filter_le _ _)
  cases found : reports tool offset userLines line with
  | nil =>
      rw [List.append_nil]
      exact List.dropLast_prefix before
  | cons diagnostic more =>
      rw [found] at few
      have none : more = [] := List.eq_nil_of_length_eq_zero (by simpa using few)
      rw [none, List.dropLast_concat]

theorem dropLast_reports_prefix {kept tail whole : Text} (begins : kept <+: whole)
    (flat : ∀ char ∈ tail, isLineBoundary char = false) :
    (reports tool offset userLines (kept ++ tail)).dropLast <+: reports tool offset userLines whole := by
  obtain ⟨rest, rfl⟩ := begins
  rcases exists_last_line kept with single | ⟨front, boundary, line, rfl, ends, last⟩
  · rw [← List.nil_append (reports tool offset userLines (kept ++ tail))]
    exact (dropLast_reports_of_flat (List.forall_mem_append.mpr ⟨single, flat⟩) []).trans
      List.nil_prefix
  · rw [List.append_assoc, List.append_assoc, List.cons_append, List.cons_append, reports_append ends,
      reports_append ends]
    exact (dropLast_reports_of_flat (List.forall_mem_append.mpr ⟨last, flat⟩) _).trans
      (List.prefix_append _ _)

theorem dropLast_of_translate {text : Text} {found : List Diagnostic}
    (read : translate tool offset userLines text = .ok found) :
    found.dropLast = (reports tool offset userLines text).dropLast := by
  rw [translate_eq_ok read]
  split
  · next silent => rw [List.isEmpty_iff.mp (Bool.and_eq_true_iff.mp silent).1]; rfl
  · rfl

theorem prefix_of_translate {text : Text} {early found : List Diagnostic}
    (read : translate tool offset userLines text = .ok found)
    (begins : early <+: reports tool offset userLines text) : early <+: found := by
  rw [translate_eq_ok read]
  split
  · next silent =>
      rw [List.isEmpty_iff.mp (Bool.and_eq_true_iff.mp silent).1] at begins
      exact begins.trans List.nil_prefix
  · exact begins

theorem Readable.exists_translate {text : Text} (readable : Readable text) (tool : Tool)
    (offset : Int) (userLines : Option Int) :
    ∃ found, translate tool offset userLines text = .ok found :=
  ⟨_, translate_eq fun _line member => readable.not_overlong member⟩

theorem Readable.part {text part : Text} (readable : Readable text) (inside : part <:+: text) :
    Readable part := fun digits within => readable digits (within.trans inside)

theorem Readable.concat {text : Text} (readable : Readable text) {mark : Char}
    (apart : isDecimalDigit mark = false) : Readable (text ++ [mark]) := by
  intro digits within each
  refine readable digits (Text.infix_of_infix_concat (fun member => ?_) within) each
  exact absurd (apart.symm.trans (each mark member)) nofun

private theorem translate_noticed (tool : Tool) (offset : Int) (userLines : Option Int) {text : Text}
    (readable : Readable text) (limit : Nat) (cut : Prop) [Decidable cut] :
    ∃ captured, translate tool offset userLines
        (text ++ if cut then '\n' :: truncationNotice limit else []) = .ok captured ∧
      captured.dropLast = (reports tool offset userLines text).dropLast := by
  have silent : reports tool offset userLines (truncationNotice limit) = [] := by
    unfold reports
    rw [contentLines_truncationNotice, List.filterMap_cons, ofLine?_truncationNotice]
    rfl
  have fine : ∀ line ∈ contentLines (text ++ '\n' :: truncationNotice limit),
      ¬ LineReading.Overlong tool line := by
    intro line member
    rw [contentLines_append (by decide), contentLines_truncationNotice] at member
    rcases List.mem_append.mp member with early | last
    · exact readable.not_overlong early
    · rw [List.mem_singleton.mp last]
      rintro ⟨_severity, _digits, _code, _message, read, _long⟩
      rw [ofLine?_truncationNotice] at read
      cases read
  split
  · obtain ⟨captured, read⟩ : ∃ captured, translate tool offset userLines
        (text ++ '\n' :: truncationNotice limit) = .ok captured := ⟨_, translate_eq fine⟩
    refine ⟨captured, read, ?_⟩
    rw [dropLast_of_translate read, reports_append (by decide), silent, List.append_nil]
  · rw [List.append_nil]
    obtain ⟨captured, read⟩ := readable.exists_translate tool offset userLines
    exact ⟨captured, read, dropLast_of_translate read⟩

/-- Cutting output off spoils no diagnostic but the last one. Whatever a tool printed, if the whole
output has no row of digits that is too long for a number, then both the whole output and what was kept
of it have diagnostics, and all those of what was kept, but perhaps the last one, are the first ones of
the whole output. -/
theorem translate_readBounded (tool : Tool) (offset : Int) (userLines : Option Int) (limit : Nat)
    {stream : Bytes} (readable : Readable (Utf8.decodeLenient stream)) :
    ∃ captured whole, translate tool offset userLines (readBounded limit stream) = .ok captured ∧
      translate tool offset userLines (Utf8.decodeLenient stream) = .ok whole ∧
      captured.dropLast <+: whole := by
  obtain ⟨kept, tail, decoded, begins, short⟩ := Utf8.decodeLenient_take limit stream
  have flat : ∀ char ∈ tail, isLineBoundary char = false := by
    rcases short with rfl | rfl <;> decide
  have within : Readable (kept ++ tail) := by
    have front := readable.part begins.isInfix
    rcases short with rfl | rfl
    · rwa [List.append_nil]
    · exact front.concat (by decide)
  obtain ⟨whole, read⟩ := readable.exists_translate tool offset userLines
  obtain ⟨captured, cut, same⟩ :=
    translate_noticed tool offset userLines within limit (limit < stream.length)
  rw [readBounded_eq, decoded]
  refine ⟨captured, whole, cut, read, prefix_of_translate read ?_⟩
  rw [same]
  exact dropLast_reports_prefix begins flat

end

/-- Two errors, the second cut off inside of the last character of its message. -/
theorem translate_readBounded_of_split_character :
    let stream : Bytes := Utf8.encode "a(1): error 1: x\na(2): error 2: \u00e9"
    Readable (Utf8.decodeLenient stream) ∧
      ∃ captured whole, translate .slang 0 none (readBounded (33 : Nat) stream) = .ok captured ∧
        translate .slang 0 none (Utf8.decodeLenient stream) = .ok whole ∧
        captured.dropLast <+: whole ∧
        captured = [⟨['x'], some 1, .error, some ['1']⟩, ⟨['\uFFFD'], some 2, .error, some ['2']⟩] ∧
        whole = [⟨['x'], some 1, .error, some ['1']⟩, ⟨['\u00e9'], some 2, .error, some ['2']⟩] := by
  intro stream
  have readable : Readable (Utf8.decodeLenient stream) :=
    fun _digits inside _each => inside.length_le.trans (by decide +kernel)
  obtain ⟨captured, whole, kept, read, early⟩ := translate_readBounded .slang 0 none 33 readable
  refine ⟨readable, captured, whole, kept, read, early, ?_, ?_⟩
  · exact Except.ok.inj (kept.symm.trans (by decide +kernel))
  · exact Except.ok.inj (read.symm.trans (by decide +kernel))

end Diagnostic
end ShaderBridge
