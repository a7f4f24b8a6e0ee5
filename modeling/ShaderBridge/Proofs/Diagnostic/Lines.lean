import ShaderBridge.Proofs.Diagnostic.Reading
import ShaderBridge.Proofs.Text.Trim
set_option autoImplicit false

/-! The diagnostics of a text, read line by line. A line boundary cuts the lines of a text in two
(`contentLines_append`), so the reports of two texts, one printed behind the other, are those of the
first and then those of the second. Text whose numbers can be read yields its reports, or itself as
one error where it has none (`translate_of_readable`). -/

namespace ShaderBridge
namespace Diagnostic

open Attempt (Fails)
open Text (Blank Trimmed isLineBoundary)

private def contentFrom (current text : Text) : List Text :=
  ((Text.printedLinesFrom current text).map Text.trim).filter (!·.isEmpty)

private theorem filter_trim_cons (line : Text) (lines : List Text) :
    ((line :: lines).map Text.trim).filter (!·.isEmpty) =
      ([line].map Text.trim).filter (!·.isEmpty) ++ (lines.map Text.trim).filter (!·.isEmpty) := by
  rw [← List.filter_append, ← List.map_append, List.singleton_append]

private theorem contentFrom_nil (current : Text) :
    contentFrom current [] = ([current.reverse].map Text.trim).filter (!·.isEmpty) := by
  unfold contentFrom
  rw [Text.printedLinesFrom]
  split
  · next empty =>
      rw [List.isEmpty_iff.mp empty]
      rfl
  · rfl

private theorem contentFrom_other {char : Char} (stays : isLineBoundary char = false)
    (current text : Text) : contentFrom current (char :: text) = contentFrom (char :: current) text := by
  unfold contentFrom
  rw [Text.printedLinesFrom, stays, if_neg Bool.false_ne_true]
  rintro rest rfl _same
  cases stays

private theorem contentFrom_boundary {char : Char} (ends : isLineBoundary char = true)
    (current text : Text) :
    contentFrom current (char :: text) = contentFrom current [] ++ contentFrom [] text := by
  rw [contentFrom_nil]
  by_cases pair : char = '\r' ∧ text.head? = some '\n'
  · obtain ⟨rfl, feed⟩ := pair
    obtain ⟨rest, rfl⟩ := List.head?_eq_some_iff.mp feed
    have empty : contentFrom [] ('\n' :: rest) = contentFrom [] rest := by
      unfold contentFrom
      rw [Text.printedLinesFrom, if_pos (by decide), filter_trim_cons]
      · rfl
      · exact fun _rest same => absurd same (by decide)
    rw [empty]
    unfold contentFrom
    rw [Text.printedLinesFrom, filter_trim_cons]
  · unfold contentFrom
    rw [Text.printedLinesFrom, if_pos ends, filter_trim_cons]
    rintro rest rfl rfl
    exact pair ⟨rfl, rfl⟩

private theorem contentFrom_append {boundary : Char} (ends : isLineBoundary boundary = true)
    (current first rest : Text) :
    contentFrom current (first ++ boundary :: rest) =
      contentFrom current first ++ contentLines rest := by
  induction first generalizing current with
  | nil => exact contentFrom_boundary ends current rest
  | cons char first ih =>
      rw [List.cons_append]
      cases stays : isLineBoundary char with
      | true =>
          rw [contentFrom_boundary stays, contentFrom_boundary stays current first, ih,
            List.append_assoc]
      | false => rw [contentFrom_other stays, contentFrom_other stays, ih]

theorem contentLines_append {boundary : Char} (ends : isLineBoundary boundary = true)
    (first rest : Text) :
    contentLines (first ++ boundary :: rest) = contentLines first ++ contentLines rest :=
  contentFrom_append ends [] first rest

private theorem contentFrom_of_flat {line : Text} (flat : ∀ char ∈ line, isLineBoundary char = false)
    (current : Text) :
    contentFrom current line = contentFrom (line.reverse ++ current) [] := by
  induction line generalizing current with
  | nil => rfl
  | cons char line ih =>
      obtain ⟨stays, flat⟩ := List.forall_mem_cons.mp flat
      rw [contentFrom_other stays, ih flat, List.reverse_cons, List.append_assoc,
        List.singleton_append]

theorem contentLines_of_flat {line : Text} (flat : ∀ char ∈ line, isLineBoundary char = false) :
    contentLines line = [line.trim].filter (!·.isEmpty) := by
  have whole := contentFrom_of_flat flat []
  rw [List.append_nil, contentFrom_nil, List.reverse_reverse] at whole
  exact whole

private theorem infix_of_mem_contentFrom {line current text : Text}
    (member : line ∈ contentFrom current text) : line <:+: current.reverse ++ text := by
  have unended : ∀ {current : Text}, line ∈ contentFrom current [] → line <:+: current.reverse := by
    intro current member
    rw [contentFrom_nil] at member
    obtain ⟨before, after, _left, _right, whole⟩ := Text.exists_trim current.reverse
    rw [List.mem_singleton.mp (List.mem_filter.mp member).1]
    exact ⟨before, after, whole.symm⟩
  induction text generalizing current with
  | nil =>
      rw [List.append_nil]
      exact unended member
  | cons char text ih =>
      cases stays : isLineBoundary char with
      | true =>
          rw [contentFrom_boundary stays] at member
          rcases List.mem_append.mp member with early | late
          · exact (unended early).trans (List.prefix_append _ _).isInfix
          · exact (ih late).trans ((List.suffix_cons char text).trans
              (List.suffix_append _ _)).isInfix
      | false =>
          rw [contentFrom_other stays] at member
          have inside := ih member
          rwa [List.reverse_cons, List.append_assoc, List.singleton_append] at inside

theorem infix_of_mem_contentLines {line text : Text} (member : line ∈ contentLines text) :
    line <:+: text := by
  have inside : line ∈ contentFrom [] text := member
  exact infix_of_mem_contentFrom inside

theorem trimmed_of_mem_contentLines {line text : Text} (member : line ∈ contentLines text) :
    line ≠ [] ∧ Trimmed line := by
  obtain ⟨inside, filled⟩ := List.mem_filter.mp member
  obtain ⟨printed, _inside, rfl⟩ := List.mem_map.mp inside
  refine ⟨?_, Text.trimmed_trim printed⟩
  rintro same
  rw [same] at filled
  cases filled

/-- No row of digits in the text is too long for a number. -/
def Readable (text : Text) : Prop :=
  ∀ digits, digits <:+: text → (∀ digit ∈ digits, isDecimalDigit digit = true) →
    digits.length ≤ maxNumeralDigits

/-- The rules of the tool find a report in one of the lines. -/
def HasReport (tool : Tool) (text : Text) : Prop :=
  ∃ line ∈ contentLines text, ∃ severity digits code message,
    LineReading.ofLine? tool line = some (.report severity digits code message)

section
variable {tool : Tool} {offset : Int} {userLines : Option Int} {text : Text}

theorem Readable.not_overlong (readable : Readable text) {line : Text}
    (member : line ∈ contentLines text) : ¬ LineReading.Overlong tool line := by
  rintro ⟨severity, digits, code, message, read, long⟩
  obtain ⟨⟨_filled, each⟩, inside⟩ := LineReading.isNumber_of_report read
  have short := readable digits (inside.trans (infix_of_mem_contentLines member)) each
  omega

theorem translate_eq (fine : ∀ line ∈ contentLines text, ¬ LineReading.Overlong tool line) :
    translate tool offset userLines text =
      .ok (if (reports tool offset userLines text).isEmpty && !text.isBlankText
        then [{ message := text.trim }] else reports tool offset userLines text) := by
  cases read : translate tool offset userLines text with
  | ok found => rw [translate_eq_ok read]
  | error problem =>
      obtain ⟨line, member, long⟩ := translate_fails_iff.mp ⟨problem, read⟩
      exact absurd long (fine line member)

theorem reports_ne_nil_iff : reports tool offset userLines text ≠ [] ↔ HasReport tool text := by
  unfold reports HasReport
  rw [Ne, List.filterMap_eq_nil_iff]
  simp only [not_forall]
  refine exists_congr fun line => ?_
  rcases LineReading.ofLine? tool line with _ | _ | ⟨severity, digits, code, message⟩
  · simp
  · simp [ofReading?]
  · simp [ofReading?]

theorem translate_eq_reports (fine : ∀ line ∈ contentLines text, ¬ LineReading.Overlong tool line)
    (reported : reports tool offset userLines text ≠ []) :
    translate tool offset userLines text = .ok (reports tool offset userLines text) := by
  rw [translate_eq fine, List.isEmpty_eq_false_iff.mpr reported, Bool.false_and,
    if_neg Bool.false_ne_true]

theorem reports_append {boundary : Char} (ends : isLineBoundary boundary = true) (more : Text) :
    reports tool offset userLines (text ++ boundary :: more) =
      reports tool offset userLines text ++ reports tool offset userLines more := by
  unfold reports
  rw [contentLines_append ends, List.filterMap_append]

theorem translate_append {boundary : Char} (ends : isLineBoundary boundary = true) {more : Text}
    (fine : ∀ line ∈ contentLines text, ¬ LineReading.Overlong tool line)
    (fine' : ∀ line ∈ contentLines more, ¬ LineReading.Overlong tool line)
    (reported : reports tool offset userLines text ≠ []) :
    translate tool offset userLines (text ++ boundary :: more) =
      .ok (reports tool offset userLines text ++ reports tool offset userLines more) := by
  rw [← reports_append ends]
  refine translate_eq_reports (fun line member => ?_) ?_
  · rw [contentLines_append ends] at member
    exact (List.mem_append.mp member).elim (fine line) (fine' line)
  · rw [reports_append ends]
    exact List.append_ne_nil_of_left_ne_nil reported _

private theorem own_of_remapLine {line own : Int} (placed : remapLine line offset userLines = some own) :
    1 ≤ own ∧ ∀ count, userLines = some count → own ≤ count := by
  unfold remapLine at placed
  dsimp only at placed
  split at placed
  · cases placed
  · next behind =>
      split at placed
      · cases placed
      · next within =>
          obtain rfl := Option.some.inj placed
          refine ⟨by omega, ?_⟩
          rintro count rfl
          exact Int.not_lt.mp fun beyond => within (decide_eq_true beyond)

/-- A diagnostic has a line of the user's code or none, and a message without white space around
it. -/
structure WellFormed (userLines : Option Int) (diagnostic : Diagnostic) : Prop where
  placed : ∀ own, diagnostic.line = some own →
    1 ≤ own ∧ ∀ count, userLines = some count → own ≤ count
  filled : diagnostic.message ≠ []
  trimmed : Trimmed diagnostic.message

theorem wellFormed_of_mem_reports {diagnostic : Diagnostic}
    (member : diagnostic ∈ reports tool offset userLines text) :
    diagnostic.WellFormed userLines := by
  obtain ⟨line, inside, made⟩ := List.mem_filterMap.mp member
  obtain ⟨reading, _read, made⟩ := Option.bind_eq_some_iff.mp made
  obtain ⟨filled, trimmed⟩ := trimmed_of_mem_contentLines inside
  cases reading with
  | ignored => cases made
  | report severity digits code message =>
      cases made
      refine ⟨fun own placed => ?_, ?_, ?_⟩
      · obtain ⟨number, _numeral, placed⟩ := Option.bind_eq_some_iff.mp placed
        exact own_of_remapLine placed
      · dsimp only
        split
        · exact filled
        · next loud => exact mt List.isEmpty_iff.mpr loud
      · dsimp only
        split
        · exact trimmed
        · exact Text.trimmed_trim message

/-- Text whose numbers can be read always has diagnostics: none exactly where it is blank, each with
a line of the user's code or none and a trimmed message. Where two texts have a report each, the
diagnostics of the one printed in front of the other are those of the first and then those of the
second. -/
theorem translate_of_readable (tool : Tool) (offset : Int) (userLines : Option Int) {text : Text}
    (readable : Readable text) :
    ∃ found, translate tool offset userLines text = .ok found ∧
      (found = [] ↔ text.isBlankText = true) ∧
      (∀ diagnostic ∈ found, diagnostic.WellFormed userLines) ∧
      ∀ more, Readable more → HasReport tool text → HasReport tool more →
        ∃ later, translate tool offset userLines more = .ok later ∧
          translate tool offset userLines (text ++ '\n' :: more) = .ok (found ++ later) := by
  have fine : ∀ line ∈ contentLines text, ¬ LineReading.Overlong tool line :=
    fun _line member => readable.not_overlong member
  have whole : translate tool offset userLines text = _ := translate_eq fine
  refine ⟨_, whole, ?_, ?_, ?_⟩
  · have silent := @translate_eq_nil_iff tool offset userLines text
    rw [← silent, whole]
    exact ⟨congrArg _, Except.ok.inj⟩
  · intro diagnostic member
    split at member
    · next silent =>
        rw [List.mem_singleton.mp member]
        refine ⟨nofun, fun empty => ?_, Text.trimmed_trim text⟩
        have blank := Text.trim_eq_nil_iff.mp empty
        have loud := (Bool.and_eq_true_iff.mp silent).2
        have white : text.isBlankText = true := List.all_eq_true.mpr blank
        rw [white] at loud
        cases loud
    · exact wellFormed_of_mem_reports member
  · intro more readable' first second
    have reported : reports tool offset userLines text ≠ [] := reports_ne_nil_iff.mpr first
    have reported' : reports tool offset userLines more ≠ [] := reports_ne_nil_iff.mpr second
    have fine' : ∀ line ∈ contentLines more, ¬ LineReading.Overlong tool line :=
      fun _line member => readable'.not_overlong member
    rw [translate_eq_reports fine reported] at whole
    rw [← Except.ok.inj whole]
    exact ⟨_, translate_eq_reports fine' reported',
      translate_append (by decide) fine fine' reported⟩

end

/-- An error at the first of two lines of a fragment, and a warning without a place behind it. -/
theorem translate_of_readable_of_two_reports :
    let text : Text := "shader.slang(20): error 30015: undefined identifier 'a'."
    let more : Text := "  warning: unused"
    (Readable text ∧ Readable more ∧ HasReport .slang text ∧ HasReport .slang more) ∧
      ∃ found later, translate .slang 19 (some 2) text = .ok found ∧
        translate .slang 19 (some 2) more = .ok later ∧
        translate .slang 19 (some 2) (text ++ '\n' :: more) = .ok (found ++ later) ∧
        (∀ diagnostic ∈ found, diagnostic.WellFormed (some 2)) ∧
        found = [⟨"undefined identifier 'a'.", some 1, .error, some "30015"⟩] ∧
        later = [⟨"unused", none, .warning, none⟩] := by
  intro text more
  have readable : ∀ {text : Text}, text.length ≤ maxNumeralDigits → Readable text :=
    fun short _digits inside _each => inside.length_le.trans short
  have first : Readable text := readable (by decide)
  have second : Readable more := readable (by decide)
  have reported : HasReport .slang text :=
    ⟨text, by decide +kernel, .error, some "20", some "30015", "undefined identifier 'a'.",
      by decide +kernel⟩
  have reported' : HasReport .slang more :=
    ⟨"warning: unused", by decide +kernel, .warning, none, none, "unused", by decide +kernel⟩
  obtain ⟨found, read, _blank, formed, joins⟩ := translate_of_readable .slang 19 (some 2) first
  obtain ⟨later, behind, both⟩ := joins more second reported reported'
  refine ⟨⟨first, second, reported, reported'⟩, found, later, read, behind, both, formed, ?_, ?_⟩
  · exact Except.ok.inj (read.symm.trans (by decide +kernel))
  · exact Except.ok.inj (behind.symm.trans (by decide +kernel))

end Diagnostic
end ShaderBridge
