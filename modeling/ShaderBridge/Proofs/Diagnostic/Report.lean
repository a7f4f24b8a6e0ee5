import ShaderBridge.Proofs.Diagnostic.Translate
set_option autoImplicit false

/-! What the diagnostics that were read from the output of a tool say: each stems from one printed
line, with the severity and the line number found there, and where no line has a report the whole
text is one error. -/

namespace ShaderBridge

open Attempt (Fails)

def LineReading.severity? : LineReading → Option Severity
  | .ignored => none
  | .report severity _ _ _ => some severity

/-- The converter names no lines. -/
theorem LineReading.lineless_of_converter {line : Text} {severity : Severity}
    {digits code : Option Text} {message : Text}
    (read : ofLine? .spirvCross line = some (.report severity digits code message)) :
    digits = none := by
  have remark : ∀ {reading}, converterRemark line = some reading →
      ∃ severity message, reading = .report severity none none message := by
    intro reading found
    unfold converterRemark at found
    obtain ⟨⟨severity, rest⟩, _severe, found⟩ := Option.bind_eq_some_iff.mp found
    obtain ⟨message, _behind, same⟩ := Option.bind_eq_some_iff.mp found
    cases same
    exact ⟨_, _, rfl⟩
  have exception : ∀ {reading}, converterException line = some reading →
      ∃ message, reading = .report .error none none message := by
    intro reading found
    unfold converterException at found
    obtain ⟨rest, _named, found⟩ := Option.bind_eq_some_iff.mp found
    obtain ⟨message, _behind, same⟩ := Option.bind_eq_some_iff.mp found
    cases same
    exact ⟨_, rfl⟩
  obtain ⟨rule, member, found⟩ := List.exists_of_findSome?_eq_some read
  rcases List.mem_cons.mp member with rfl | last
  · obtain ⟨_, same⟩ := exception found
    cases same
    rfl
  · rw [List.mem_singleton.mp last] at found
    obtain ⟨_, _, same⟩ := remark found
    cases same
    rfl

namespace Diagnostic

variable {tool : Tool} {offset : Int} {userLines : Option Int} {text : Text}

def ofReading? (offset : Int) (userLines : Option Int) (line : Text) :
    LineReading → Option Diagnostic
  | .ignored => none
  | .report severity digits code message =>
      some
        { message := if message.trim.isEmpty then line else message.trim
          line := digits.bind fun number => remapLine (Text.digitsValue number) offset userLines
          severity := severity
          code := code }

/-- The diagnostics of the printed lines in which the rules of a tool find a report. -/
def reports (tool : Tool) (offset : Int) (userLines : Option Int) (text : Text) :
    List Diagnostic :=
  (contentLines text).filterMap fun line =>
    (LineReading.ofLine? tool line).bind (ofReading? offset userLines line)

theorem ofLine_eq_ok_iff {line : Text} {found : Option Diagnostic} :
    ofLine tool offset userLines line = .ok found ↔
      ¬ LineReading.Overlong tool line ∧
        found = (LineReading.ofLine? tool line).bind (ofReading? offset userLines line) := by
  have fails := @ofLine_fails_iff tool offset userLines line
  have yields : ∀ {found}, ofLine tool offset userLines line = .ok found →
      found = (LineReading.ofLine? tool line).bind (ofReading? offset userLines line) := by
    intro found yielded
    unfold ofLine at yielded
    cases read : LineReading.ofLine? tool line with
    | none =>
        rw [read] at yielded
        cases yielded
        rfl
    | some reading =>
        rw [read] at yielded
        cases reading with
        | ignored =>
            cases yielded
            rfl
        | report severity digits code message =>
            cases digits with
            | none =>
                cases yielded
                rfl
            | some number =>
                obtain ⟨value, counted, yielded⟩ := Attempt.bind_eq_ok_iff.mp yielded
                unfold Text.readDigits at counted
                split at counted
                · cases counted
                · cases counted
                  cases yielded
                  rfl
  constructor
  · intro yielded
    refine ⟨?_, yields yielded⟩
    rw [← fails, yielded]
    exact Attempt.not_fails_ok found
  · rintro ⟨fine, rfl⟩
    cases yielded : ofLine tool offset userLines line with
    | error problem => exact absurd (fails.mp ⟨problem, yielded⟩) fine
    | ok found => rw [yields yielded]

theorem ofLine_of_translate {found : List Diagnostic}
    (read : translate tool offset userLines text = .ok found) {line : Text}
    (member : line ∈ contentLines text) :
    ofLine tool offset userLines line =
      .ok ((LineReading.ofLine? tool line).bind (ofReading? offset userLines line)) := by
  refine ofLine_eq_ok_iff.mpr ⟨fun long => ?_, rfl⟩
  have failed : Fails (translate tool offset userLines text) :=
    translate_fails_iff.mpr ⟨line, member, long⟩
  rw [read] at failed
  exact Attempt.not_fails_ok found failed

/-- The reports of a text are its diagnostics, and text without a report is one itself. -/
theorem translate_eq_ok {found : List Diagnostic}
    (read : translate tool offset userLines text = .ok found) :
    found = if (reports tool offset userLines text).isEmpty && !text.isBlankText
      then [{ message := text.trim }] else reports tool offset userLines text := by
  have fine : ∀ line ∈ contentLines text, ofLine tool offset userLines line =
      .ok ((LineReading.ofLine? tool line).bind (ofReading? offset userLines line)) :=
    fun _line member => ofLine_of_translate read member
  obtain ⟨yields, each, read⟩ := Attempt.bind_eq_ok_iff.mp read
  rw [Attempt.mapM_eq_ok fine] at each
  cases each
  have kept : ((contentLines text).map fun line => (LineReading.ofLine? tool line).bind
      (ofReading? offset userLines line)).filterMap id = reports tool offset userLines text :=
    List.filterMap_map
  dsimp only at read
  rw [kept] at read
  split at read
  · next silent =>
      cases read
      exact (if_pos silent).symm
  · next loud =>
      cases read
      exact (if_neg loud).symm

def severities (tool : Tool) (text : Text) : List Severity :=
  (contentLines text).filterMap fun line => (LineReading.ofLine? tool line).bind (·.severity?)

theorem severities_eq_nil (blank : text.isBlankText = true) : severities tool text = [] := by
  unfold severities
  rw [contentLines_eq_nil blank]
  rfl

theorem map_severity_reports :
    (reports tool offset userLines text).map severity = severities tool text := by
  unfold reports severities
  rw [List.map_filterMap]
  congr 1
  funext line
  rcases LineReading.ofLine? tool line with _ | _ | ⟨severity, digits, code, message⟩ <;> rfl

theorem reports_eq_nil_iff :
    reports tool offset userLines text = [] ↔ severities tool text = [] := by
  rw [← @map_severity_reports tool offset userLines, List.map_eq_nil_iff]

/-- What was read from a text holds an error unless the rules of the tool find reports in it that
are all warnings. -/
theorem exists_error_iff {found : List Diagnostic} (some : found ≠ [])
    (read : translate tool offset userLines text = .ok found) :
    (∃ diagnostic ∈ found, diagnostic.severity = .error) ↔
      ¬ (severities tool text ≠ [] ∧ ∀ severity ∈ severities tool text, severity = .warning) := by
  have whole := translate_eq_ok read
  by_cases silent : severities tool text = []
  · refine iff_of_true ?_ fun loud => loud.1 silent
    rw [reports_eq_nil_iff.mpr silent] at whole
    split at whole
    · rw [whole]
      exact ⟨_, List.mem_singleton_self _, rfl⟩
    · exact absurd whole some
  · have loud : reports tool offset userLines text ≠ [] := mt reports_eq_nil_iff.mp silent
    rw [List.isEmpty_eq_false_iff.mpr loud, Bool.false_and, if_neg Bool.false_ne_true] at whole
    subst whole
    rw [← @map_severity_reports tool offset userLines]
    constructor
    · rintro ⟨diagnostic, member, severe⟩ ⟨_some, mild⟩
      have warned := mild _ (List.mem_map_of_mem member)
      rw [severe] at warned
      cases warned
    · intro notMild
      by_contra none
      refine notMild ⟨mt List.map_eq_nil_iff.mp loud, ?_⟩
      intro severity member
      obtain ⟨diagnostic, inside, rfl⟩ := List.mem_map.mp member
      cases graded : diagnostic.severity with
      | warning => rfl
      | error => exact absurd ⟨diagnostic, inside, graded⟩ none

/-- A diagnostic with a line was read from a printed line in which the rules of the tool find a
number. -/
theorem line_of_mem {found : List Diagnostic} {diagnostic : Diagnostic} {own : Int}
    (read : translate tool offset userLines text = .ok found) (member : diagnostic ∈ found)
    (placed : diagnostic.line = some own) :
    ∃ line ∈ contentLines text, ∃ severity digits code message,
      LineReading.ofLine? tool line = some (.report severity (some digits) code message) ∧
      ofLine tool offset userLines line = .ok (some diagnostic) ∧
      remapLine (Text.digitsValue digits) offset userLines = some own := by
  have whole := translate_eq_ok read
  split at whole
  · rw [whole, List.mem_singleton] at member
    rw [member] at placed
    cases placed
  · rw [whole] at member
    obtain ⟨line, inside, yielded⟩ := List.mem_filterMap.mp member
    have made := ofLine_of_translate read inside
    obtain ⟨reading, found, same⟩ := Option.bind_eq_some_iff.mp yielded
    cases reading with
    | ignored => cases same
    | report severity digits code message =>
        rw [yielded] at made
        cases same
        cases digits with
        | none => cases placed
        | some digits => exact ⟨line, inside, severity, digits, code, message, found, made, placed⟩

end Diagnostic
end ShaderBridge
