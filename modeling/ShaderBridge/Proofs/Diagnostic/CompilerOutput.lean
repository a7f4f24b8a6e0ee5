import ShaderBridge.Proofs.Diagnostic.Note
import ShaderBridge.Proofs.Diagnostic.Printing
set_option autoImplicit false

/-! How far reading undoes the printing of the compiler. It reports errors and warnings behind a place
in the file, with a code, and notes in between. The rule that passes notes over looks for a place with
a note behind it anywhere in the line, so a report is read exactly if its message names no note
(`translate_compiler_output`). -/

namespace ShaderBridge
namespace Diagnostic

open LineReading
open Text (Blank Trimmed isLineBoundary startsWord)

structure ReportCode where
  digits : Text
  number : IsNumber digits

def smallLetters : Severity → Text
  | .error => "error"
  | .warning => "warning"

def placeText (line : Nat) (column : Option Nat) : Text :=
  let behind : Text := match column with
    | none => []
    | some number => ", " ++ Text.decimal number
  "(" ++ Text.decimal line ++ behind ++ ")"

/-- A line of the compiler's output. -/
inductive CompilerLine where
  | report (severity : Severity) (line : LineNumber) (column : Option Nat) (code : ReportCode)
      (message : Message)
  | note (line : Nat) (remark : Text) (flat : Flat remark)
  | blank (space : Text) (white : space.isBlankText = true)

namespace CompilerLine

def text : CompilerLine → Text
  | report severity line column code message =>
      "shader.slang" ++ placeText line.value column ++ ": " ++ smallLetters severity ++ " " ++
        code.digits ++ ": " ++ message.text
  | note line remark _flat => "shader.slang" ++ placeText line none ++ ": note: " ++ remark
  | blank space _white => space

theorem text_report (severity : Severity) (line : LineNumber) (column : Option Nat)
    (code : ReportCode) (message : Message) :
    (report severity line column code message).text =
      "shader.slang" ++ placeText line.value column ++ ": " ++ smallLetters severity ++ " " ++
        code.digits ++ ": " ++ message.text := rfl

theorem text_note (line : Nat) (remark : Text) (flat : Flat remark) :
    (note line remark flat).text = "shader.slang" ++ placeText line none ++ ": note: " ++ remark := rfl

theorem text_blank (space : Text) (white : space.isBlankText = true) :
    (blank space white).text = space := rfl

/-- The diagnostic that a line stands for. -/
def diagnostic? (offset : Int) (userLines : Option Int) : CompilerLine → Option Diagnostic
  | report severity line _column code message =>
      some ⟨message.text, remapLine line.value offset userLines, severity, some code.digits⟩
  | note _line _remark _flat | blank _space _white => none

end CompilerLine

private theorem blank_space : Blank " " := (by decide : ∀ char ∈ (" " : Text), isBlank char = true)

theorem isPlace_placeText (line : Nat) (column : Option Nat) :
    IsPlace (Text.decimal line) (placeText line column) := by
  refine ⟨isNumber_decimal line, ?_⟩
  cases column with
  | none => exact .inl (by simp [placeText])
  | some number =>
      exact .inr ⟨" ", Text.decimal number, blank_space, isNumber_decimal number, by simp [placeText]⟩

private theorem isPlace_dark {line place : Text} (placed : IsPlace line place) (rest : Text) :
    ∃ inner, place ++ rest = '(' :: (inner ++ rest) ∧ '(' ∉ inner := by
  have free : ∀ {digits : Text}, IsNumber digits → '(' ∉ digits := fun number member =>
    absurd (number.2 _ member) (by decide)
  obtain ⟨numbered, rfl | ⟨gap, column, blank, digits, rfl⟩⟩ := placed
  · exact ⟨line ++ ")", by simp, by simp [free numbered]⟩
  · have white : '(' ∉ gap := fun member => absurd (blank _ member) (by decide)
    exact ⟨line ++ "," ++ gap ++ column ++ ")", by simp, by simp [free numbered, free digits, white]⟩

private theorem plain_file : '(' ∉ "shader.slang".toList := by decide

private def gradedText (severity : Severity) (code : ReportCode) (message : Message) : Text :=
  smallLetters severity ++ (' ' :: (code.digits ++ ':' :: ' ' :: message.text))

section
variable (severity : Severity) (line : LineNumber) (column : Option Nat) (code : ReportCode)
  (message : Message)

private theorem gradedText_dark :
    (gradedText severity code message).head?.any isBlank = false ∧
      Scan.anyCase "note" (gradedText severity code message) = none := by
  cases severity with
  | error => exact ⟨rfl, rfl⟩
  | warning => exact ⟨rfl, rfl⟩

private theorem severityAndCode_gradedText :
    severityAndCode (gradedText severity code message) =
      some ((severity, some code.digits), ':' :: ' ' :: message.text) := by
  have graded : ∀ rest, anySeverity (smallLetters severity ++ rest) = some (severity, rest) := by
    intro rest
    cases severity with
    | error => rfl
    | warning => rfl
  have behind : (' ' :: (code.digits ++ ':' :: ' ' :: message.text)).dropWhile isBlank =
      code.digits ++ ':' :: ' ' :: message.text :=
    Option.some.inj (Scan.zeroOrMore_eq_some_iff.mpr
      ⟨[' '], by decide, rfl, code.number.starts _⟩)
  have numbered : readDigits? (code.digits ++ ':' :: ' ' :: message.text) =
      some (code.digits, ':' :: ' ' :: message.text) :=
    readDigits?_eq_some_iff.mpr ⟨code.number, rfl, rfl⟩
  unfold severityAndCode gradedText
  rw [graded]
  simp only [Option.bind_eq_bind, Option.bind_some, behind, numbered]
  rfl

private theorem text_report_eq :
    (CompilerLine.report severity line column code message).text =
      "shader.slang".toList ++
        (placeText line.value column ++ ":" ++ " " ++ gradedText severity code message) := by
  rw [CompilerLine.text_report]
  simp [gradedText]

private theorem compilerNote_report :
    compilerNote (CompilerLine.report severity line column code message).text =
      compilerNote message.text := by
  have opens : ∀ char rest, char ≠ '(' → noteAt (char :: rest) = none := by
    intro char rest other
    unfold noteAt
    rw [parenthesizedLine_cons other]
    rfl
  have placed := isPlace_placeText line.value column
  obtain ⟨dark, silent⟩ := gradedText_dark severity code message
  have missed : noteAt (placeText line.value column ++ ":" ++ " " ++ gradedText severity code message)
      = none := by
    refine Option.eq_none_iff_forall_ne_some.mpr fun reading found => ?_
    obtain ⟨⟨number, rest⟩, read, noted⟩ := Option.bind_eq_some_iff.mp found
    obtain ⟨last, noted, _same⟩ := Option.bind_eq_some_iff.mp noted
    obtain ⟨between, named, _ends⟩ := Scan.andThen_eq_some_iff.mp noted
    rw [parenthesizedLine_of_isPlace placed blank_space dark] at read
    cases read
    exact absurd (silent.symm.trans named) nofun
  obtain ⟨inner, opened, free⟩ := isPlace_dark placed (":" ++ " " ++ gradedText severity code message)
  have digits : '(' ∉ code.digits := fun member => absurd (code.number.2 _ member) (by decide)
  have letters : '(' ∉ smallLetters severity := by
    cases severity with
    | error => decide
    | warning => decide
  have split : placeText line.value column ++ ":" ++ " " ++ gradedText severity code message =
      '(' :: (inner ++ (": " ++ smallLetters severity ++ " " ++ code.digits ++ ": ") ++
        message.text) := by
    rw [List.append_assoc, List.append_assoc, ← List.append_assoc (":" : Text), opened]
    simp [gradedText]
  change firstReading noteAt _ = firstReading noteAt _
  rw [text_report_eq, firstReading_append opens plain_file]
  rw [split] at missed ⊢
  rw [firstReading_cons missed, firstReading_append opens]
  simp [free, letters, digits]

private theorem compilerReport_report :
    compilerReport (CompilerLine.report severity line column code message).text =
      some (.report severity (some (Text.decimal line.value)) (some code.digits) message.text) := by
  obtain ⟨dark, _silent⟩ := gradedText_dark severity code message
  unfold compilerReport
  rw [text_report_eq, firstReading_append _ plain_file]
  · refine firstReading_of_some ?_
    rw [parenthesizedLine_of_isPlace (isPlace_placeText line.value column) blank_space dark]
    simp only [Option.bind_eq_bind, Option.bind_some, severityAndCode_gradedText,
      behind_colon message.starts]
    rfl
  · intro char rest other
    rw [parenthesizedLine_cons other]
    rfl

private theorem ofLine?_report_of_note (noted : NamesNote message.text) :
    ofLine? .slang (CompilerLine.report severity line column code message).text = some .ignored := by
  refine ofLine?_eq_some_of_rules [] rfl nofun ?_
  rw [compilerNote_report]
  exact compilerNote_iff.mpr noted

private theorem ofLine?_report_of_plain (plain : ¬ NamesNote message.text) :
    ofLine? .slang (CompilerLine.report severity line column code message).text =
      some (.report severity (some (Text.decimal line.value)) (some code.digits) message.text) := by
  refine ofLine?_eq_some_of_rules [compilerNote] rfl ?_
    (compilerReport_report severity line column code message)
  intro rule member
  rw [List.mem_singleton.mp member, compilerNote_report]
  refine Option.eq_none_iff_forall_ne_some.mpr fun reading read => plain ?_
  rw [ignored_of_compilerNote read] at read
  exact compilerNote_iff.mp read

private theorem flat_placeText (line : Nat) (column : Option Nat) : Flat (placeText line column) := by
  have opens : Flat "(" := by decide
  have closes : Flat ")" := by decide
  have comma : Flat ", " := by decide
  have empty : Flat [] := by decide
  have number := fun number => flat_of_isNumber (isNumber_decimal number)
  cases column with
  | none => exact ((opens.append (number line)).append empty).append closes
  | some column => exact ((opens.append (number line)).append (comma.append (number column))).append closes

private theorem contentLines_compilerReport :
    contentLines (CompilerLine.report severity line column code message).text =
      [(CompilerLine.report severity line column code message).text] := by
  have letters : Flat (smallLetters severity) := by
    cases severity with
    | error => decide
    | warning => decide
  have file : Flat "shader.slang" := by decide
  have marks : Flat ": " := by decide
  have space : Flat " " := by decide
  refine contentLines_of_trimmed ?_ ⟨?_, ?_⟩ ?_
  · rw [CompilerLine.text_report]
    exact List.append_ne_nil_of_right_ne_nil _ message.filled
  · rw [text_report_eq]
    rfl
  · rw [CompilerLine.text_report, List.getLast?_append_of_ne_nil _ message.filled]
    exact message.trimmed.2
  · have front := ((file.append (flat_placeText line.value column)).append marks).append letters
    have back := ((space.append (flat_of_isNumber code.number)).append marks).append message.flat
    have whole := front.append back
    simpa only [CompilerLine.text_report, List.append_assoc] using whole

end

private theorem content_note (line : Nat) (remark : Text)
    (flat : Flat remark) :
    ∃ content, contentLines (CompilerLine.note line remark flat).text = [content] ∧
      ofLine? .slang content = some .ignored := by
  have file : Flat "shader.slang" := by decide
  have mark : Flat ": note: " := by decide
  have level : Flat (CompilerLine.note line remark flat).text :=
    ((file.append (flat_placeText line none)).append mark).append flat
  have split : (CompilerLine.note line remark flat).text =
      "shader.slang" ++ placeText line none ++ ": note:" ++ ' ' :: remark := by
    rw [CompilerLine.text_note]
    simp
  have trimmed : Trimmed ("shader.slang" ++ placeText line none ++ ": note:") := by
    refine ⟨rfl, ?_⟩
    rw [List.getLast?_append_of_ne_nil _ (by decide)]
    rfl
  have filled : ("shader.slang" ++ placeText line none ++ ": note:" : Text) ≠ [] :=
    List.cons_ne_nil _ _
  obtain ⟨more, cut⟩ := trim_append_of_trimmed filled trimmed (' ' :: remark)
  refine ⟨"shader.slang" ++ placeText line none ++ ": note:" ++ more, ?_, ?_⟩
  · rw [contentLines_of_flat level, split, cut, List.filter_cons_of_pos]
    · rfl
    · rfl
  · refine ofLine?_eq_some_of_rules [] rfl nofun (compilerNote_iff.mpr ?_)
    refine ⟨"shader.slang", Text.decimal line, placeText line none, " ", "note", ':' :: more, ?_,
      isPlace_placeText line none, blank_space, by decide, rfl⟩
    simp

/-- The diagnostic of a line, unless its message names a note. -/
private def plainDiagnostic? (offset : Int) (userLines : Option Int) (line : CompilerLine) :
    Option Diagnostic :=
  (line.diagnostic? offset userLines).filter fun diagnostic => !decide (NamesNote diagnostic.message)

section
variable {offset : Int} {userLines : Option Int}

private theorem reports_compilerLine (line : CompilerLine) :
    reports .slang offset userLines line.text = (plainDiagnostic? offset userLines line).toList := by
  cases line with
  | report severity line column code message =>
      rw [reports_of_line (contentLines_compilerReport severity line column code message)]
      unfold plainDiagnostic?
      by_cases noted : NamesNote message.text
      · rw [ofLine?_report_of_note severity line column code message noted,
          CompilerLine.diagnostic?, Option.filter_some, decide_eq_true noted]
        rfl
      · rw [ofLine?_report_of_plain severity line column code message noted, Option.bind_some,
          ofReading?_message message, Option.bind_some, digitsValue_decimal,
          CompilerLine.diagnostic?, Option.filter_some, decide_eq_false noted]
        rfl
  | note line remark flat =>
      obtain ⟨content, only, ignored⟩ := content_note line remark flat
      rw [reports_of_line only, ignored]
      rfl
  | blank space white =>
      unfold reports
      rw [CompilerLine.text_blank, contentLines_eq_nil white]
      rfl

private theorem not_overlong_compilerLine (line : CompilerLine) :
    ∀ content ∈ contentLines line.text, ¬ LineReading.Overlong .slang content := by
  rintro content member ⟨severity, digits, code, message, read, long⟩
  cases line with
  | report grade line column number body =>
      rw [contentLines_compilerReport, List.mem_singleton] at member
      rw [member] at read
      by_cases noted : NamesNote body.text
      · rw [ofLine?_report_of_note grade line column number body noted] at read
        cases read
      · rw [ofLine?_report_of_plain grade line column number body noted] at read
        cases read
        exact absurd long (Nat.not_lt.mpr line.short)
  | note line remark flat =>
      obtain ⟨only, one, ignored⟩ := content_note line remark flat
      rw [one, List.mem_singleton] at member
      rw [member, ignored] at read
      cases read
  | blank space white =>
      rw [CompilerLine.text_blank, contentLines_eq_nil white] at member
      cases member

end

/-- An output of the compiler with a report in it is read as those of its reports whose message names
no note, in order, each with its message, severity, code and line; where there are none of these, the
whole text is one error. So it is read as its reports exactly if no message names a note. -/
theorem translate_compiler_output {ending : Text} (ends : IsLineEnd ending)
    {output : List CompilerLine} (offset : Int) (userLines : Option Int)
    (reported : output.filterMap (·.diagnostic? offset userLines) ≠ []) :
    let text := Text.join ending (output.map CompilerLine.text)
    let printed := output.filterMap (·.diagnostic? offset userLines)
    let kept := printed.filter fun diagnostic => !decide (NamesNote diagnostic.message)
    translate .slang offset userLines text =
        .ok (if kept = [] then [{ message := text.trim }] else kept) ∧
      (translate .slang offset userLines text = .ok printed ↔
        ∀ diagnostic ∈ printed, ¬ NamesNote diagnostic.message) := by
  intro text printed kept
  have same : output.filterMap (plainDiagnostic? offset userLines) = kept :=
    List.filter_filterMap.symm
  -- the place of a report is no white space
  have loud : text.isBlankText = false := by
    obtain ⟨line, member, diagnostic, stands⟩ :
        ∃ line ∈ output, ∃ diagnostic, line.diagnostic? offset userLines = some diagnostic := by
      by_contra none
      refine reported (List.filterMap_eq_nil_iff.mpr fun line member => ?_)
      exact Option.eq_none_iff_forall_ne_some.mpr fun diagnostic stands =>
        none ⟨line, member, diagnostic, stands⟩
    refine Bool.eq_false_iff.mpr fun white => ?_
    have empty := contentLines_eq_nil white
    rw [contentLines_join ends, List.flatMap_eq_nil_iff] at empty
    have content := empty _ (List.mem_map_of_mem member)
    cases line with
    | report severity number column code message => cases (contentLines_compilerReport _ _ _ _ _).symm.trans content
    | note number remark flat => cases stands
    | blank space blank => cases stands
  have read : translate .slang offset userLines text =
      .ok (if kept = [] then [{ message := text.trim }] else kept) := by
    have whole := translate_printed ends (fun line _member => not_overlong_compilerLine line)
      (fun line (_member : line ∈ output) => @reports_compilerLine offset userLines line)
    dsimp only at whole
    rw [same, show Text.join ending (output.map CompilerLine.text) = text from rfl, loud,
      Bool.not_false, Bool.and_true] at whole
    simpa only [List.isEmpty_iff] using whole
  refine ⟨read, ?_⟩
  rw [read]
  constructor
  · intro yields
    have yields := Except.ok.inj yields
    split at yields
    · -- a report has a code, which text that is an error itself has not
      have member : ({ message := text.trim } : Diagnostic) ∈ printed := by
        rw [← yields]
        exact List.mem_singleton_self _
      obtain ⟨line, _inside, stands⟩ := List.mem_filterMap.mp member
      cases line with
      | report severity number column code message =>
          exact absurd (congrArg Diagnostic.code (Option.some.inj stands)) nofun
      | note number remark flat => cases stands
      | blank space blank => cases stands
    · intro diagnostic member
      have plain := List.filter_eq_self.mp yields diagnostic member
      simpa using plain
  · intro plain
    have whole : kept = printed := List.filter_eq_self.mpr fun diagnostic member => by
      simpa using plain diagnostic member
    rw [whole, if_neg reported]

/-- A report that quotes a note is passed over. -/
theorem translate_compiler_output_of_quoted_note :
    let plain : Message := ⟨"a", by decide, ⟨by decide, by decide⟩, by decide⟩
    let quoting : Message := ⟨"see b(2): note c", by decide, ⟨by decide, by decide⟩, by decide⟩
    let output : List CompilerLine :=
      [.report .error ⟨5, by decide⟩ none ⟨"30015", by decide, by decide⟩ plain,
        .report .error ⟨6, by decide⟩ none ⟨"30016", by decide, by decide⟩ quoting]
    let text := Text.join ['\n'] (output.map CompilerLine.text)
    let printed := output.filterMap (·.diagnostic? 0 none)
    (IsLineEnd ['\n'] ∧ printed ≠ []) ∧
      translate .slang 0 none text = .ok [⟨plain.text, some 5, .error, some "30015"⟩] ∧
      translate .slang 0 none text ≠ .ok printed := by
  intro plain quoting output text printed
  have ends : IsLineEnd ['\n'] := ⟨by decide, by decide⟩
  have reported : printed ≠ [] := List.cons_ne_nil _ _
  obtain ⟨read, whole⟩ := translate_compiler_output ends 0 none reported
  refine ⟨⟨ends, reported⟩, ?_, fun same => ?_⟩
  · exact read.trans (by decide)
  · exact absurd (whole.mp same) (by decide)

end Diagnostic
end ShaderBridge
