import ShaderBridge.Proofs.Diagnostic.Printing
set_option autoImplicit false

/-! Reading undoes the printing of the validator. Its output names the file that it reads, reports
errors and warnings with the file and the line, and ends with a count of errors. Whatever a message
says, the first number between colons is the line (`translate_validator_output`). -/

namespace ShaderBridge
namespace Diagnostic

open LineReading
open Text (Blank Trimmed isLineBoundary)

inductive ValidatorFile where
  | named
  | numbered

def ValidatorFile.text : ValidatorFile → Text
  | named => "shader.frag"
  | numbered => "0"

/-- A severity as the validator writes it. -/
def capitals : Severity → Text
  | .error => "ERROR"
  | .warning => "WARNING"

/-- A line of the validator's output. -/
inductive ValidatorLine where
  | report (severity : Severity) (file : ValidatorFile) (line : LineNumber) (message : Message)
  /-- The name of the file that is read. -/
  | echo
  | blank (space : Text) (white : space.isBlankText = true)
  /-- How many errors there are. -/
  | summary (count : Nat)

namespace ValidatorLine

def text : ValidatorLine → Text
  | report severity file line message =>
      capitals severity ++ ": " ++ file.text ++ ":" ++ Text.decimal line.value ++ ": " ++ message.text
  | echo => "shader.frag"
  | blank space _white => space
  | summary count =>
      "ERROR: " ++ Text.decimal count ++ " compilation errors.  No code generated."

theorem text_report (severity : Severity) (file : ValidatorFile) (line : LineNumber)
    (message : Message) :
    (report severity file line message).text =
      capitals severity ++ ": " ++ file.text ++ ":" ++ Text.decimal line.value ++ ": " ++
        message.text := rfl

theorem text_blank (space : Text) (white : space.isBlankText = true) :
    (blank space white).text = space := rfl

theorem text_summary (count : Nat) :
    (summary count).text =
      "ERROR: " ++ Text.decimal count ++ " compilation errors.  No code generated." := rfl

/-- The diagnostic that a line stands for. -/
def diagnostic? (offset : Int) (userLines : Option Int) : ValidatorLine → Option Diagnostic
  | report severity _file line message =>
      some ⟨message.text, remapLine line.value offset userLines, severity, none⟩
  | echo | blank _space _white | summary _count => none

end ValidatorLine

private theorem validatorSummary_report (severity : Severity) (file : ValidatorFile) (rest : Text) :
    validatorSummary (capitals severity ++ ": " ++ file.text ++ ":" ++ rest) = none := by
  cases severity with
  | warning => rfl
  | error =>
      cases file with
      | named => rfl
      | numbered => rfl

private theorem capitalSeverity_capitals (severity : Severity) (rest : Text) :
    capitalSeverity (capitals severity ++ rest) = some (severity, rest) := by
  cases severity with
  | error => rfl
  | warning => rfl

private theorem ValidatorFile.plain (file : ValidatorFile) :
    ':' ∉ file.text ∧ (∀ rest : Text, (file.text ++ rest).head?.any isBlank = false) ∧
      Flat file.text := by
  cases file with
  | named => exact ⟨by decide, fun _rest => rfl, by decide⟩
  | numbered => exact ⟨by decide, fun _rest => rfl, by decide⟩

private theorem validatorReport_report (severity : Severity) (file : ValidatorFile)
    {digits message : Text} (number : IsNumber digits) (starts : message.head?.any isBlank = false) :
    validatorReport
        (capitals severity ++ ": " ++ file.text ++ ":" ++ digits ++ ": " ++ message) =
      some (.report severity (some digits) none message) := by
  obtain ⟨plain, dark, _flat⟩ := file.plain
  have placed : firstReading (fun text => do
      let read ← readDigits? (← Scan.literal ":" text)
      return (read.1, ← (Scan.literal ":" >=> Scan.blanks) read.2))
        (file.text ++ ':' :: (digits ++ ':' :: ' ' :: message)) = some (digits, message) := by
    rw [firstReading_append _ plain]
    · refine firstReading_of_some ?_
      refine Option.bind_eq_some_iff.mpr ⟨digits ++ ':' :: ' ' :: message, rfl, ?_⟩
      refine Option.bind_eq_some_iff.mpr ⟨(digits, ':' :: ' ' :: message), ?_, ?_⟩
      · exact readDigits?_eq_some_iff.mpr ⟨number, rfl, rfl⟩
      · exact Option.bind_eq_some_iff.mpr ⟨message, behind_colon starts, rfl⟩
    · intro char rest other
      have missed : Scan.literal ":" (char :: rest) = none := if_neg (Ne.symm other)
      simp only [missed]
      rfl
  have whole : (capitals severity ++ ": " ++ file.text ++ ":" ++ digits ++ ": " ++ message : Text) =
      capitals severity ++ ':' :: ' ' :: (file.text ++ ':' :: (digits ++ ':' :: ' ' :: message)) := by
    simp
  rw [whole]
  unfold validatorReport
  refine Option.bind_eq_some_iff.mpr ⟨_, capitalSeverity_capitals severity _, ?_⟩
  refine Option.bind_eq_some_iff.mpr ⟨_, behind_colon (dark _), ?_⟩
  exact Option.bind_eq_some_iff.mpr ⟨_, placed, rfl⟩

private theorem ofLine?_report (severity : Severity) (file : ValidatorFile) (line : LineNumber)
    (message : Message) :
    ofLine? .glslang (ValidatorLine.report severity file line message).text =
      some (.report severity (some (Text.decimal line.value)) none message.text) := by
  have silent := validatorSummary_report severity file
    (Text.decimal line.value ++ (": ".toList ++ message.text))
  rw [← List.append_assoc, ← List.append_assoc] at silent
  refine ofLine?_eq_some_of_rules [validatorSummary] rfl ?_ ?_
  · intro other member
    rw [List.mem_singleton.mp member]
    exact silent
  · exact validatorReport_report severity file (isNumber_decimal _) message.starts

private theorem ofLine?_summary (count : Nat) :
    ofLine? .glslang (ValidatorLine.summary count).text = some .ignored := by
  have number := isNumber_decimal count
  have counted : ((Scan.anyCase "error:" >=> Scan.blanks >=> Scan.oneOrMore isDecimalDigit
      >=> Scan.someBlanks >=> Scan.anyCase "compilation error"
      >=> Scan.optional (Scan.anyCase "s") >=> Scan.literal ".")
        (ValidatorLine.summary count).text).isSome = true := by
    refine Option.isSome_iff_exists.mpr ⟨"  No code generated.", ?_⟩
    refine Scan.andThen_eq_some_iff.mpr
      ⟨" " ++ Text.decimal count ++ " compilation errors.  No code generated.", rfl, ?_⟩
    refine Scan.andThen_eq_some_iff.mpr
      ⟨Text.decimal count ++ " compilation errors.  No code generated.", ?_, ?_⟩
    · exact Scan.zeroOrMore_eq_some_iff.mpr ⟨" ", by decide, rfl, number.starts _⟩
    refine Scan.andThen_eq_some_iff.mpr ⟨" compilation errors.  No code generated.", ?_, rfl⟩
    exact Scan.oneOrMore_eq_some_iff.mpr ⟨_, number.1, number.2, rfl, rfl⟩
  refine ofLine?_eq_some_of_rules [] rfl nofun ?_
  exact if_pos (Bool.or_eq_true_iff.mpr (.inl counted))

private theorem contentLines_validatorReport (severity : Severity) (file : ValidatorFile) (line : LineNumber)
    (message : Message) :
    contentLines (ValidatorLine.report severity file line message).text =
      [(ValidatorLine.report severity file line message).text] := by
  have capital : (∀ rest, (capitals severity ++ rest).head?.any isBlank = false) ∧
      Flat (capitals severity) := by
    cases severity with
    | error => exact ⟨fun _rest => rfl, by decide⟩
    | warning => exact ⟨fun _rest => rfl, by decide⟩
  have marks : Flat ": " := by decide
  have colon : Flat ":" := by decide
  refine contentLines_of_trimmed ?_ ⟨?_, ?_⟩ ?_
  · rw [ValidatorLine.text_report]
    exact List.append_ne_nil_of_right_ne_nil _ message.filled
  · simp only [ValidatorLine.text_report, List.append_assoc]
    exact capital.1 _
  · rw [ValidatorLine.text_report, List.getLast?_append_of_ne_nil _ message.filled]
    exact message.trimmed.2
  · have front := (capital.2.append marks).append (file.plain.2.2.append colon)
    have back := ((flat_of_isNumber (isNumber_decimal line.value)).append marks).append message.flat
    have whole := front.append back
    simpa only [ValidatorLine.text_report, List.append_assoc] using whole

private theorem contentLines_summary (count : Nat) :
    contentLines (ValidatorLine.summary count).text = [(ValidatorLine.summary count).text] := by
  have before : Flat "ERROR: " := by decide
  have after : Flat " compilation errors.  No code generated." := by decide
  refine contentLines_of_trimmed (List.cons_ne_nil _ _) ⟨rfl, ?_⟩ ?_
  · rw [ValidatorLine.text_summary, List.getLast?_append_of_ne_nil _ (by decide)]
    rfl
  · rw [ValidatorLine.text_summary]
    exact (before.append (flat_of_isNumber (isNumber_decimal count))).append after

private theorem ofLine?_echo : ofLine? .glslang ValidatorLine.echo.text = none := rfl

private theorem contentLines_echo :
    contentLines ValidatorLine.echo.text = [ValidatorLine.echo.text] := by decide +kernel

section
variable {offset : Int} {userLines : Option Int}

theorem reports_validatorLine (line : ValidatorLine) :
    reports .glslang offset userLines line.text = (line.diagnostic? offset userLines).toList := by
  cases line with
  | report severity file line message =>
      rw [reports_of_line (contentLines_validatorReport severity file line message),
        ofLine?_report, Option.bind_some, ofReading?_message message, Option.bind_some,
        digitsValue_decimal]
      rfl
  | echo => rw [reports_of_line contentLines_echo, ofLine?_echo]; rfl
  | blank space white =>
      unfold reports
      rw [ValidatorLine.text_blank, contentLines_eq_nil white]
      rfl
  | summary count => rw [reports_of_line (contentLines_summary count), ofLine?_summary]; rfl

theorem not_overlong_validatorLine (line : ValidatorLine) :
    ∀ content ∈ contentLines line.text, ¬ LineReading.Overlong .glslang content := by
  rintro content member ⟨severity, digits, code, message, read, long⟩
  cases line with
  | report grade file line body =>
      rw [contentLines_validatorReport, List.mem_singleton] at member
      rw [member, ofLine?_report] at read
      cases read
      exact absurd long (Nat.not_lt.mpr line.short)
  | echo =>
      rw [contentLines_echo, List.mem_singleton] at member
      rw [member, ofLine?_echo] at read
      cases read
  | blank space white =>
      rw [ValidatorLine.text_blank, contentLines_eq_nil white] at member
      cases member
  | summary count =>
      rw [contentLines_summary, List.mem_singleton] at member
      rw [member, ofLine?_summary] at read
      cases read

end

/-- An output of the validator with a report in it is read as its reports, in order: each message as
it was printed, with its severity, the line of the user's code that its line is, and no code. -/
theorem translate_validator_output {ending : Text} (ends : IsLineEnd ending)
    {output : List ValidatorLine} (offset : Int) (userLines : Option Int)
    (reported : output.filterMap (·.diagnostic? offset userLines) ≠ []) :
    translate .glslang offset userLines (Text.join ending (output.map ValidatorLine.text)) =
      .ok (output.filterMap (·.diagnostic? offset userLines)) := by
  have read := translate_printed ends (fun line _member => not_overlong_validatorLine line)
    (fun line (_member : line ∈ output) => @reports_validatorLine offset userLines line)
  dsimp only at read
  rwa [List.isEmpty_eq_false_iff.mpr reported, Bool.false_and, if_neg Bool.false_ne_true] at read

/-- A message that looks like a report, and a warning behind the lines of the user's code. -/
theorem translate_validator_output_of_quoted_report :
    let quoting : Message :=
      ⟨"'x' : WARNING: 0:3: 1 compilation errors.", by decide, ⟨by decide, by decide⟩, by decide⟩
    let late : Message := ⟨"'y' : unused", by decide, ⟨by decide, by decide⟩, by decide⟩
    let output : List ValidatorLine :=
      [.echo, .report .error .named ⟨27, by decide⟩ quoting, .blank "\t" (by decide),
        .report .warning .numbered ⟨40, by decide⟩ late, .summary 1, .blank "" (by decide)]
    (IsLineEnd ['\n'] ∧ output.filterMap (·.diagnostic? 25 (some 5)) ≠ []) ∧
      translate .glslang 25 (some 5) (Text.join ['\n'] (output.map ValidatorLine.text)) =
        .ok [⟨quoting.text, some 2, .error, none⟩, ⟨late.text, none, .warning, none⟩] := by
  intro quoting late output
  have ends : IsLineEnd ['\n'] := ⟨by decide, by decide⟩
  have reported : output.filterMap (·.diagnostic? 25 (some 5)) ≠ [] := List.cons_ne_nil _ _
  exact ⟨⟨ends, reported⟩, translate_validator_output ends 25 (some 5) reported⟩

end Diagnostic
end ShaderBridge
