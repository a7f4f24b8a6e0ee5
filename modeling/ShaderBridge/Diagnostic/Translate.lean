import ShaderBridge.Diagnostic.Basic
import ShaderBridge.Text.CaseFold
import ShaderBridge.Text.Lines
import ShaderBridge.Text.Numeral
set_option autoImplicit false

/-! Reading of tool output. Each tool has rules for one printed line, tried in order: a rule either
passes the line over (summaries and notes) or reads a report from it. Lines that no rule knows are
skipped, but text that yields no report at all is reported as it stands. -/

namespace ShaderBridge

inductive LineReading where
  /-- The line carries no report. -/
  | ignored
  /-- A report: its severity, the digits of its line, its code, and its message. -/
  | report (severity : Severity) (line : Option Text) (code : Option Text) (message : Text)
  deriving DecidableEq, Repr

namespace LineReading

def readDigits? (text : Text) : Option (Text × Text) :=
  match text.takeWhile isDecimalDigit with
  | [] => none
  | digits => some (digits, text.dropWhile isDecimalDigit)

def firstReading {α : Type} (read : Text → Option α) : Text → Option α
  | [] => read []
  | char :: text => (read (char :: text)).orElse fun _ => firstReading read text

def capitalSeverity (text : Text) : Option (Severity × Text) :=
  match Scan.literal "ERROR" text with
  | some rest => some (.error, rest)
  | none => (Scan.literal "WARNING" text).map fun rest => (.warning, rest)

/-- A severity in any case. A word that only folds to a warning counts as an error. -/
def anySeverity (text : Text) : Option (Severity × Text) :=
  match Scan.anyCase "error" text with
  | some rest => some (.error, rest)
  | none => (Scan.anyCase "warning" text).map fun rest =>
    (if Text.toLowerAscii (text.take 7) = "warning".toList then .warning else .error, rest)

def messageAfterColon (text : Text) : Option Text := do
  let message ← (Scan.literal ":" >=> Scan.blanks) text
  if message.isEmpty then none else some message

def validatorSummary (text : Text) : Option LineReading :=
  let count := Scan.anyCase "error:" >=> Scan.blanks >=> Scan.oneOrMore isDecimalDigit
    >=> Scan.someBlanks >=> Scan.anyCase "compilation error"
    >=> Scan.optional (Scan.anyCase "s") >=> Scan.literal "."
  let noCode := Scan.anyCase "error:" >=> Scan.blanks >=> Scan.anyCase "no code generated"
  if (count text).isSome || (noCode text).isSome then some .ignored else none

/-- A severity, a colon, a file, and a line between colons: the first such line ends the file. -/
def validatorReport (text : Text) : Option LineReading := do
  let (severity, rest) ← capitalSeverity text
  let body ← (Scan.literal ":" >=> Scan.blanks) rest
  let (line, message) ← firstReading (fun text => do
    let (line, rest) ← readDigits? (← Scan.literal ":" text)
    return (line, ← (Scan.literal ":" >=> Scan.blanks) rest)) body
  return .report severity (some line) none message

def validatorRemark (text : Text) : Option LineReading := do
  let (severity, rest) ← capitalSeverity text
  return .report severity none none (← messageAfterColon rest)

def parenthesizedLine (text : Text) : Option (Text × Text) := do
  let (line, rest) ← readDigits? (← Scan.literal "(" text)
  let column := Scan.literal "," >=> Scan.blanks >=> Scan.oneOrMore isDecimalDigit
  return (line, ← (Scan.optional column >=> Scan.literal "):" >=> Scan.blanks) rest)

def compilerNote (text : Text) : Option LineReading :=
  firstReading (fun text => do
    let (_, rest) ← parenthesizedLine text
    let _ ← (Scan.anyCase "note" >=> Scan.wordEnd) rest
    return .ignored) text

def severityAndCode (text : Text) : Option ((Severity × Option Text) × Text) := do
  let (severity, rest) ← anySeverity text
  let rest := rest.dropWhile isBlank
  match readDigits? rest with
  | some (code, rest) => return ((severity, some code), rest.dropWhile isBlank)
  | none => return ((severity, none), rest)

def compilerReport (text : Text) : Option LineReading :=
  firstReading (fun text => do
    let (line, rest) ← parenthesizedLine text
    let ((severity, code), rest) ← severityAndCode rest
    return .report severity (some line) code (← (Scan.literal ":" >=> Scan.blanks) rest)) text

def compilerRemark (text : Text) : Option LineReading := do
  let ((severity, code), rest) ← severityAndCode text
  return .report severity none code (← messageAfterColon rest)

def converterException (text : Text) : Option LineReading := do
  let rest ← Scan.literal "SPIRV-Cross threw an exception" text
  return .report .error none none (← messageAfterColon rest)

def converterRemark (text : Text) : Option LineReading := do
  let (severity, rest) ← anySeverity text
  return .report severity none none (← messageAfterColon (rest.dropWhile isBlank))

def rules : Tool → List (Text → Option LineReading)
  | .glslang => [validatorSummary, validatorReport, validatorRemark]
  | .slang => [compilerNote, compilerReport, compilerRemark]
  | .spirvCross => [converterException, converterRemark]

def ofLine? (tool : Tool) (line : Text) : Option LineReading :=
  (rules tool).findSome? fun rule => rule line

end LineReading

namespace Diagnostic

/-- The diagnostic of a printed line, if it carries one. A report without a message has the line
itself for its message. -/
def ofLine (tool : Tool) (offset : Int) (userLines : Option Int) (line : Text) :
    Except NumeralProblem (Option Diagnostic) :=
  match LineReading.ofLine? tool line with
  | none | some .ignored => .ok none
  | some (.report severity digits code message) => do
    let own ← match digits with
      | none => pure none
      | some digits => do pure (remapLine (← Text.readDigits digits) offset userLines)
    let message := message.trim
    return some ⟨if message.isEmpty then line else message, own, severity, code⟩

/-- The trimmed printed lines of a text that are not empty. -/
def contentLines (text : Text) : List Text :=
  (text.printedLines.map Text.trim).filter (!·.isEmpty)

/-- The diagnostics in the output of a tool, in the order in which they were printed. -/
def translate (tool : Tool) (offset : Int) (userLines : Option Int) (text : Text) :
    Except NumeralProblem (List Diagnostic) := do
  let found := ((← (contentLines text).mapM (ofLine tool offset userLines)).filterMap id)
  if found.isEmpty && !text.isBlankText then return [{ message := text.trim }] else return found

end Diagnostic
end ShaderBridge
