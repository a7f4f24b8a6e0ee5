import ShaderBridge.Proofs.Diagnostic.Lines
import ShaderBridge.Proofs.Text.Lines
set_option autoImplicit false

/-! What tools print, one line behind the other: the parts of a printed line, and how the reports of an
output follow from those of its lines (`translate_printed`). -/

namespace ShaderBridge
namespace Diagnostic

open Text (Blank Trimmed isLineBoundary)

def Flat (text : Text) : Prop := ∀ char ∈ text, isLineBoundary char = false

instance (text : Text) : Decidable (Flat text) :=
  inferInstanceAs (Decidable (∀ char ∈ text, isLineBoundary char = false))

/-- Text on one line, without white space around it. -/
structure Message where
  text : Text
  filled : text ≠ []
  trimmed : Trimmed text
  flat : Flat text

structure LineNumber where
  value : Nat
  short : (Text.decimal value).length ≤ maxNumeralDigits

/-- What ends a printed line. -/
structure IsLineEnd (ending : Text) : Prop where
  filled : ending ≠ []
  boundaries : ∀ char ∈ ending, isLineBoundary char = true

theorem Message.starts (message : Message) : message.text.head?.any isBlank = false :=
  message.trimmed.1

theorem Flat.append {first rest : Text} (left : Flat first) (right : Flat rest) :
    Flat (first ++ rest) := by
  intro char member
  rcases List.mem_append.mp member with early | late
  · exact left char early
  · exact right char late

theorem flat_of_isNumber {digits : Text} (number : IsNumber digits) : Flat digits := by
  have blank : ∀ boundary ∈ (['\n', '\r', '\x0b', '\x0c', '\x1c', '\x1d', '\x1e', '\u0085', '\u2028',
      '\u2029'] : List Char), isBlank boundary = true := by decide
  intro char member
  refine Bool.eq_false_iff.mpr fun ends => ?_
  have white := blank char (of_decide_eq_true ends)
  rw [isBlank_of_isWord (isWord_of_isDecimalDigit (number.2 char member))] at white
  cases white

theorem behind_colon {rest : Text} (starts : rest.head?.any isBlank = false) :
    (Scan.literal ":" >=> Scan.blanks) (':' :: ' ' :: rest) = some rest := by
  refine Scan.andThen_eq_some_iff.mpr ⟨' ' :: rest, rfl, ?_⟩
  exact Scan.zeroOrMore_eq_some_iff.mpr ⟨[' '], by decide, rfl, starts⟩

/-- Trimming takes nothing off a text that is trimmed where it begins. -/
theorem trim_append_of_trimmed {front : Text} (filled : front ≠ []) (trimmed : Trimmed front)
    (rest : Text) : ∃ more, (front ++ rest).trim = front ++ more := by
  obtain ⟨before, after, _left, right, same⟩ := Text.exists_trim rest
  have cut : (front ++ rest).trim = (front ++ (before ++ rest.trim)).trim := by
    conv_lhs => rw [same, ← List.append_assoc, Text.trim_append_blank _ right]
  rw [cut]
  by_cases empty : rest.trim = []
  · refine ⟨[], ?_⟩
    rw [empty, List.append_nil, Text.trim_append_blank _ _left, Text.trim_eq_self trimmed,
      List.append_nil]
  · refine ⟨before ++ rest.trim, Text.trim_eq_self ⟨?_, ?_⟩⟩
    · rw [List.head?_append_of_ne_nil _ filled]
      exact trimmed.1
    · rw [← List.append_assoc, List.getLast?_append_of_ne_nil _ empty]
      exact (Text.trimmed_trim rest).2

section
variable {tool : Tool} {offset : Int} {userLines : Option Int}

theorem ofReading?_message (message : Message) (line : Text) (severity : Severity)
    (digits code : Option Text) :
    ofReading? offset userLines line (.report severity digits code message.text) =
      some ⟨message.text,
        digits.bind fun number => remapLine (Text.digitsValue number) offset userLines, severity,
        code⟩ := by
  rw [ofReading?, Text.trim_eq_self message.trimmed, List.isEmpty_eq_false_iff.mpr message.filled,
    if_neg Bool.false_ne_true]

private theorem contentLines_lineEnd {ending : Text} (ends : IsLineEnd ending) (first rest : Text) :
    contentLines (first ++ (ending ++ rest)) = contentLines first ++ contentLines rest := by
  obtain ⟨filled, boundaries⟩ := ends
  induction ending generalizing first with
  | nil => exact absurd rfl filled
  | cons char ending ih =>
      obtain ⟨boundary, boundaries⟩ := List.forall_mem_cons.mp boundaries
      rw [List.cons_append, contentLines_append boundary]
      refine congrArg (contentLines first ++ ·) ?_
      by_cases last : ending = []
      · rw [last, List.nil_append]
      · exact ih [] last boundaries

theorem contentLines_join {ending : Text} (ends : IsLineEnd ending) (lines : List Text) :
    contentLines (Text.join ending lines) = lines.flatMap contentLines := by
  induction lines with
  | nil => rfl
  | cons line lines ih =>
      cases lines with
      | nil => rw [Text.join, List.intercalate_singleton, List.flatMap_singleton]
      | cons next lines =>
          rw [Text.join_cons_cons, contentLines_lineEnd ends, ih]
          rfl

theorem reports_of_line {line content : Text} (only : contentLines line = [content]) :
    reports tool offset userLines line =
      ((LineReading.ofLine? tool content).bind (ofReading? offset userLines content)).toList := by
  unfold reports
  rw [only, List.filterMap_cons, List.filterMap_nil]
  split
  · next none => rw [none]; rfl
  · next some => rw [some]; rfl

theorem contentLines_of_trimmed {line : Text} (filled : line ≠ []) (trimmed : Trimmed line)
    (flat : Flat line) : contentLines line = [line] := by
  rw [contentLines_of_flat flat, Text.trim_eq_self trimmed, List.filter_cons_of_pos]
  · rfl
  · rw [List.isEmpty_eq_false_iff.mpr filled]
    rfl

/-- An output of which each line yields its diagnostic or none yields them in order; one without any
diagnostic is a diagnostic itself. -/
theorem translate_printed {Line : Type} {print : Line → Text} {diagnostic? : Line → Option Diagnostic}
    {ending : Text} (ends : IsLineEnd ending) {output : List Line}
    (fine : ∀ line ∈ output, ∀ content ∈ contentLines (print line),
      ¬ LineReading.Overlong tool content)
    (each : ∀ line ∈ output,
      reports tool offset userLines (print line) = (diagnostic? line).toList) :
    let text := Text.join ending (output.map print)
    translate tool offset userLines text =
      .ok (if (output.filterMap diagnostic?).isEmpty && !text.isBlankText
        then [{ message := text.trim }] else output.filterMap diagnostic?) := by
  intro text
  have whole : reports tool offset userLines text = output.filterMap diagnostic? := by
    have parts : reports tool offset userLines text =
        output.flatMap fun line => reports tool offset userLines (print line) := by
      unfold reports
      rw [contentLines_join ends, List.flatMap_map, List.filterMap_flatMap]
    rw [parts, List.filterMap_eq_flatMap_toList]
    exact List.flatMap_congr each
  rw [← whole]
  refine translate_eq fun content member => ?_
  rw [contentLines_join ends, List.flatMap_map] at member
  obtain ⟨line, inside, within⟩ := List.mem_flatMap.mp member
  exact fine line inside content within

end
end Diagnostic
end ShaderBridge
