import Mathlib.Data.List.TakeWhile
import ShaderBridge.Diagnostic.Translate
import ShaderBridge.Proofs.Effect
set_option autoImplicit false

namespace ShaderBridge

open Attempt (Fails)

theorem readDigits_fails_iff {digits : Text} :
    Fails (Text.readDigits digits) ↔ maxNumeralDigits < digits.length := by
  unfold Text.readDigits
  by_cases long : maxNumeralDigits < digits.length
  · simp [long, Fails]
  · simp [long, Fails]

theorem writeNumber_fails_iff {number : Int} :
    Fails (Text.writeNumber number) ↔
      maxNumeralDigits < (Text.decimal number.natAbs).length := by
  unfold Text.writeNumber
  by_cases long : maxNumeralDigits < (Text.decimal number.natAbs).length
  · simp [long, Fails]
  · simp [long, Fails]

theorem ofNumeral_fails_iff {α : Type} {value : Except NumeralProblem α} :
    Fails (Fault.ofNumeral value) ↔ Fails value := by
  cases value with
  | ok value => simp [Fault.ofNumeral, Fails]
  | error problem => simp [Fault.ofNumeral, Fails]

theorem ofNumeral_eq_ok_iff {α : Type} {value : Except NumeralProblem α} {given : α} :
    Fault.ofNumeral value = .ok given ↔ value = .ok given := by
  cases value with
  | ok value => simp [Fault.ofNumeral]
  | error problem => simp [Fault.ofNumeral]

theorem ofNumeral_eq_error {α : Type} {value : Except NumeralProblem α} {fault : Fault}
    (failed : Fault.ofNumeral value = .error fault) : ∃ problem, fault = .numeral problem := by
  cases value with
  | ok value => cases failed
  | error problem =>
      cases failed
      exact ⟨problem, rfl⟩

/-- The rules of a tool find a line number in the printed line that is too long to be read. -/
def LineReading.Overlong (tool : Tool) (line : Text) : Prop :=
  ∃ severity digits code message,
    LineReading.ofLine? tool line = some (.report severity (some digits) code message) ∧
      maxNumeralDigits < digits.length

namespace Diagnostic

variable {tool : Tool} {offset : Int} {userLines : Option Int}

theorem ofLine_fails_iff {line : Text} :
    Fails (ofLine tool offset userLines line) ↔ LineReading.Overlong tool line := by
  unfold ofLine LineReading.Overlong
  cases read : LineReading.ofLine? tool line with
  | none => simp [Fails]
  | some reading =>
      cases reading with
      | ignored => simp [Fails]
      | report severity number code message =>
          cases number with
          | none => simp [Fails, bind, Except.bind, pure, Except.pure]
          | some digits =>
              have long := @readDigits_fails_iff digits
              cases digit : Text.readDigits digits with
              | ok value =>
                  rw [digit] at long
                  have short := Nat.not_lt.mp (mt long.mpr (Attempt.not_fails_ok value))
                  simp [Fails, bind, Except.bind, pure, Except.pure, digit, short]
              | error problem =>
                  rw [digit] at long
                  have tooLong := long.mp ⟨problem, rfl⟩
                  simp only [bind, Except.bind, digit]
                  exact iff_of_true ⟨problem, rfl⟩ ⟨severity, digits, code, message, rfl, tooLong⟩

theorem translate_fails_iff {text : Text} :
    Fails (translate tool offset userLines text) ↔
      ∃ line ∈ contentLines text, LineReading.Overlong tool line := by
  have lines := Attempt.mapM_fails_iff (ofLine tool offset userLines) (contentLines text)
  simp only [ofLine_fails_iff] at lines
  rw [← lines]
  unfold translate
  cases (contentLines text).mapM (ofLine tool offset userLines) with
  | error problem => simp [Fails, bind, Except.bind]
  | ok found =>
      simp only [bind, Except.bind]
      split <;> simp [Fails, pure, Except.pure]

private theorem isBlankText_reverse {text : Text} :
    Text.isBlankText text.reverse = text.isBlankText := List.all_reverse

private theorem blank_of_mem_printedLinesFrom {current text line : Text}
    (before : current.isBlankText = true) (blank : text.isBlankText = true)
    (member : line ∈ Text.printedLinesFrom current text) : line.isBlankText = true := by
  -- the current line is kept backwards and given out forwards: it has to be blank both ways
  have turned : Text.isBlankText current.reverse = true := isBlankText_reverse.trans before
  induction current, text using Text.printedLinesFrom.induct with
  | case1 current none =>
      rw [Text.printedLinesFrom, if_pos none] at member
      cases member
  | case2 current some =>
      rw [Text.printedLinesFrom, if_neg some] at member
      rwa [List.mem_singleton.mp member]
  | case3 current text ih =>
      have spread : ∀ char ∈ '\x0d' :: '\n' :: text, isBlank char = true := List.all_eq_true.mp blank
      have rest : Text.isBlankText text = true :=
        List.all_eq_true.mpr fun char member =>
          spread char (List.mem_cons_of_mem _ (List.mem_cons_of_mem _ member))
      rw [Text.printedLinesFrom, List.mem_cons] at member
      rcases member with rfl | later
      · exact turned
      · exact ih rfl rest later rfl
  | case4 current char text other ends ih =>
      have rest := (Bool.and_eq_true_iff.mp blank).2
      rw [Text.printedLinesFrom, if_pos ends, List.mem_cons] at member
      · rcases member with rfl | later
        · exact turned
        · exact ih rfl rest later rfl
      · exact other
  | case5 current char text other inside ih =>
      obtain ⟨first, rest⟩ := Bool.and_eq_true_iff.mp blank
      have longer : Text.isBlankText (char :: current) = true :=
        Bool.and_eq_true_iff.mpr ⟨first, before⟩
      rw [Text.printedLinesFrom, if_neg inside] at member
      · exact ih longer rest member (isBlankText_reverse.trans longer)
      · exact other

private theorem trim_eq_nil {text : Text} (blank : text.isBlankText = true) : text.trim = [] := by
  have start : text.trimStart = [] :=
    List.dropWhile_eq_nil_iff.mpr (List.all_eq_true.mp blank)
  unfold Text.trim
  rw [start]
  rfl

theorem contentLines_eq_nil {text : Text} (blank : text.isBlankText = true) :
    contentLines text = [] := by
  refine List.filter_eq_nil_iff.mpr ?_
  intro line member
  obtain ⟨printed, inside, rfl⟩ := List.mem_map.mp member
  rw [trim_eq_nil (blank_of_mem_printedLinesFrom rfl blank inside)]
  exact nofun

/-- Only white space yields nothing. -/
theorem translate_eq_nil_iff {text : Text} :
    translate tool offset userLines text = .ok [] ↔ text.isBlankText = true := by
  constructor
  · intro silent
    unfold translate at silent
    obtain ⟨found, _read, silent⟩ := Attempt.bind_eq_ok_iff.mp silent
    cases blank : text.isBlankText with
    | true => rfl
    | false =>
        cases none : (found.filterMap id).isEmpty with
        | true =>
            simp only [none, blank, Bool.not_false, Bool.and_self, if_true] at silent
            cases silent
        | false =>
            simp only [none, Bool.false_and, Bool.false_eq_true, if_false] at silent
            have same : found.filterMap id = [] := Except.ok.inj silent
            rw [same] at none
            cases none
  · intro blank
    unfold translate
    rw [contentLines_eq_nil blank]
    simp [bind, Except.bind, pure, Except.pure, blank]

end Diagnostic
end ShaderBridge
