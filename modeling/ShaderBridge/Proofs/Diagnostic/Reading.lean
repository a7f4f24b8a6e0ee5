import ShaderBridge.Proofs.Code.Identifier
import ShaderBridge.Proofs.Diagnostic.Report
set_option autoImplicit false

/-! What the rules of the tools read off a line, part by part. A rule that looks for a place in the line
takes the first one that fits, so what stands in front of it decides nothing
(`firstReading_append`), and every number that a rule reads is a row of digits of the line
(`isNumber_of_report`). -/

namespace ShaderBridge

namespace LineReading

theorem readDigits?_eq_some_iff {text digits rest : Text} :
    readDigits? text = some (digits, rest) ↔
      IsNumber digits ∧ text = digits ++ rest ∧ rest.head?.any isDecimalDigit = false := by
  have cut := @Scan.zeroOrMore_eq_some_iff isDecimalDigit text rest
  constructor
  · intro found
    unfold readDigits? at found
    split at found
    · cases found
    · next filled =>
        cases found
        obtain ⟨stretch, _members, _same, outside⟩ := cut.mp rfl
        exact ⟨⟨filled, fun digit member => List.mem_takeWhile_imp member⟩,
          List.takeWhile_append_dropWhile.symm, outside⟩
  · rintro ⟨⟨filled, each⟩, rfl, outside⟩
    have behind : (digits ++ rest).dropWhile isDecimalDigit = rest :=
      Option.some.inj (cut.mpr ⟨digits, each, rfl, outside⟩)
    have front : (digits ++ rest).takeWhile isDecimalDigit = digits := by
      have whole := List.takeWhile_append_dropWhile (p := isDecimalDigit) (l := digits ++ rest)
      rw [behind] at whole
      exact List.append_cancel_right whole
    unfold readDigits?
    rw [front, behind]
    cases digits with
    | nil => exact absurd rfl filled
    | cons digit digits => rfl

section
variable {α : Type} {read : Text → Option α} {value : α} {text : Text}

theorem firstReading_of_some (found : read text = some value) :
    firstReading read text = some value := by
  cases text with
  | nil => exact found
  | cons char text =>
      rw [firstReading, found]
      rfl

theorem firstReading_cons {char : Char} (missed : read (char :: text) = none) :
    firstReading read (char :: text) = firstReading read text := by
  rw [firstReading, missed]
  rfl

theorem exists_suffix_of_firstReading (found : firstReading read text = some value) :
    ∃ rest, rest <:+ text ∧ read rest = some value := by
  induction text with
  | nil => exact ⟨[], List.suffix_refl [], found⟩
  | cons char text ih =>
      cases here : read (char :: text) with
      | some other =>
          rw [firstReading_of_some here] at found
          exact ⟨_, List.suffix_refl _, here.trans found⟩
      | none =>
          rw [firstReading_cons here] at found
          obtain ⟨rest, behind, same⟩ := ih found
          exact ⟨rest, behind.trans (List.suffix_cons char text), same⟩

theorem firstReading_eq_none_iff :
    firstReading read text = none ↔ ∀ rest, rest <:+ text → read rest = none := by
  constructor
  · intro missed
    induction text with
    | nil =>
        intro rest behind
        rw [List.suffix_nil.mp behind]
        exact missed
    | cons char text ih =>
        cases here : read (char :: text) with
        | some other =>
            rw [firstReading_of_some here] at missed
            cases missed
        | none =>
            rw [firstReading_cons here] at missed
            intro rest behind
            rcases List.suffix_cons_iff.mp behind with rfl | later
            · exact here
            · exact ih missed rest later
  · intro missed
    refine Option.eq_none_iff_forall_ne_some.mpr fun value found => ?_
    obtain ⟨rest, behind, same⟩ := exists_suffix_of_firstReading found
    rw [missed rest behind] at same
    cases same

/-- Where every reading begins with one mark, text without that mark in it is passed over. -/
theorem firstReading_append {mark : Char} (opens : ∀ char rest, char ≠ mark → read (char :: rest) = none)
    {front : Text} (free : mark ∉ front) (rest : Text) :
    firstReading read (front ++ rest) = firstReading read rest := by
  induction front with
  | nil => rfl
  | cons char front ih =>
      obtain ⟨apart, free⟩ := not_or.mp (mt List.mem_cons.mpr free)
      rw [List.cons_append, firstReading_cons (opens _ _ (Ne.symm apart)), ih free]

end

theorem ofLine?_eq_some_of_rules (before : List (Text → Option LineReading)) {tool : Tool}
    {after : List (Text → Option LineReading)} {rule : Text → Option LineReading} {line : Text} {reading : LineReading}
    (ordered : rules tool = before ++ rule :: after) (missed : ∀ other ∈ before, other line = none)
    (found : rule line = some reading) : ofLine? tool line = some reading := by
  unfold ofLine?
  rw [ordered, List.findSome?_append, List.findSome?_eq_none_iff.mpr missed, Option.none_or,
    List.findSome?_cons, found]

/-- A number that the rule reports as a line is a row of digits of the text. -/
def ReadsNumbers (rule : Text → Option LineReading) : Prop :=
  ∀ {text severity digits code message},
    rule text = some (.report severity (some digits) code message) →
      IsNumber digits ∧ digits <:+: text

private theorem suffix_of_capitalSeverity {text rest : Text} {severity : Severity}
    (read : capitalSeverity text = some (severity, rest)) : rest <:+ text := by
  unfold capitalSeverity at read
  split at read
  · next stem =>
      cases read
      exact Scan.sound_literal _ _ _ stem
  · obtain ⟨behind, stem, same⟩ := Option.map_eq_some_iff.mp read
    cases same
    exact Scan.sound_literal _ _ _ stem

private theorem readsNumbers_validatorReport : ReadsNumbers validatorReport := by
  intro text severity digits code message read
  unfold validatorReport at read
  obtain ⟨⟨_severity, rest⟩, severe, read⟩ := Option.bind_eq_some_iff.mp read
  obtain ⟨body, opened, read⟩ := Option.bind_eq_some_iff.mp read
  obtain ⟨⟨line, behind⟩, found, same⟩ := Option.bind_eq_some_iff.mp read
  cases same
  obtain ⟨place, later, read⟩ := exists_suffix_of_firstReading found
  obtain ⟨inner, colon, read⟩ := Option.bind_eq_some_iff.mp read
  obtain ⟨⟨number, tail⟩, numeral, read⟩ := Option.bind_eq_some_iff.mp read
  obtain ⟨last, _closed, same⟩ := Option.bind_eq_some_iff.mp read
  cases same
  obtain ⟨numbered, rfl, _outside⟩ := readDigits?_eq_some_iff.mp numeral
  refine ⟨numbered, (List.prefix_append digits tail).isInfix.trans (List.IsSuffix.isInfix ?_)⟩
  have sound := (Scan.sound_literal ":").andThen Scan.sound_blanks
  exact (Scan.sound_literal _ _ _ colon).trans
    (later.trans ((sound _ _ opened).trans (suffix_of_capitalSeverity severe)))

private theorem isNumber_of_parenthesizedLine {text line rest : Text}
    (read : parenthesizedLine text = some (line, rest)) : IsNumber line ∧ line <:+: text := by
  unfold parenthesizedLine at read
  obtain ⟨inner, opened, read⟩ := Option.bind_eq_some_iff.mp read
  obtain ⟨⟨number, tail⟩, numeral, read⟩ := Option.bind_eq_some_iff.mp read
  obtain ⟨last, _closed, same⟩ := Option.bind_eq_some_iff.mp read
  cases same
  obtain ⟨numbered, rfl, _outside⟩ := readDigits?_eq_some_iff.mp numeral
  exact ⟨numbered, (List.prefix_append line tail).isInfix.trans
    (Scan.sound_literal _ _ _ opened).isInfix⟩

private theorem readsNumbers_compilerReport : ReadsNumbers compilerReport := by
  intro text severity digits code message read
  obtain ⟨place, behind, read⟩ := exists_suffix_of_firstReading read
  obtain ⟨⟨line, rest⟩, placed, read⟩ := Option.bind_eq_some_iff.mp read
  obtain ⟨⟨⟨_severity, _code⟩, tail⟩, _graded, read⟩ := Option.bind_eq_some_iff.mp read
  obtain ⟨last, _closed, same⟩ := Option.bind_eq_some_iff.mp read
  cases same
  obtain ⟨numbered, inside⟩ := isNumber_of_parenthesizedLine placed
  exact ⟨numbered, inside.trans behind.isInfix⟩

private theorem ignored_of_validatorSummary {text : Text} {reading : LineReading}
    (read : validatorSummary text = some reading) : reading = .ignored := by
  obtain ⟨_found, same⟩ := Option.ite_none_right_eq_some.mp read
  exact (Option.some.inj same).symm

theorem ignored_of_compilerNote {text : Text} {reading : LineReading}
    (read : compilerNote text = some reading) : reading = .ignored := by
  obtain ⟨place, _behind, read⟩ := exists_suffix_of_firstReading read
  obtain ⟨⟨line, rest⟩, _placed, read⟩ := Option.bind_eq_some_iff.mp read
  obtain ⟨last, _noted, same⟩ := Option.bind_eq_some_iff.mp read
  exact (Option.some.inj same).symm

private theorem lineless_of_validatorRemark {text message : Text} {severity : Severity}
    {digits code : Option Text}
    (read : validatorRemark text = some (.report severity digits code message)) :
    digits = none := by
  obtain ⟨⟨_severity, rest⟩, _severe, read⟩ := Option.bind_eq_some_iff.mp read
  obtain ⟨last, _closed, same⟩ := Option.bind_eq_some_iff.mp read
  cases same
  rfl

private theorem lineless_of_compilerRemark {text message : Text} {severity : Severity}
    {digits code : Option Text}
    (read : compilerRemark text = some (.report severity digits code message)) :
    digits = none := by
  obtain ⟨⟨⟨_severity, _code⟩, rest⟩, _severe, read⟩ := Option.bind_eq_some_iff.mp read
  obtain ⟨last, _closed, same⟩ := Option.bind_eq_some_iff.mp read
  cases same
  rfl

/-- Every number that is reported as a line is a row of digits of the printed line. -/
theorem isNumber_of_report {tool : Tool} {line digits message : Text} {severity : Severity}
    {code : Option Text}
    (read : ofLine? tool line = some (.report severity (some digits) code message)) :
    IsNumber digits ∧ digits <:+: line := by
  cases tool with
  | spirvCross => cases lineless_of_converter read
  | glslang =>
      obtain ⟨rule, member, found⟩ := List.exists_of_findSome?_eq_some read
      simp only [rules, List.mem_cons, List.not_mem_nil, or_false] at member
      rcases member with rfl | rfl | rfl
      · cases ignored_of_validatorSummary found
      · exact readsNumbers_validatorReport found
      · cases lineless_of_validatorRemark found
  | slang =>
      obtain ⟨rule, member, found⟩ := List.exists_of_findSome?_eq_some read
      simp only [rules, List.mem_cons, List.not_mem_nil, or_false] at member
      rcases member with rfl | rfl | rfl
      · cases ignored_of_compilerNote found
      · exact readsNumbers_compilerReport found
      · cases lineless_of_compilerRemark found

end LineReading
end ShaderBridge
