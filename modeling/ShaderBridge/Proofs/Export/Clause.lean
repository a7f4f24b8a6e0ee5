import ShaderBridge.Proofs.Export.Assignment
import ShaderBridge.Proofs.Export.Color
set_option autoImplicit false

/-! The clauses of a node body: actions behind at most one `else` and one `if`. The search for the last
write takes a clause for an assignment of the output when no condition stands in front of it, and an
`else` in front of it for one more word of its type (`Clause.handedOn_text`). -/

namespace ShaderBridge
namespace Export

open Code
open Text (Blank)

structure Condition where
  gap : Blanks
  words : Text
  margin : Blanks
  closed : closer? ('(' :: (words ++ [')'])) = some (words.length + 1)

def Condition.text (condition : Condition) : Text :=
  "if" ++ (condition.gap.1 ++ '(' :: (condition.words ++ ')' :: condition.margin.1))

/-- An assignment of a variable, or a declaration with a value. What follows the value is the rest of
a list: the other variables that a declaration declares. -/
structure Assignment where
  target : Target
  value : Text
  more : Text
  filled : ¬ Blank value
  single : value.head? ≠ some '='
  whole : splitCommasFrom 0 [] value = [value]
  listed : ∀ char ∈ more.head?, char = ','

def Assignment.text (assignment : Assignment) : Text :=
  assignment.target.text ++ '=' :: (assignment.value ++ assignment.more)

inductive Action where
  /-- A whole variable gets a value. -/
  | sets (assignment : Assignment)
  /-- Any other action, such as an assignment of a component, a compound assignment or a declaration
  without a value. -/
  | other (text : Text)
      (apart : ∀ (target : Target) (value : Text), text = target.text ++ '=' :: value →
        value.head? = some '=')
      (dark : text.head?.any isBlank = false)

def Action.text : Action → Text
  | sets assignment => assignment.text
  | other text _ _ => text

def keywords : List Text := ["if", "else", "return"]

/-- A statement of a body: an action, behind `else`, behind `if` or behind both. -/
structure Clause where
  /-- The white space behind `else`. -/
  otherwise : Option Gap
  condition : Option Condition
  action : Action
  plain : action.text.takeWhile isWord ∉ keywords

def Clause.guard (clause : Clause) : Text :=
  clause.otherwise.elim [] (fun gap => ("else" : Text) ++ gap.1) ++
    clause.condition.elim [] Condition.text

def Clause.text (clause : Clause) : Text := clause.guard ++ (clause.action.text ++ [';'])

/-- The target of an assignment as the search for the last write sees it: an `else` in front of it is
one more word of the type. -/
def Clause.seen (clause : Clause) (assignment : Assignment) : Target :=
  match clause.otherwise with
  | none => assignment.target
  | some gap => assignment.target.behind ⟨"else", by decide⟩ gap

/-- The value that the search for the last write finds in a clause. -/
def Clause.offered (clause : Clause) : Option Text :=
  match clause.condition, clause.action with
  | none, .sets assignment =>
    let value := assignment.value ++ assignment.more
    if (clause.seen assignment).Short ∧ outputNames.contains assignment.target.name ∧
        !outputNames.contains value.trim then some value else none
  | _, _ => none

theorem Clause.text_of_sets {clause : Clause} {assignment : Assignment}
    (free : clause.condition = none) (sets : clause.action = .sets assignment) :
    clause.text = (clause.seen assignment).text ++
      '=' :: (assignment.value ++ assignment.more ++ [';']) := by
  unfold Clause.text Clause.guard Clause.seen
  rw [free, sets]
  cases clause.otherwise with
  | none => simp [Action.text, Assignment.text]
  | some gap => simp [Action.text, Assignment.text, Target.behind]

theorem Clause.name_seen (clause : Clause) (assignment : Assignment) :
    (clause.seen assignment).name = assignment.target.name := by
  unfold Clause.seen
  cases clause.otherwise <;> rfl

private theorem not_append_mark {first other : Char} (apart : first ≠ other)
    {front back rest more : Text} (left : other ∉ front) (right : first ∉ back) :
    front ++ first :: rest ≠ back ++ other :: more := by
  intro same
  rcases List.append_eq_append_iff.mp same with ⟨stretch, rfl, behind⟩ | ⟨stretch, rfl, behind⟩
  · cases stretch with
    | nil => exact apart (List.cons.inj behind).1
    | cons char stretch =>
        obtain ⟨rfl, _rest⟩ := List.cons.inj behind
        exact right (List.mem_append_right _ List.mem_cons_self)
  · cases stretch with
    | nil => exact apart (List.cons.inj behind).1.symm
    | cons char stretch =>
        obtain ⟨rfl, _rest⟩ := List.cons.inj behind
        exact left (List.mem_append_right _ List.mem_cons_self)

private theorem Clause.text_ne_of_condition {clause : Clause} {condition : Condition}
    (guarded : clause.condition = some condition) (target : Target) (value : Text) :
    clause.text ≠ target.text ++ '=' :: value := by
  have free : '(' ∉ target.text := target.mark_not_mem (by decide) (by decide)
  have blank : ∀ {blanks : Text}, Blank blanks → '=' ∉ blanks := fun white member =>
    absurd (white '=' member) (by decide)
  obtain ⟨front, rest, same, apart⟩ : ∃ front rest, clause.text = front ++ '(' :: rest ∧
      '=' ∉ front := by
    unfold Clause.text Clause.guard Condition.text
    rw [guarded]
    cases clause.otherwise with
    | none =>
        refine ⟨"if" ++ condition.gap.1, _, by simp; rfl, ?_⟩
        exact List.not_mem_append (by decide) (blank condition.gap.2)
    | some gap =>
        refine ⟨("else" ++ gap.1) ++ ("if" ++ condition.gap.1), _, by simp; rfl, ?_⟩
        exact List.not_mem_append (List.not_mem_append (by decide) (blank gap.2.2))
          (List.not_mem_append (by decide) (blank condition.gap.2))
  rw [same]
  exact not_append_mark (by decide) apart free

private theorem eq_of_blank_append {first second left right : Text} (blank : Blank first)
    (white : Blank second) (begins : left.head?.any isBlank = false)
    (starts : right.head?.any isBlank = false) (same : first ++ left = second ++ right) :
    left = right := by
  have cut : Scan.blanks (second ++ right) = some left :=
    Scan.zeroOrMore_eq_some_iff.mpr ⟨first, blank, same.symm, begins⟩
  have other : Scan.blanks (second ++ right) = some right :=
    Scan.zeroOrMore_eq_some_iff.mpr ⟨second, white, rfl, starts⟩
  exact Option.some.inj (cut.symm.trans other)

private theorem exists_target_behind_else {target : Target} (known : target.name ∈ outputNames)
    (gap : Gap) {text value : Text} (dark : text.head?.any isBlank = false)
    (same : "else" ++ (gap.1 ++ text) = target.text ++ '=' :: value) :
    ∃ inner : Target, text = inner.text ++ '=' :: value := by
  have one : Text.IsOneWord "else" := ⟨by decide, by decide⟩
  have white := Text.startsWord_blank_append gap.2.1 gap.2.2 text
  cases type : target.type with
  | nil =>
      obtain ⟨blanks, blank, split⟩ := target.exists_plain type
      rw [split, List.append_assoc] at same
      have sign : Text.startsWord (blanks ++ '=' :: value) = false :=
        Text.startsWord_append_of_not blank.startsWord rfl
      obtain ⟨word, _rest⟩ := Text.oneWord_append_inj one (oneWord_of_outputName known) white sign same
      exact absurd (word ▸ known) (by decide)
  | cons word others =>
      obtain ⟨space, inner, split, _type, _name⟩ := target.exists_behind type
      have identifier := target.named word (type ▸ List.mem_cons_self)
      rw [split, List.append_assoc, List.append_assoc] at same
      obtain ⟨_word, rest⟩ := Text.oneWord_append_inj one (isIdentifier_iff.mp identifier).1 white
        (Text.startsWord_blank_append space.2.1 space.2.2 _) same
      refine ⟨inner, eq_of_blank_append gap.2.2 space.2.2 dark ?_ rest⟩
      cases first : inner.text with
      | nil => rfl
      | cons char more =>
          have begins := inner.dark
          rw [first] at begins
          exact begins

theorem Clause.assignedOutput_text {clause : Clause} {value : Text} :
    assignedOutput clause.text = some value ↔
      ∃ assignment, clause.condition = none ∧ clause.action = .sets assignment ∧
        (clause.seen assignment).Short ∧ assignment.target.name ∈ outputNames ∧
          value = assignment.value ++ assignment.more := by
  rw [assignedOutput_eq_some_iff]
  constructor
  · rintro ⟨target, short, known, filled, other, same⟩
    cases guarded : clause.condition with
    | some condition => exact absurd same (clause.text_ne_of_condition guarded target _)
    | none =>
        cases acts : clause.action with
        | sets assignment =>
            rw [Clause.text_of_sets guarded acts] at same
            obtain ⟨text, behind⟩ := Target.eq_of_append same
            obtain ⟨type, name⟩ := Target.words_eq_of_text_eq text
            refine ⟨assignment, rfl, rfl, ?_, ?_, (List.append_cancel_right behind).symm⟩
            · unfold Target.Short at short ⊢
              rwa [type]
            · rwa [← clause.name_seen assignment, name]
        | other text apart dark =>
            have begins : (text ++ [';']).head?.any isBlank = false := by
              cases text with
              | nil => rfl
              | cons char text => exact dark
            obtain ⟨inner, split⟩ : ∃ inner : Target,
                text ++ [';'] = inner.text ++ '=' :: (value ++ [';']) := by
              unfold Clause.text Clause.guard at same
              rw [guarded, acts] at same
              cases waits : clause.otherwise with
              | none => exact ⟨target, by simpa [waits, Action.text] using same⟩
              | some gap =>
                  refine exists_target_behind_else known gap begins ?_
                  simpa [waits, Action.text] using same
            have whole : text = inner.text ++ '=' :: value := by
              refine List.append_cancel_right (split.trans ?_)
              simp
            exact absurd (apart inner value whole) other
  · rintro ⟨assignment, guarded, acts, short, known, rfl⟩
    have filled : assignment.value ≠ [] := by
      intro empty
      exact assignment.filled (empty ▸ nofun)
    refine ⟨clause.seen assignment, short, (clause.name_seen assignment) ▸ known, ?_, ?_, ?_⟩
    · exact List.append_ne_nil_of_left_ne_nil filled _
    · rw [List.head?_append_of_ne_nil _ filled]
      exact assignment.single
    · exact Clause.text_of_sets guarded acts

private theorem takeWhile_append_of_apart (text : Text) {rest : Text}
    (apart : Text.startsWord rest = false) :
    (text ++ rest).takeWhile isWord = text.takeWhile isWord := by
  have ended : rest.takeWhile isWord = [] := by
    cases rest with
    | nil => rfl
    | cons char rest => exact List.takeWhile_cons_of_neg (Bool.eq_false_iff.mp apart)
  rw [List.takeWhile_append]
  split
  · next long => rw [ended, List.append_nil, (List.takeWhile_prefix isWord).eq_of_length long]
  · rfl

private theorem takeWhile_word_append {word rest : Text} (letters : ∀ char ∈ word, isWord char = true)
    (apart : Text.startsWord rest = false) : (word ++ rest).takeWhile isWord = word :=
  (takeWhile_append_of_apart word apart).trans (List.takeWhile_eq_self_iff.mpr letters)

/-- An action begins with no keyword, and a guard not with `return`. -/
theorem Clause.lead_text_ne (clause : Clause) : clause.text.takeWhile isWord ≠ "return".toList := by
  unfold Clause.text Clause.guard
  cases clause.otherwise with
  | some gap =>
      have split : ∀ rest : Text, ("else" : Text) ++ gap.1 ++ rest = "else" ++ (gap.1 ++ rest) :=
        fun rest => List.append_assoc _ _ _
      rw [Option.elim_some, List.append_assoc, split, takeWhile_word_append (by decide)
        (Text.startsWord_blank_append gap.2.1 gap.2.2 _)]
      decide
  | none =>
      cases clause.condition with
      | some condition =>
          unfold Condition.text
          rw [Option.elim_none, Option.elim_some, List.nil_append, List.append_assoc,
            takeWhile_word_append (by decide)]
          · decide
          · rw [List.append_assoc]
            exact Text.startsWord_append_of_not condition.gap.2.startsWord rfl
      | none =>
          intro same
          have cut : (clause.action.text ++ [';']).takeWhile isWord =
              clause.action.text.takeWhile isWord := takeWhile_append_of_apart _ rfl
          refine clause.plain ?_
          rw [← cut]
          exact (same : (clause.action.text ++ [';']).takeWhile isWord = _) ▸ by decide

theorem Clause.returnedValue_text (clause : Clause) : returnedValue clause.text = none := by
  refine Option.eq_none_iff_forall_ne_some.mpr fun value found => ?_
  obtain ⟨behind, read, later⟩ := Option.bind_eq_some_iff.mp found
  refine clause.lead_text_ne ?_
  rw [Scan.literal_eq_some_iff.mp read]
  refine takeWhile_word_append (by decide) ?_
  cases behind with
  | nil => rfl
  | cons char behind =>
      by_cases white : isBlank char = true
      · exact isWord_of_isBlank white
      · simp [white] at later

private theorem not_contains_iff {names : List Text} {name : Text} :
    (!names.contains name) = true ↔ name ∉ names := by
  rw [Bool.not_eq_true', ← Bool.not_eq_true, List.contains_iff_mem]

theorem Clause.offered_eq_some_iff {clause : Clause} {value : Text} :
    clause.offered = some value ↔
      ∃ assignment, clause.condition = none ∧ clause.action = .sets assignment ∧
        (clause.seen assignment).Short ∧ assignment.target.name ∈ outputNames ∧
          value = assignment.value ++ assignment.more ∧ value.trim ∉ outputNames := by
  unfold Clause.offered
  constructor
  · intro found
    split at found
    · next assignment guarded acts =>
        obtain ⟨⟨short, known, fresh⟩, same⟩ := Option.ite_none_right_eq_some.mp found
        obtain rfl := Option.some.inj same
        exact ⟨assignment, guarded, acts, short, List.contains_iff_mem.mp known, rfl,
          not_contains_iff.mp fresh⟩
    · cases found
  · rintro ⟨assignment, guarded, acts, short, known, rfl, fresh⟩
    rw [guarded, acts]
    exact if_pos ⟨short, List.contains_iff_mem.mpr known, not_contains_iff.mpr fresh⟩

/-- The search for the last write finds in a clause what it is seen to assign. -/
theorem Clause.handedOn_text (clause : Clause) : handedOn clause.text = clause.offered := by
  refine Option.ext fun value => ?_
  have alone : ((assignedOutput clause.text).orElse fun _ => returnedValue clause.text) =
      assignedOutput clause.text := by
    rw [clause.returnedValue_text]
    cases assignedOutput clause.text <;> rfl
  rw [handedOn, alone, Option.filter_eq_some_iff, Clause.assignedOutput_text,
    Clause.offered_eq_some_iff, not_contains_iff]
  constructor
  · rintro ⟨⟨assignment, guarded, acts, short, known, same⟩, other⟩
    exact ⟨assignment, guarded, acts, short, known, same, other⟩
  · rintro ⟨assignment, guarded, acts, short, known, same, other⟩
    exact ⟨⟨assignment, guarded, acts, short, known, same⟩, other⟩

end Export
end ShaderBridge
