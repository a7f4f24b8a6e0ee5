import ShaderBridge.Proofs.Code.Comment
set_option autoImplicit false

/-! The statements of a text take it apart without loss: their spans are filled, follow one another
and begin with code, and what lies outside them is white space or a comment (`statements_segment`).
The text need not be balanced. -/

namespace ShaderBridge
namespace Code

/-- The character at an offset lies in a comment. -/
def InComment (text : Text) (offset : Nat) : Prop := (commented text)[offset]? = some true

/-- At an offset stands a character that is neither white space nor in a comment. -/
def CodeAt (text : Text) (offset : Nat) : Prop :=
  ∃ char, text[offset]? = some char ∧ isBlank char = false ∧ ¬ InComment text offset

section
variable {stretch rest : Text} (found : comment (stretch ++ rest) = some rest)
  (filled : stretch ≠ [])

include found filled

theorem inComment_of_lt {offset : Nat} (inside : offset < stretch.length) :
    InComment (stretch ++ rest) offset := by
  have within : offset < (List.replicate stretch.length true).length := by
    rwa [List.length_replicate]
  unfold InComment
  rw [commented_comment found filled, List.getElem?_append_left within,
    List.getElem?_eq_getElem within, List.getElem_replicate]

theorem inComment_comment (offset : Nat) :
    InComment (stretch ++ rest) (stretch.length + offset) ↔ InComment rest offset := by
  unfold InComment
  rw [commented_comment found filled, List.getElem?_append_right (by simp), List.length_replicate,
    Nat.add_sub_cancel_left]

theorem codeAt_comment (offset : Nat) :
    CodeAt (stretch ++ rest) (stretch.length + offset) ↔ CodeAt rest offset := by
  unfold CodeAt
  rw [inComment_comment found filled, List.getElem?_append_right (Nat.le_add_right _ _),
    Nat.add_sub_cancel_left]

end

section
variable {char : Char} {text : Text} (none : comment (char :: text) = none)

include none

theorem not_inComment_zero : ¬ InComment (char :: text) 0 := by
  unfold InComment
  rw [commented_code none]
  exact nofun

theorem inComment_succ (offset : Nat) :
    InComment (char :: text) (offset + 1) ↔ InComment text offset := by
  unfold InComment
  rw [commented_code none, List.getElem?_cons_succ]

theorem codeAt_succ (offset : Nat) : CodeAt (char :: text) (offset + 1) ↔ CodeAt text offset := by
  unfold CodeAt
  rw [inComment_succ none, List.getElem?_cons_succ]

theorem codeAt_zero (dark : isBlank char = false) : CodeAt (char :: text) 0 :=
  ⟨char, rfl, dark, not_inComment_zero none⟩

end

section
variable {depth : Int} {current : Option OpenStatement} {offset : Nat} {text : Text}
  {statements : List Statement}

theorem OpenStatement.start_grown (current : Option OpenStatement) (offset : Nat) (char : Char) :
    (∃ begun ∈ current, ((current.getD ⟨offset, []⟩).push char).start = begun.start) ∨
      current = none ∧ ((current.getD ⟨offset, []⟩).push char).start = offset := by
  cases current with
  | none => exact .inr ⟨rfl, rfl⟩
  | some begun => exact .inl ⟨begun, rfl, rfl⟩

theorem OpenStatement.start_grown_le (early : ∀ begun ∈ current, begun.start ≤ offset) (char : Char) :
    ((current.getD ⟨offset, []⟩).push char).start ≤ offset := by
  rcases start_grown current offset char with ⟨begun, opened, start⟩ | ⟨_unbegun, start⟩
  · exact start ▸ early begun opened
  · exact Nat.le_of_eq start

theorem Divided.stop_bounds (divided : Divided depth current offset text statements) :
    ∀ statement ∈ statements,
      offset ≤ statement.stop ∧ statement.stop ≤ offset + text.length := by
  induction divided with
  | done => exact nofun
  | last => exact List.forall_mem_singleton.mpr ⟨Nat.le_refl _, Nat.le_refl _⟩
  | comment _found _filled _divided ih =>
      intro statement member
      have bounds := ih statement member
      rw [List.length_append]
      omega
  | blank _white _divided ih =>
      intro statement member
      have bounds := ih statement member
      rw [List.length_cons]
      omega
  | ended _none _dark _ends _divided ih =>
      refine List.forall_mem_cons.mpr ⟨⟨Nat.le_succ _, ?_⟩, fun statement member => ?_⟩
      · exact Nat.add_le_add_left (Nat.succ_le_succ (Nat.zero_le _)) _
      · have bounds := ih statement member
        rw [List.length_cons]
        omega
  | grown _none _dark _goesOn _divided ih =>
      intro statement member
      have bounds := ih statement member
      rw [List.length_cons]
      omega

/-- A statement starts where the one begun does, or with code behind what was read. -/
theorem Divided.start_cases (divided : Divided depth current offset text statements) :
    ∀ statement ∈ statements, (∃ begun ∈ current, statement.start = begun.start) ∨
      ∃ inner, statement.start = offset + inner ∧ statement.start < statement.stop ∧
        CodeAt text inner := by
  induction divided with
  | done => exact nofun
  | @last _depth begun _offset => exact List.forall_mem_singleton.mpr (.inl ⟨begun, rfl, rfl⟩)
  | @comment _depth current offset stretch rest _statements found filled _divided ih =>
      intro statement member
      rcases ih statement member with ⟨begun, opened, start⟩ | ⟨inner, start, some, code⟩
      · obtain ⟨source, held, rfl⟩ := Option.map_eq_some_iff.mp opened
        exact .inl ⟨source, held, start.trans (source.start_pushAll stretch)⟩
      · refine .inr ⟨stretch.length + inner, by omega, some, ?_⟩
        exact (codeAt_comment found filled inner).mpr code
  | @blank _depth offset char text _statements white _divided ih =>
      intro statement member
      rcases ih statement member with ⟨_begun, opened, _start⟩ | ⟨inner, start, some, code⟩
      · cases opened
      · refine .inr ⟨inner + 1, by omega, some, ?_⟩
        exact (codeAt_succ (comment_of_blank white text) inner).mpr code
  | @ended depth current offset char text _statements none dark _ends _divided ih =>
      refine List.forall_mem_cons.mpr ⟨?_, fun statement member => ?_⟩
      · rcases OpenStatement.start_grown current offset char with begun | ⟨unbegun, start⟩
        · exact .inl begun
        · exact .inr ⟨0, start, Nat.lt_succ_of_le (Nat.le_of_eq start), codeAt_zero none (dark unbegun)⟩
      · rcases ih statement member with ⟨_begun, opened, _start⟩ | ⟨inner, start, some, code⟩
        · cases opened
        · exact .inr ⟨inner + 1, by omega, some, (codeAt_succ none inner).mpr code⟩
  | @grown depth current offset char text _statements none dark _goesOn divided ih =>
      intro statement member
      rcases ih statement member with ⟨begun, opened, first⟩ | ⟨inner, start, some, code⟩
      · obtain rfl := Option.some.inj opened
        rcases OpenStatement.start_grown current offset char with
          ⟨begun, held, start⟩ | ⟨unbegun, start⟩
        · exact .inl ⟨begun, held, first.trans start⟩
        · have behind := (divided.stop_bounds statement member).1
          exact .inr ⟨0, first.trans start, by omega, codeAt_zero none (dark unbegun)⟩
      · exact .inr ⟨inner + 1, by omega, some, (codeAt_succ none inner).mpr code⟩

theorem Divided.exists_start (divided : Divided depth current offset text statements) :
    ∀ begun ∈ current, ∃ statement ∈ statements, statement.start = begun.start := by
  induction divided with
  | done => exact nofun
  | last =>
      intro begun opened
      obtain rfl := Option.some.inj opened
      exact ⟨_, List.mem_singleton_self _, rfl⟩
  | comment _found _filled _divided ih =>
      rintro begun rfl
      obtain ⟨statement, member, start⟩ := ih _ rfl
      exact ⟨statement, member, start.trans (begun.start_pushAll _)⟩
  | blank _white _divided _ih => exact nofun
  | ended _none _dark _ends _divided _ih =>
      rintro begun rfl
      exact ⟨_, List.mem_cons_self, rfl⟩
  | grown _none _dark _goesOn _divided ih =>
      rintro begun rfl
      obtain ⟨statement, member, start⟩ := ih _ rfl
      exact ⟨statement, member, start⟩

/-- A character is white space, lies in a comment or lies in a statement. -/
theorem Divided.covers (divided : Divided depth current offset text statements)
    (early : ∀ begun ∈ current, begun.start ≤ offset) {inner : Nat} {char : Char}
    (stands : text[inner]? = some char) :
    isBlank char = true ∨ InComment text inner ∨
      ∃ statement ∈ statements, statement.start ≤ offset + inner ∧ offset + inner < statement.stop := by
  induction divided generalizing inner with
  | done => cases stands
  | last => cases stands
  | @comment _depth current offset stretch rest _statements found filled _divided ih =>
      by_cases inside : inner < stretch.length
      · exact .inr (.inl (inComment_of_lt found filled inside))
      · obtain ⟨behind, rfl⟩ := Nat.exists_eq_add_of_le (Nat.le_of_not_lt inside)
        rw [List.getElem?_append_right (Nat.le_add_right _ _), Nat.add_sub_cancel_left] at stands
        rw [inComment_comment found filled, ← Nat.add_assoc]
        refine ih ?_ stands
        intro begun opened
        obtain ⟨source, held, rfl⟩ := Option.map_eq_some_iff.mp opened
        rw [source.start_pushAll]
        exact Nat.le_add_right_of_le (early source held)
  | blank white _divided ih =>
      cases inner with
      | zero =>
          obtain rfl := Option.some.inj stands
          exact .inl white
      | succ inner =>
          rw [inComment_succ (comment_of_blank white _), Nat.add_comm inner, ← Nat.add_assoc]
          exact ih nofun stands
  | @ended _depth _current _offset first _text _statements none _dark _ends _divided ih =>
      have begins := OpenStatement.start_grown_le early first
      cases inner with
      | zero => exact .inr (.inr ⟨_, List.mem_cons_self, begins, Nat.lt_succ_self _⟩)
      | succ inner =>
          rw [inComment_succ none, Nat.add_comm inner, ← Nat.add_assoc]
          refine (ih nofun stands).imp id (Or.imp id ?_)
          rintro ⟨statement, member, covered⟩
          exact ⟨statement, List.mem_cons_of_mem _ member, covered⟩
  | @grown _depth _current _offset first _text _statements none _dark _goesOn divided ih =>
      have begins := OpenStatement.start_grown_le early first
      cases inner with
      | zero =>
          obtain ⟨statement, member, start⟩ := divided.exists_start _ rfl
          have behind := (divided.stop_bounds statement member).1
          exact .inr (.inr ⟨statement, member, start ▸ begins, behind⟩)
      | succ inner =>
          rw [inComment_succ none, Nat.add_comm inner, ← Nat.add_assoc]
          refine ih ?_ stands
          intro begun opened
          obtain rfl := Option.some.inj opened
          exact Nat.le_succ_of_le begins

theorem Divided.apart (divided : Divided depth current offset text statements) :
    statements.Pairwise fun first second => first.stop ≤ second.start := by
  induction divided with
  | done => exact .nil
  | last => exact List.pairwise_singleton _ _
  | comment _found _filled _divided ih => exact ih
  | blank _white _divided ih => exact ih
  | ended _none _dark _ends divided ih =>
      refine List.pairwise_cons.mpr ⟨fun statement member => ?_, ih⟩
      rcases divided.start_cases statement member with ⟨_begun, opened, _start⟩ | ⟨inner, start, _code⟩
      · cases opened
      · exact start ▸ Nat.le_add_right _ inner
  | grown _none _dark _goesOn _divided ih => exact ih

end

/-- The statements of a text, balanced or not, take it apart without loss. -/
theorem statements_segment (body : Text) :
    (∀ statement ∈ statements body, statement.start < statement.stop ∧
      statement.stop ≤ body.length ∧ CodeAt body statement.start) ∧
    ((statements body).Pairwise fun first second => first.stop ≤ second.start) ∧
    ∀ offset char, body[offset]? = some char →
      (∀ statement ∈ statements body, ¬ (statement.start ≤ offset ∧ offset < statement.stop)) →
        isBlank char = true ∨ InComment body offset := by
  have divided := divided_statements body
  refine ⟨fun statement member => ?_, divided.apart, fun offset char stands outside => ?_⟩
  · have within := (divided.stop_bounds statement member).2
    rcases divided.start_cases statement member with ⟨_begun, opened, _start⟩ | ⟨inner, start, some, code⟩
    · cases opened
    · rw [Nat.zero_add] at within start
      exact ⟨some, within, start ▸ code⟩
  · rcases divided.covers nofun stands with white | comment | ⟨statement, member, covered⟩
    · exact .inl white
    · exact .inr comment
    · rw [Nat.zero_add] at covered
      exact absurd covered (outside statement member)

/-- A brace that closes nothing leaves the depth below zero, and all that follows is one statement. -/
example : (statements "a; /* b; */ \x7d c; // d".toList).map (fun statement =>
    (statement.start, statement.stop)) = [(0, 2), (12, 21)] := by decide

end Code
end ShaderBridge
