import ShaderBridge.Code.Statement
import ShaderBridge.Proofs.Text.Pieces
set_option autoImplicit false

/-! Where the statements of a body lie in it. Each statement is a stretch of the body without its
comments (`spans_of_mem_statements`), and a later one does not end before an earlier one
(`statements_ordered`). -/

namespace ShaderBridge
namespace Code

def Statement.Spans (statement : Statement) (whole : Text) : Prop :=
  ∃ front raw rest, whole = front ++ raw ++ rest ∧ statement.start = front.length ∧
    statement.stop = front.length + raw.length ∧ statement.text = (stripComments raw).trim

/-- The characters of the statement so far stand at the end of what was read. -/
def OpenStatement.Begun (current : OpenStatement) (done : Text) : Prop :=
  ∃ front, done = front ++ current.reversed.reverse ∧ current.start = front.length

namespace OpenStatement

theorem begun_fresh (done : Text) : Begun ⟨done.length, []⟩ done :=
  ⟨done, (List.append_nil done).symm, rfl⟩

theorem Begun.push {current : OpenStatement} {done : Text} (begun : current.Begun done)
    (char : Char) : (current.push char).Begun (done ++ [char]) := by
  obtain ⟨front, same, start⟩ := begun
  refine ⟨front, ?_, start⟩
  rw [same, List.append_assoc]
  exact congrArg (front ++ ·) List.reverse_cons.symm

theorem Begun.close {current : OpenStatement} {done : Text} (begun : current.Begun done)
    (rest : Text) : (current.close done.length).Spans (done ++ rest) := by
  obtain ⟨front, same, start⟩ := begun
  refine ⟨front, current.reversed.reverse, rest, ?_, start, ?_, rfl⟩
  · rw [same]
  · change done.length = _
    rw [same, List.length_append]

end OpenStatement

private theorem statementsFrom_cons (skip : Nat) (depth : Int) (current : Option OpenStatement)
    (offset : Nat) (char : Char) (text : Text) :
    let grown := (current.getD ⟨offset, []⟩).push char
    ∃ further deep,
      statementsFrom skip depth current offset (char :: text) =
          statementsFrom further deep (current.map (·.push char)) (offset + 1) text ∨
        statementsFrom skip depth current offset (char :: text) =
          statementsFrom further deep (some grown) (offset + 1) text ∨
        statementsFrom skip depth current offset (char :: text) =
          grown.close (offset + 1) :: statementsFrom further deep none (offset + 1) text := by
  cases skip with
  | succ skip =>
      cases current with
      | none => exact ⟨skip, depth, .inl rfl⟩
      | some current => exact ⟨skip, depth, .inl rfl⟩
  | zero =>
      rw [statementsFrom]
      split
      · next more _length => exact ⟨more, depth, .inl rfl⟩
      · split
        · next idle =>
            have none : current = none :=
              Option.isNone_iff_eq_none.mp (Bool.and_eq_true_iff.mp idle).1
            refine ⟨0, depth, .inl ?_⟩
            rw [none]
            rfl
        · simp only
          split
          · exact ⟨0, depthAfter char depth, .inr (.inr rfl)⟩
          · exact ⟨0, depthAfter char depth, .inr (.inl rfl)⟩

private theorem statementsFrom_nil (skip : Nat) (depth : Int) (current : Option OpenStatement)
    (offset : Nat) :
    statementsFrom skip depth current offset [] = [] ∨ ∃ last ∈ current,
      statementsFrom skip depth current offset [] = [last.close offset] := by
  cases current with
  | none => cases skip <;> exact .inl rfl
  | some last =>
      have same : statementsFrom skip depth (some last) offset [] =
          if (last.close offset).text.isEmpty then [] else [last.close offset] := by
        cases skip <;> rfl
      rw [same]
      split
      · exact .inl rfl
      · exact .inr ⟨last, rfl, rfl⟩

private theorem spans_of_mem_statementsFrom {skip : Nat} {depth : Int}
    {current : Option OpenStatement} {done text : Text} (begun : ∀ last ∈ current, last.Begun done)
    {statement : Statement}
    (member : statement ∈ statementsFrom skip depth current done.length text) :
    statement.Spans (done ++ text) := by
  induction text generalizing skip depth current done with
  | nil =>
      rcases statementsFrom_nil skip depth current done.length with none | ⟨last, open_, same⟩
      · rw [none] at member
        cases member
      · rw [same] at member
        rw [List.mem_singleton.mp member]
        exact (begun last open_).close []
  | cons char text ih =>
      have grown : ((current.getD ⟨done.length, []⟩).push char).Begun (done ++ [char]) := by
        apply OpenStatement.Begun.push
        cases current with
        | none => exact OpenStatement.begun_fresh done
        | some last => exact begun last rfl
      have later : ∀ {further : Nat} {deep : Int} {next : Option OpenStatement},
          (∀ last ∈ next, last.Begun (done ++ [char])) →
            statement ∈ statementsFrom further deep next (done.length + 1) text →
              statement.Spans (done ++ char :: text) := by
        intro further deep next opened inside
        have long : (done ++ [char]).length = done.length + 1 := List.length_append
        rw [← long] at inside
        have spans := ih opened inside
        rwa [List.append_assoc, List.singleton_append] at spans
      obtain ⟨further, deep, on | begins | ends⟩ :=
        statementsFrom_cons skip depth current done.length char text
      · rw [on] at member
        refine later ?_ member
        intro last opened
        obtain ⟨source, open_, same⟩ := Option.map_eq_some_iff.mp opened
        rw [← same]
        exact (begun source open_).push char
      · rw [begins] at member
        refine later ?_ member
        intro last opened
        cases opened
        exact grown
      · rw [ends] at member
        rcases List.mem_cons.mp member with here | behind
        · have closed := grown.close text
          rw [List.length_append, List.append_assoc] at closed
          rw [here]
          exact closed
        · refine later ?_ behind
          intro last impossible
          cases impossible

private theorem statementsFrom_ordered (skip : Nat) (depth : Int) (current : Option OpenStatement)
    (offset : Nat) (text : Text) :
    (statementsFrom skip depth current offset text).Pairwise (fun first second =>
      first.stop ≤ second.stop) ∧
    ∀ statement ∈ statementsFrom skip depth current offset text, offset ≤ statement.stop := by
  induction text generalizing skip depth current offset with
  | nil =>
      rcases statementsFrom_nil skip depth current offset with none | ⟨last, _open, same⟩
      · rw [none]
        exact ⟨.nil, nofun⟩
      · rw [same]
        exact ⟨List.pairwise_singleton _ _, List.forall_mem_singleton.mpr (Nat.le_refl _)⟩
  | cons char text ih =>
      have later : ∀ {further : Nat} {deep : Int} {next : Option OpenStatement},
          ∀ statement ∈ statementsFrom further deep next (offset + 1) text,
            offset ≤ statement.stop := by
        intro further deep next statement member
        exact Nat.le_of_succ_le ((ih further deep next (offset + 1)).2 statement member)
      obtain ⟨further, deep, on | begins | ends⟩ :=
        statementsFrom_cons skip depth current offset char text
      · rw [on]
        exact ⟨(ih _ _ _ _).1, later⟩
      · rw [begins]
        exact ⟨(ih _ _ _ _).1, later⟩
      · rw [ends]
        obtain ⟨ordered, behind⟩ := ih further deep none (offset + 1)
        exact ⟨List.pairwise_cons.mpr ⟨behind, ordered⟩,
          List.forall_mem_cons.mpr ⟨Nat.le_succ offset, later⟩⟩

theorem spans_of_mem_statements {body : Text} {statement : Statement}
    (member : statement ∈ statements body) : statement.Spans body := by
  have begun : ∀ last ∈ (none : Option OpenStatement), last.Begun [] := by
    intro last impossible
    cases impossible
  exact spans_of_mem_statementsFrom begun member

theorem statements_ordered (body : Text) :
    (statements body).Pairwise fun first second => first.stop ≤ second.stop :=
  (statementsFrom_ordered 0 0 none 0 body).1

theorem count_stripComments_le (char : Char) (text : Text) :
    (stripComments text).count char ≤ text.count char :=
  (Pattern.count_remove_le _ _ _).trans (Pattern.count_remove_le _ _ _)

end Code
end ShaderBridge
