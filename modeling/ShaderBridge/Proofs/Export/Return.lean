import ShaderBridge.Export.Return
import ShaderBridge.Proofs.Code.Statement
import ShaderBridge.Proofs.Code.VectorCall
set_option autoImplicit false

/-! Marks in a node body that returns its color. The last write of the output is cut out and its value
put back behind a return, so marks other than those of the return itself only get fewer
(`count_writeAsReturn_le`). -/

namespace ShaderBridge
namespace Export

open Code

theorem readsWord_outputName :
    outputName.ReadsWord ∧ ∀ word, outputName.accepts word = true ↔ word ∈ outputNames := by
  have each : ∀ name ∈ outputNames, name ≠ [] ∧ name.all isWord = true := by decide
  exact Scan.readsWord_oneOf fun name member =>
    ⟨(each name member).1, List.all_eq_true.mp (each name member).2⟩

theorem isWord_of_mem_writtenName {writeOuts : List Statement} {char : Char}
    (member : char ∈ writtenName writeOuts) : isWord char = true := by
  unfold writtenName at member
  simp only at member
  cases found : writeOuts.findSome? fun statement =>
      (outputName.atWordStart.occurrences statement.text).getLast? with
  | none =>
      rw [found] at member
      exact (by decide : ∀ char ∈ outputVariable, isWord char = true) char member
  | some name =>
      rw [found] at member
      obtain ⟨statement, _known, last⟩ := List.exists_of_findSome?_eq_some found
      have occurs := List.mem_of_getLast? last
      rw [occurrences_of_readsWord readsWord_outputName.1, List.mem_filter] at occurs
      exact (Text.oneWord_of_mem_words occurs.1).2 char member

theorem beforeSemicolon_eq_some {text value : Text} (found : beforeSemicolon text = some value) :
    text = value ++ [';'] := by
  unfold beforeSemicolon at found
  split at found
  · cases found
  · next reversed turned =>
      cases found
      have straight := congrArg List.reverse turned
      rwa [List.reverse_reverse, List.reverse_cons] at straight
  · cases found

section
variable {mark : Char}

private theorem count_beforeSemicolon_le {text value : Text}
    (found : beforeSemicolon text = some value) : value.count mark ≤ text.count mark := by
  rw [beforeSemicolon_eq_some found]
  exact (List.sublist_append_left _ _).count_le mark

private theorem count_assignedOutput_le {statement value : Text}
    (found : assignedOutput statement = some value) :
    value.count mark ≤ statement.count mark := by
  obtain ⟨assigned, read, ended⟩ := Option.bind_eq_some_iff.mp found
  have blanks : Scan.Sound Scan.someBlanks := (Scan.consumes_oneOrMore isBlank).sound
  have typeName : Scan.Sound (Scan.identifier >=> Scan.someBlanks) :=
    readsWord_identifier.consumes.sound.andThen blanks
  have constant : Scan.Sound (Scan.literal "const" >=> Scan.someBlanks) :=
    (Scan.sound_literal _).andThen blanks
  have target : Scan.Sound (outputName >=> Scan.blanks >=> Scan.literal "="
      >=> Scan.notBefore (Scan.literal "=")) :=
    readsWord_outputName.1.consumes.sound.andThen (Scan.sound_blanks.andThen
      ((Scan.sound_literal _).andThen (Scan.sound_notBefore _)))
  have later : assigned <:+ statement := by
    rcases Scan.orElse_eq_some read with full | read
    · exact constant.andThen (typeName.andThen target) _ _ full
    · rcases Scan.orElse_eq_some read with typed | plain
      · exact typeName.andThen target _ _ typed
      · exact target _ _ plain
  exact (count_beforeSemicolon_le ended).trans (later.sublist.count_le mark)

private theorem count_returnedValue_le {statement value : Text}
    (found : returnedValue statement = some value) :
    value.count mark ≤ statement.count mark := by
  obtain ⟨behind, read, found⟩ := Option.bind_eq_some_iff.mp found
  have later := Scan.sound_literal _ _ _ read
  split at found
  · next char rest =>
      split at found
      · exact (count_beforeSemicolon_le found).trans
          (((List.suffix_cons char rest).trans later).sublist.count_le mark)
      · cases found
  · cases found

end

def returnMarks : Text := " \n.,;()"

section
variable {mark : Char} (apart : isWord mark = false) (other : mark ∉ returnMarks)
include apart other

private theorem count_constructed_le {expression color : Text}
    (found : truncateToRgb.constructed expression = some color) :
    color.count mark ≤ expression.count mark := by
  obtain ⟨inner, read, found⟩ := Option.bind_eq_some_iff.mp found
  obtain ⟨close, _closed, found⟩ := Option.bind_eq_some_iff.mp found
  have later : inner <:+ expression := by
    obtain ⟨between, named, opened⟩ := Scan.andThen_eq_some_iff.mp read
    have behind := Scan.sound_blanks.andThen (Scan.sound_literal _) _ _ opened
    rcases Scan.orElse_eq_some named with full | half
    · exact behind.trans (Scan.sound_literal _ _ _ full)
    · exact behind.trans (Scan.sound_literal _ _ _ half)
  have parts : (((splitArguments (inner.take (close - 1))).dropLast).map (List.count mark)).sum ≤
      expression.count mark := by
    have fewer := ((List.dropLast_sublist (splitArguments (inner.take (close - 1)))).map
      (List.count mark)).sum_le_sum fun _ _ => Nat.zero_le _
    have held := count_splitArguments_le mark (inner.take (close - 1))
    have taken := ((List.take_sublist (close - 1) inner).trans later.sublist).count_le mark
    omega
  split at found
  · split at found
    · cases found
    · next single =>
        cases found
        rw [single] at parts
        simpa using parts
    · next colors _single =>
        cases found
        have head : ("float3(" : Text).count mark = 0 :=
          count_eq_zero_of_marks apart other (by decide)
        have comma : (", " : Text).count mark = 0 :=
          count_eq_zero_of_marks apart other (by decide)
        have close_ : (")" : Text).count mark = 0 :=
          count_eq_zero_of_marks apart other (by decide)
        rw [List.count_append, List.count_append, Text.count_join, head, comma, close_]
        omega
  · cases found

theorem count_truncateToRgb_le (expression : Text) :
    (truncateToRgb expression).count mark ≤ expression.count mark := by
  have trimmed := Text.count_trim_le expression mark
  have written : ∀ {text : Text}, (∀ char ∈ text, isWord char = true ∨ char ∈ returnMarks) →
      text.count mark = 0 :=
    fun each => count_eq_zero_of_marks apart other each
  unfold truncateToRgb
  simp only
  cases found : truncateToRgb.constructed expression.trim with
  | some color =>
      exact (count_constructed_le apart other found).trans trimmed
  | none =>
      rw [Option.getD_none]
      split
      · rw [List.count_append, written (by decide : ∀ char ∈ (".xyz" : Text), _)]
        exact trimmed
      · rw [List.count_append, List.count_append, written (by decide : ∀ char ∈ ("(" : Text), _),
          written (by decide : ∀ char ∈ (").xyz" : Text), _)]
        omega

private theorem count_replaced_le {body value : Text} {last : Statement}
    (member : last ∈ statements body) (fewer : value.count mark ≤ last.text.count mark) :
    (body.take last.start ++ "return " ++ truncateToRgb value ++ ";" ++
      body.drop (((statements body).getLast?.map Statement.stop).getD 0)).count mark ≤
        body.count mark := by
  obtain ⟨front, raw, rest, whole, start, stop, text⟩ := spans_of_mem_statements member
  have filled : statements body ≠ [] := List.ne_nil_of_mem member
  have beyond : last.stop ≤ ((statements body).getLast filled).stop := by
    have ordered := statements_ordered body
    rw [← List.dropLast_concat_getLast filled] at member ordered
    rcases List.mem_append.mp member with early | final
    · exact (List.pairwise_append.mp ordered).2.2 last early _ (List.mem_singleton.mpr rfl)
    · rw [← List.mem_singleton.mp final]
  have kept : (body.drop ((statements body).getLast filled).stop).count mark ≤ rest.count mark := by
    have behind : body.drop last.stop = rest := by
      rw [whole, stop, ← List.length_append, List.drop_left]
    rw [← behind]
    exact ((List.drop_suffix_drop_left body beyond).sublist).count_le mark
  have early : body.take last.start = front := by
    rw [whole, start, List.append_assoc, List.take_left]
  have said : last.text.count mark ≤ raw.count mark := by
    rw [text]
    exact (Text.count_trim_le _ mark).trans (count_stripComments_le mark raw)
  have color := count_truncateToRgb_le apart other value
  have opening : ("return " : Text).count mark = 0 :=
    count_eq_zero_of_marks apart other (by decide)
  have closing : (";" : Text).count mark = 0 :=
    count_eq_zero_of_marks apart other (by decide)
  have counted := congrArg (List.count mark) whole
  rw [List.getLast?_eq_some_getLast filled, Option.map_some, Option.getD_some]
  simp only [List.count_append, early, opening, closing] at counted ⊢
  omega

private theorem count_appended_le (body : Text) (writeOuts : List Statement) (stop : Nat) :
    (Text.trimEnd (body.take stop) ++ "\nreturn " ++ truncateToRgb (writtenName writeOuts) ++
      ";\n").count mark ≤ body.count mark := by
  have trimmed : (Text.trimEnd (body.take stop)).count mark ≤ (body.take stop).count mark := by
    unfold Text.trimEnd
    rw [List.count_reverse, ← List.count_reverse (l := body.take stop)]
    exact (List.dropWhile_sublist _).count_le mark
  have taken := (List.take_sublist stop body).count_le mark
  have name : (writtenName writeOuts).count mark = 0 :=
    count_eq_zero_of_marks apart other fun char member => .inl (isWord_of_mem_writtenName member)
  have color := count_truncateToRgb_le apart other (writtenName writeOuts)
  have opening : ("\nreturn " : Text).count mark = 0 :=
    count_eq_zero_of_marks apart other (by decide)
  have closing : (";\n" : Text).count mark = 0 :=
    count_eq_zero_of_marks apart other (by decide)
  simp only [List.count_append, opening, closing]
  omega

theorem count_writeAsReturn_le (body : Text) :
    (writeAsReturn body).count mark ≤ body.count mark := by
  unfold writeAsReturn
  simp only
  split
  · next start value found =>
      obtain ⟨last, final, found⟩ := Option.bind_eq_some_iff.mp found
      obtain ⟨written, assigned, found⟩ := Option.bind_eq_some_iff.mp found
      split at found
      · cases found
      · cases found
        have member : last ∈ statements body := List.mem_of_mem_take (List.mem_of_getLast? final)
        refine count_replaced_le apart other member ?_
        cases output : assignedOutput last.text with
        | some value =>
            rw [output] at assigned
            cases assigned
            exact count_assignedOutput_le output
        | none =>
            rw [output] at assigned
            exact count_returnedValue_le assigned
  · split
    · exact Nat.le_refl _
    · exact count_appended_le apart other body _ _

end

end Export
end ShaderBridge
