import ShaderBridge.Proofs.Code.Sentence
import ShaderBridge.Proofs.Export.Clause
set_option autoImplicit false

/-! Node bodies as they are written: clauses, and behind them statements that hand the color on. The
text of a body divides as it is meant (`Body.settling_text`), and with its last write as a return it is
the text of a body that returns (`writeAsReturn_text`). -/

namespace ShaderBridge
namespace Export

open Code
open Text (Blank lexemes)

structure Settled extends Sentence where
  clause : Clause
  reads : toSentence.text = clause.text

structure Handing extends Sentence where
  writeOut : WriteOut
  reads : lexemes toSentence.text = writeOut.lexemes

/-- A node body: clauses, and behind them statements that hand the color on, each what the one before
it writes. No clause hands the color on right in front of these. -/
structure Body where
  settled : List Settled
  first : Handing
  others : List Handing
  rest : Text
  ends : LastMargin rest
  forwards : (first :: others).IsChain fun before after =>
    before.writeOut.target? = some after.writeOut.source
  settles : ∀ last ∈ settled.getLast?, ∀ writeOut : WriteOut,
    lexemes last.clause.text ≠ writeOut.lexemes

structure Returning where
  settled : List Settled
  margin : Text
  value : Text
  rest : Text
  laid : Margin margin
  ends : LastMargin rest

namespace Body

/-- The clauses as they are written. -/
def front (body : Body) : List Sentence := body.settled.map (·.toSentence)

/-- The statements that hand the color on as they are written. -/
def back (body : Body) : List Sentence := (body.first :: body.others).map (·.toSentence)

def text (body : Body) : Text := spelled (body.front ++ body.back) ++ body.rest

def offer (body : Body) : Option (Settled × Text) :=
  body.settled.getLast?.bind fun last => last.clause.offered.map fun value => (last, value)

end Body

def Returning.text (returning : Returning) : Text :=
  spelled (returning.settled.map (·.toSentence)) ++ (returning.margin ++
    ("return " ++ (truncateToRgb returning.value ++ ';' :: returning.rest)))

/-- The body with the value that the last clause offers in a return, in the place of the clause and
the statements behind it; with a return of the name handed on where the last clause offers none. -/
def Body.returning (body : Body) : Returning :=
  match body.offer with
  | some (last, value) =>
    { settled := body.settled.dropLast
      margin := last.margin
      value
      rest := body.rest
      laid := last.laid
      ends := body.ends }
  | none =>
    { settled := body.settled
      margin := body.first.margin.trimEnd ++ ['\n']
      value := body.first.writeOut.source
      rest := ['\n']
      laid := body.first.laid.trimEnd
      ends := .inl (.blank isBlank_line_feed .empty) }

/-- A text that opens no comment and ends no statement goes on to the semicolon behind it. -/
theorem unbroken_of_inner {text : Text} (inner : Inner text) : Unbroken 0 (text ++ [';']) := by
  have goesOn : ∀ (text : Text) (depth : Int), depth + height text = 0 → Quiet text →
      Unbroken depth (text ++ [';']) := by
    intro text
    induction text with
    | nil =>
        intro depth level _quiet
        obtain rfl : depth = 0 := by simpa [height] using level
        exact .ended
    | cons char text ih =>
        intro depth level quiet
        have plain : Uncommented (char :: (text ++ [';'])) := by
          refine List.isChain_append.mpr ⟨quiet.plain, .singleton _, ?_⟩
          intro last _final next begins _slash
          obtain rfl := Option.some.inj begins
          exact ⟨by decide, by decide⟩
        obtain ⟨semicolon, brace⟩ := quiet.unended char List.mem_cons_self
        have open_ : endsStatement char (depthAfter char depth) (text ++ [';']) = false := by
          unfold endsStatement
          rw [beq_eq_false_iff_ne.mpr semicolon, beq_eq_false_iff_ne.mpr brace]
          exact Bool.and_false _
        refine .grown plain.comment_eq_none open_ (ih _ ?_ (quiet.part (List.infix_cons_iff.mpr
          (.inr (List.infix_refl text)))))
        rw [height_cons] at level
        rw [depthAfter_eq]
        omega
  exact goesOn text 0 ((Int.zero_add _).trans inner.level) inner.toQuiet

theorem handing_split {body : Text} {before after : List Statement}
    (split : statements body = before ++ after)
    (handing : ∀ statement ∈ after, isWriteOut statement.text = true)
    (settled : ∀ last ∈ before.getLast?, isWriteOut last.text = false) :
    settling body = before ∧ handingOn body = after := by
  have turned : (statements body).reverse = after.reverse ++ before.reverse := by
    rw [split, List.reverse_append]
  have members : ∀ statement ∈ after.reverse, isWriteOut statement.text = true :=
    fun statement member => handing statement (List.mem_reverse.mp member)
  unfold settling handingOn
  rw [turned, List.dropWhile_append_of_pos members, List.takeWhile_append_of_pos members]
  cases last : before.reverse with
  | nil =>
      rw [List.reverse_eq_nil_iff.mp last]
      exact ⟨rfl, by simp⟩
  | cons final others =>
      have stop : ¬ isWriteOut final.text = true := by
        rw [settled final (by rw [← List.head?_reverse, last]; rfl)]
        exact Bool.false_ne_true
      have settles := List.dropWhile_cons_of_neg
        (p := fun statement : Statement => isWriteOut statement.text) (l := others) stop
      have hands := List.takeWhile_cons_of_neg
        (p := fun statement : Statement => isWriteOut statement.text) (l := others) stop
      rw [settles, hands, List.append_nil, List.reverse_reverse, ← last, List.reverse_reverse]
      exact ⟨rfl, rfl⟩

namespace Body

variable (body : Body)

theorem statements_text : statements body.text =
    placedFrom 0 body.front ++ placedFrom (spelled body.front).length body.back := by
  unfold text
  rw [statements_spelled _ body.ends, placedFrom_append, Nat.zero_add]

section
variable {body : Body} {kept : List Settled} {last : Settled}
  (split : body.settled = kept ++ [last])
include split

theorem front_eq : body.front = kept.map (·.toSentence) ++ [last.toSentence] := by
  unfold front
  rw [split, List.map_append]
  rfl

theorem getLast?_placed : (placedFrom 0 body.front).getLast? =
    some (last.placed (spelled (kept.map (·.toSentence))).length) := by
  rw [front_eq split, placedFrom_append, Nat.zero_add]
  exact List.getLast?_concat

end

/-- Which statements only hand the color on is read off the text as it is meant. -/
theorem settling_text : settling body.text = placedFrom 0 body.front ∧
    handingOn body.text = placedFrom (spelled body.front).length body.back := by
  refine handing_split body.statements_text ?_ ?_
  · intro statement member
    obtain ⟨sentence, known, text⟩ := exists_of_mem_placedFrom member
    obtain ⟨handing, _member, rfl⟩ := List.mem_map.mp known
    rw [text]
    exact (isWriteOut_iff (Text.trimmed_trim _)).mpr ⟨handing.writeOut, handing.reads⟩
  · intro statement final
    rcases List.eq_nil_or_concat' body.settled with empty | ⟨kept, last, split⟩
    · unfold front at final
      rw [empty] at final
      cases final
    · rw [getLast?_placed split] at final
      obtain rfl := Option.some.inj final
      refine Bool.eq_false_iff.mpr fun hands => ?_
      obtain ⟨writeOut, same⟩ := (isWriteOut_iff (Text.trimmed_trim _)).mp hands
      refine body.settles last ?_ writeOut ?_
      · rw [split, List.getLast?_concat]
        rfl
      · rw [← last.reads]
        exact same

theorem offer_eq_some {last : Settled} {value : Text} (found : body.offer = some (last, value)) :
    ∃ kept, body.settled = kept ++ [last] ∧ last.clause.offered = some value := by
  obtain ⟨final, known, later⟩ := Option.bind_eq_some_iff.mp found
  obtain ⟨offered, given, same⟩ := Option.map_eq_some_iff.mp later
  obtain ⟨rfl, rfl⟩ := Prod.mk.inj same
  exact ⟨body.settled.dropLast, (List.dropLast_append_getLast? _ known).symm, given⟩

theorem take_text (before : List Sentence) (sentence : Sentence) (after : List Sentence)
    (split : body.front ++ body.back = before ++ sentence :: after) :
    body.text.take ((spelled before).length + sentence.margin.length) =
      spelled before ++ sentence.margin := by
  have whole : body.text = (spelled before ++ sentence.margin) ++
      (sentence.raw ++ (spelled after ++ body.rest)) := by
    unfold text
    rw [split, spelled_append, spelled_cons, Sentence.written]
    simp only [List.append_assoc]
  rw [whole, ← List.length_append, List.take_left]

theorem drop_text : body.text.drop (((statements body.text).getLast?.map Statement.stop).getD 0) =
    body.rest := by
  have filled : body.front ++ body.back ≠ [] :=
    List.append_ne_nil_of_right_ne_nil _ (List.cons_ne_nil _ _)
  have stop := stop_placedFrom filled 0
  unfold text
  rw [statements_spelled _ body.ends, stop, Option.getD_some, Nat.zero_add, List.drop_left]

end Body

/-- The text of a body with its last write as a return is the text of the body that returns. -/
theorem writeAsReturn_text (body : Body) : writeAsReturn body.text = body.returning.text := by
  obtain ⟨settled, handing⟩ := body.settling_text
  rw [writeAsReturn_eq, settled, handing, body.drop_text]
  unfold Body.returning
  cases found : body.offer with
  | some offer =>
      obtain ⟨last, value⟩ := offer
      obtain ⟨kept, split, given⟩ := body.offer_eq_some found
      have handed : handedOn (last.placed (spelled (kept.map (·.toSentence))).length).text =
          some value := by
        rw [← given, ← last.clause.handedOn_text, ← last.reads]
        rfl
      have taken := body.take_text (kept.map (·.toSentence)) last.toSentence body.back
        (by rw [Body.front_eq split, List.append_assoc]; rfl)
      rw [Body.getLast?_placed split, Option.bind_some, handed]
      simp only [Option.map_some, Sentence.placed, taken, Returning.text, split,
        List.dropLast_concat]
      simp
  | none =>
      have missing : ((placedFrom 0 body.front).getLast?.bind fun last =>
          (handedOn last.text).map fun value => (last.start, value)) = none := by
        rcases List.eq_nil_or_concat' body.settled with empty | ⟨kept, last, split⟩
        · unfold Body.front
          rw [empty]
          rfl
        · unfold Body.offer at found
          rw [split, List.getLast?_concat, Option.bind_some, Option.map_eq_none_iff,
            ← Clause.handedOn_text, ← last.reads] at found
          rw [Body.getLast?_placed split, Option.bind_some]
          exact Option.map_eq_none_iff.mpr found
      have taken := body.take_text body.front body.first.toSentence
        (body.others.map (·.toSentence)) rfl
      have row : placedFrom (spelled body.front).length body.back =
          body.first.placed (spelled body.front).length ::
            placedFrom ((spelled body.front).length + body.first.written.length)
              (body.others.map (·.toSentence)) := rfl
      have named := writtenName_of_lexemes
        (show lexemes (body.first.placed (spelled body.front).length).text =
          body.first.writeOut.lexemes from body.first.reads)
      rw [missing, row]
      simp only [named]
      simp only [Sentence.placed, taken, trimEnd_spelled, Returning.text]
      simp [Body.front]

end Export
end ShaderBridge
