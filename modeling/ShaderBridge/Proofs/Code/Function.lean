import ShaderBridge.Code.Function
import ShaderBridge.Proofs.Text.Pieces
import ShaderBridge.Proofs.Text.Token
set_option autoImplicit false

/-! Where a function definition lies in a text. The definition begins a line, its head ends in the
brace that opens the body, and the body is followed by the bracket that closes it; what stands in
front, the head, the body and what follows make up the text (`findFunction_eq_some`). -/

namespace ShaderBridge
namespace Code

theorem closerFrom_eq_some {skip depth offset stop : Nat} {text : Text}
    (found : closerFrom skip depth offset text = some stop) :
    ∃ inner rest, text = inner ++ rest ∧ stop = offset + inner.length ∧
      rest.head?.any isCloser = true := by
  induction text generalizing skip depth offset with
  | nil => cases skip <;> cases found
  | cons char text ih =>
      have further : ∀ {skip depth : Nat}, closerFrom skip depth (offset + 1) text = some stop →
          ∃ inner rest, char :: text = inner ++ rest ∧ stop = offset + inner.length ∧
            rest.head?.any isCloser = true := by
        intro skip depth later
        obtain ⟨inner, rest, rfl, same, closes⟩ := ih later
        refine ⟨char :: inner, rest, rfl, ?_, closes⟩
        rw [same, List.length_cons]
        omega
      cases skip with
      | succ skip => exact further found
      | zero =>
          rw [closerFrom] at found
          split at found
          · exact further found
          · split at found
            · exact further found
            · split at found
              · next closes =>
                  split at found
                  · cases found
                    exact ⟨[], char :: text, rfl, rfl, closes⟩
                  · exact further found
              · exact further found

theorem isWord_of_isCloser {char : Char} (closes : isCloser char = true) : isWord char = false := by
  unfold isCloser at closes
  simp only [Bool.or_eq_true, beq_iff_eq] at closes
  rcases closes with (rfl | rfl) | rfl <;> decide

/-- What an opening bracket opens is closed by a bracket behind it. -/
theorem closer?_eq_some {opener : Char} (opens : isOpener opener = true) {length : Nat} {text : Text}
    (found : closer? (opener :: text) = some length) :
    ∃ body rest, text = body ++ rest ∧ length = body.length + 1 ∧
      rest.head?.any isCloser = true := by
  obtain ⟨inner, rest, split, same, closes⟩ := closerFrom_eq_some found
  cases inner with
  | nil =>
      rw [List.nil_append] at split
      rw [← split] at closes
      have both : isCloser opener = true := closes
      unfold isOpener at opens
      simp only [Bool.or_eq_true, beq_iff_eq] at opens
      rcases opens with (rfl | rfl) | rfl <;> cases both
  | cons char body =>
      rw [Nat.zero_add, List.length_cons] at same
      exact ⟨body, rest, (List.cons.inj split).2, same, closes⟩

/-- The parts of a text around a definition and inside it, counted from an offset. -/
structure FunctionSpan.Lies (span : FunctionSpan) (offset : Nat) (front head body rest : Text) :
    Prop where
  start : span.start = offset + front.length
  bodyStart : span.bodyStart = offset + front.length + head.length
  bodyEnd : span.bodyEnd = offset + front.length + head.length + body.length
  opens : head.getLast? = some '{'
  closes : rest.head?.any isCloser = true

private theorem bodyOpening_eq_some {text body : Text} (found : bodyOpening text = some body) :
    ∃ front, text = front ++ '{' :: body := by
  have semantic : Scan.Sound
      (Scan.literal ":" >=> Scan.blanks >=> Scan.word >=> Scan.blanks) :=
    (Scan.sound_literal _).andThen (Scan.sound_blanks.andThen
      ((Scan.consumes_oneOrMore isWord).sound.andThen Scan.sound_blanks))
  obtain ⟨behind, white, found⟩ := Scan.andThen_eq_some_iff.mp found
  obtain ⟨between, perhaps, brace⟩ := Scan.andThen_eq_some_iff.mp found
  have same := Scan.literal_eq_some_iff.mp brace
  have later : between <:+ text :=
    (Scan.sound_optional semantic _ _ perhaps).trans (Scan.sound_blanks _ _ white)
  rw [same] at later
  obtain ⟨front, split⟩ := later
  exact ⟨front, split.symm⟩

private theorem spanAt_eq_some {offset length : Nat} {text : Text} {span : FunctionSpan}
    (found : spanAt offset length text = some span) :
    ∃ head body rest, text = head ++ (body ++ rest) ∧ span.Lies offset [] head body rest := by
  obtain ⟨close, _closed, found⟩ := Option.bind_eq_some_iff.mp found
  obtain ⟨behind, opened, found⟩ := Option.bind_eq_some_iff.mp found
  obtain ⟨bodyLength, closing, same⟩ := Option.bind_eq_some_iff.mp found
  cases same
  obtain ⟨front, split⟩ := bodyOpening_eq_some opened
  obtain ⟨body, rest, rfl, rfl, closes⟩ := closer?_eq_some rfl closing
  have later : '{' :: (body ++ rest) <:+ text := by
    have inside : front ++ '{' :: (body ++ rest) <:+ text := by
      rw [← split]
      exact (List.drop_suffix _ _).trans (List.drop_suffix _ _)
    exact (List.suffix_append front _).trans inside
  obtain ⟨head, whole⟩ := later
  refine ⟨head ++ ['{'], body, rest, ?_, rfl, ?_, ?_, List.getLast?_concat, closes⟩
  · rw [← whole, List.append_assoc]
    rfl
  · simp only [← whole, List.length_append, List.length_cons, List.length_nil]
    omega
  · simp only [← whole, List.length_append, List.length_cons, List.length_nil]
    omega

private theorem definitionFrom_eq_some {name : Text} {skip : Nat} {lineStart : Bool} {offset : Nat}
    {text : Text} {span : FunctionSpan}
    (found : definitionFrom name skip lineStart offset text = some span) :
    ∃ front head body rest, text = front ++ head ++ (body ++ rest) ∧
      span.Lies offset front head body rest ∧
        (front = [] ∧ lineStart = true ∨ front.getLast? = some '\n') := by
  induction text generalizing skip lineStart offset with
  | nil => cases skip <;> cases found
  | cons char text ih =>
      have further : ∀ {skip : Nat},
          definitionFrom name skip (char == '\n') (offset + 1) text = some span →
            ∃ front head body rest, char :: text = front ++ head ++ (body ++ rest) ∧
              span.Lies offset front head body rest ∧
                (front = [] ∧ lineStart = true ∨ front.getLast? = some '\n') := by
        intro skip later
        obtain ⟨front, head, body, rest, rfl, lies, line⟩ := ih later
        refine ⟨char :: front, head, body, rest, rfl, ?_, .inr ?_⟩
        · refine ⟨?_, ?_, ?_, lies.opens, lies.closes⟩
          · rw [lies.start, List.length_cons]
            omega
          · rw [lies.bodyStart, List.length_cons]
            omega
          · rw [lies.bodyEnd, List.length_cons]
            omega
        · rcases line with ⟨rfl, feed⟩ | ends
          · rw [eq_of_beq feed]
            rfl
          · rw [List.getLast?_cons, ends]
            rfl
      cases skip with
      | succ skip => exact further found
      | zero =>
          rw [definitionFrom] at found
          split at found
          · exact further found
          · next read =>
              simp only at found
              split at found
              · next here =>
                  cases found
                  obtain ⟨head, body, rest, whole, lies⟩ := spanAt_eq_some here
                  have begins := (Option.ite_none_right_eq_some.mp read).1
                  exact ⟨[], head, body, rest, whole, lies, .inl ⟨rfl, begins⟩⟩
              · exact further found

/-- How a definition divides a text: what stands in front of it, its head, its body, and what
follows. -/
structure FunctionSpan.Divides (span : FunctionSpan) (text front head body rest : Text) : Prop where
  whole : text = front ++ head ++ (body ++ rest)
  front_eq : text.take span.start = front
  body_eq : (text.take span.bodyEnd).drop span.bodyStart = body
  /-- The definition begins a line. -/
  line : front = [] ∨ front.getLast? = some '\n'
  opens : head.getLast? = some '{'
  closes : rest.head?.any isCloser = true

theorem findFunction_eq_some {text : Text} {names : List Text} {span : FunctionSpan}
    (found : findFunction text names = some span) :
    ∃ front head body rest, span.Divides text front head body rest := by
  obtain ⟨name, _member, here⟩ := List.exists_of_findSome?_eq_some found
  obtain ⟨front, head, body, rest, whole, lies, line⟩ := definitionFrom_eq_some here
  have start := lies.start
  have bodyStart := lies.bodyStart
  have bodyEnd := lies.bodyEnd
  rw [Nat.zero_add] at start bodyStart bodyEnd
  rw [← List.length_append] at bodyStart bodyEnd
  refine ⟨front, head, body, rest, whole, ?_, ?_, line.imp_left And.left, lies.opens, lies.closes⟩
  · rw [whole, start, List.append_assoc, List.take_left]
  · rw [← List.length_append] at bodyEnd
    rw [whole, bodyEnd, bodyStart, ← List.append_assoc, List.take_left, List.drop_left]

/-- No word reaches over the ends of the parts. -/
theorem FunctionSpan.Divides.words_eq {span : FunctionSpan} {text front head body rest : Text}
    (divides : span.Divides text front head body rest) :
    Text.words text = Text.words front ++ Text.words head ++
      (Text.words body ++ Text.words rest) := by
  have brace : isWord '{' = false := by decide
  have feed : isWord '\n' = false := by decide
  have early : Text.endsWord front = false := by
    rcases divides.line with rfl | ends
    · rfl
    · unfold Text.endsWord
      rw [ends]
      exact feed
  have opened : Text.endsWord head = false := by
    unfold Text.endsWord
    rw [divides.opens]
    exact brace
  have behind : Text.startsWord rest = false := by
    have closes := divides.closes
    cases rest with
    | nil => rfl
    | cons char rest => exact isWord_of_isCloser closes
  rw [divides.whole, List.append_assoc,
    Text.words_append fun ends => absurd (early.symm.trans ends) nofun,
    Text.words_append fun ends => absurd (opened.symm.trans ends) nofun,
    Text.words_append fun _ends => behind, List.append_assoc]

theorem count_brace_of_findFunction {text : Text} {names : List Text} {span : FunctionSpan}
    (found : findFunction text names = some span) :
    (text.take span.start).count '{' + ((text.take span.bodyEnd).drop span.bodyStart).count '{' <
      text.count '{' := by
  obtain ⟨front, head, body, rest, divides⟩ := findFunction_eq_some found
  have held : 0 < head.count '{' := List.count_pos_iff.mpr (List.mem_of_getLast? divides.opens)
  have counted := congrArg (List.count '{') divides.whole
  simp only [List.count_append] at counted
  rw [divides.front_eq, divides.body_eq]
  omega

end Code
end ShaderBridge
