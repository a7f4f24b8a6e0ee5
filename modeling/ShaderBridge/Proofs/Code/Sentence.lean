import ShaderBridge.Proofs.Code.Division
import ShaderBridge.Proofs.Text.Character
set_option autoImplicit false

/-! Statements as they are written. White space and comments stand in front of a statement
(`Margin`), and the statement goes on, with comments in it, up to the first semicolon at depth zero
(`Unbroken`). A text that is written so divides into just these statements (`statements_spelled`). -/

namespace ShaderBridge

namespace Code

open Text (Blank)

inductive Remark : Text → Prop where
  | line {words : Text} : '\n' ∉ words → Remark ('/' :: '/' :: (words ++ ['\n']))
  | block {inner : Text} : closeBlock? inner = some [] → Remark ('/' :: '*' :: inner)

inductive Margin : Text → Prop where
  | empty : Margin []
  | blank {char : Char} {text : Text} : isBlank char = true → Margin text → Margin (char :: text)
  | remark {stretch text : Text} : Remark stretch → Margin text → Margin (stretch ++ text)

/-- A margin at the end of a text, where a line comment needs no line feed. -/
def LastMargin (text : Text) : Prop :=
  Margin text ∨ ∃ front words, Margin front ∧ '\n' ∉ words ∧ text = front ++ '/' :: '/' :: words

theorem margin_of_blank {blanks : Text} (blank : Blank blanks) : Margin blanks := by
  induction blanks with
  | nil => exact .empty
  | cons char blanks ih =>
      obtain ⟨white, rest⟩ := List.forall_mem_cons.mp blank
      exact .blank white (ih rest)

theorem closeBlock_of_closed {inner : Text} (closed : closeBlock? inner = some []) (rest : Text) :
    closeBlock (inner ++ rest) = some rest := by
  induction inner using closeBlock?.induct with
  | case1 => cases closed
  | case2 text =>
      obtain rfl : text = [] := Option.some.inj closed
      rfl
  | case3 char text other ih =>
      rw [closeBlock?] at closed
      · cases text with
        | nil => cases closed
        | cons next text =>
            rw [List.cons_append, closeBlock]
            · exact ih closed
            · rintro tail rfl same
              obtain ⟨rfl, _same⟩ := List.cons.inj same
              exact other text rfl rfl
      · exact other

theorem ends_of_closed {inner : Text} (closed : closeBlock? inner = some []) :
    ∃ front, inner = front ++ ['*', '/'] := by
  induction inner using closeBlock?.induct with
  | case1 => cases closed
  | case2 text =>
      obtain rfl : text = [] := Option.some.inj closed
      exact ⟨[], rfl⟩
  | case3 char text other ih =>
      rw [closeBlock?] at closed
      · obtain ⟨front, rfl⟩ := ih closed
        exact ⟨char :: front, rfl⟩
      · exact other

theorem comment_line {words : Text} (flat : '\n' ∉ words) (rest : Text) :
    comment ('/' :: '/' :: (words ++ '\n' :: rest)) = some ('\n' :: rest) := by
  refine Scan.zeroOrMore_eq_some_iff.mpr ⟨words, ?_, rfl, rfl⟩
  intro char member
  exact bne_iff_ne.mpr fun same => flat (same ▸ member)

section
variable {depth : Int} {current : Option OpenStatement} {offset : Nat}

/-- White space goes into the statement begun and does nothing else. -/
theorem statementsFrom_blank {char : Char} (white : isBlank char = true) (text : Text) :
    statementsFrom 0 depth current offset (char :: text) =
      statementsFrom 0 depth (current.map (·.push char)) (offset + 1) text := by
  have apart : ∀ mark, isBlank mark = false → (char == mark) = false := by
    intro mark dark
    refine beq_eq_false_iff_ne.mpr ?_
    rintro rfl
    exact absurd (white.symm.trans dark) nofun
  rw [statementsFrom, commentLength_of_none (comment_of_blank white text)]
  cases current with
  | none => simp only [Option.isNone_none, white, Bool.and_self, if_true, Option.map_none]
  | some current =>
      have goesOn : endsStatement char depth text = false := by
        unfold endsStatement
        rw [apart ';' (by decide), apart '\x7d' (by decide)]
        exact Bool.and_false _
      simp only [Option.isNone_some, Bool.false_and, Bool.false_eq_true, if_false,
        depthAfter_of_blank white, goesOn, Option.getD_some, Option.map_some]

theorem statementsFrom_remark {stretch : Text} (remark : Remark stretch) (text : Text) :
    statementsFrom 0 depth current offset (stretch ++ text) =
      statementsFrom 0 depth (current.map (·.pushAll stretch)) (offset + stretch.length) text := by
  cases remark with
  | @line words flat =>
      have found := comment_line flat text
      have split : '/' :: '/' :: (words ++ ['\n']) ++ text =
          ('/' :: '/' :: words) ++ '\n' :: text := by simp
      rw [split, statementsFrom_comment found (List.cons_ne_nil _ _), statementsFrom_blank (by decide),
        Option.map_map]
      have pushed : (OpenStatement.push '\n') ∘ (OpenStatement.pushAll ('/' :: '/' :: words)) =
          OpenStatement.pushAll ('/' :: '/' :: (words ++ ['\n'])) := by
        funext begun
        simp [OpenStatement.pushAll]
      rw [pushed]
      simp only [List.length_cons, List.length_append, List.length_nil]
      rfl
  | @block inner closed =>
      exact statementsFrom_comment (closeBlock_of_closed closed text) (List.cons_ne_nil _ _)

theorem statementsFrom_margin {margin : Text} (laid : Margin margin) (text : Text) :
    statementsFrom 0 depth none offset (margin ++ text) =
      statementsFrom 0 depth none (offset + margin.length) text := by
  induction laid generalizing offset with
  | empty => rfl
  | blank white _laid ih =>
      rw [List.cons_append, statementsFrom_blank white, Option.map_none, ih, List.length_cons]
      congr 1
      omega
  | remark remark _laid ih =>
      rw [List.append_assoc, statementsFrom_remark remark, Option.map_none, ih, List.length_append,
        Nat.add_assoc]

theorem statementsFrom_lastMargin {margin : Text} (laid : LastMargin margin) :
    statementsFrom 0 depth none offset margin = [] := by
  rcases laid with laid | ⟨front, words, laid, flat, rfl⟩
  · rw [← List.append_nil margin, statementsFrom_margin laid]
    rfl
  · have found : comment ('/' :: '/' :: words ++ []) = some [] := by
      refine Scan.zeroOrMore_eq_some_iff.mpr ⟨words, ?_, rfl, rfl⟩
      intro char member
      exact bne_iff_ne.mpr fun same => flat (same ▸ member)
    rw [statementsFrom_margin laid, ← List.append_nil ('/' :: '/' :: words),
      statementsFrom_comment found (List.cons_ne_nil _ _)]
    rfl

end

/-- A comment that is trimmed at its end is closed again once its line is ended. -/
theorem Remark.trimEnd {stretch : Text} (remark : Remark stretch) :
    Margin (stretch.trimEnd ++ ['\n']) := by
  cases remark with
  | @line words flat =>
      have feed : Blank ['\n'] := List.forall_mem_singleton.mpr isBlank_line_feed
      have ended := Text.trimEnd_append_blank feed ('/' :: '/' :: words)
      have short : Text.trimEnd ('/' :: '/' :: words) = '/' :: '/' :: words.trimEnd := by
        by_cases blank : Blank words
        · have slashes := Text.trimEnd_append_blank blank ['/', '/']
          rw [Text.trimEnd_blank blank]
          exact slashes
        · exact Text.trimEnd_append_of_not_blank blank ['/', '/']
      have still : '\n' ∉ words.trimEnd := fun member =>
        flat ((Text.trimEnd_prefix words).subset member)
      have whole := Margin.remark (.line still) .empty
      rw [List.cons_append, List.cons_append, short] at ended
      rw [ended]
      rwa [List.append_nil] at whole
  | @block inner closed =>
      obtain ⟨front, rfl⟩ := ends_of_closed closed
      have slash : ¬ Blank ['/'] := fun blank =>
        absurd (blank '/' List.mem_cons_self) (by decide)
      have kept : Text.trimEnd ['/'] = ['/'] := by decide
      have whole := Text.trimEnd_append_of_not_blank slash ('/' :: '*' :: (front ++ ['*']))
      have split : '/' :: '*' :: (front ++ ['*', '/']) =
          '/' :: '*' :: (front ++ ['*']) ++ ['/'] := by simp
      rw [split, whole, kept, ← split]
      exact .remark (.block closed) (.blank isBlank_line_feed .empty)

/-- A margin that is trimmed at its end is a margin again once its line is ended. -/
theorem Margin.trimEnd {margin : Text} (laid : Margin margin) :
    Margin (margin.trimEnd ++ ['\n']) := by
  have line : Margin ['\n'] := .blank isBlank_line_feed .empty
  have part : ∀ (front : Text) {text : Text}, (Blank text → Margin (front.trimEnd ++ ['\n'])) →
      (∀ rest, Margin rest → Margin (front ++ rest)) → Margin (text.trimEnd ++ ['\n']) →
        Margin ((front ++ text).trimEnd ++ ['\n']) := by
    intro front text alone behind ih
    by_cases blank : Blank text
    · rw [Text.trimEnd_append_blank blank]
      exact alone blank
    · rw [Text.trimEnd_append_of_not_blank blank, List.append_assoc]
      exact behind _ ih
  induction laid with
  | empty => exact line
  | @blank char text white _laid ih =>
      have single : Blank [char] := List.forall_mem_singleton.mpr white
      refine part [char] (fun _blank => ?_) (fun rest laid => .blank white laid) ih
      rw [Text.trimEnd_blank single]
      exact line
  | remark remark _laid ih =>
      refine part _ (fun _blank => ?_) (fun rest laid => .remark remark laid) ih
      exact remark.trimEnd

/-- From a depth on, the text goes on up to its last character, the first semicolon at depth zero. No
brace in it ends a block: behind a braced value stand white space and a semicolon or a comma. -/
inductive Unbroken : (depth : Int) → Text → Prop where
  | ended : Unbroken 0 [';']
  | remark {depth : Int} {stretch text : Text} : Remark stretch → Unbroken depth text →
      Unbroken depth (stretch ++ text)
  | grown {depth : Int} {char : Char} {text : Text} : comment (char :: text) = none →
      endsStatement char (depthAfter char depth) text = false →
        Unbroken (depthAfter char depth) text → Unbroken depth (char :: text)

theorem Unbroken.ends {depth : Int} {text : Text} (unbroken : Unbroken depth text) :
    ∃ front, text = front ++ [';'] := by
  induction unbroken with
  | ended => exact ⟨[], rfl⟩
  | @remark _depth stretch _text _remark _unbroken ih =>
      obtain ⟨front, rfl⟩ := ih
      exact ⟨stretch ++ front, (List.append_assoc _ _ _).symm⟩
  | @grown _depth char _text _plain _goesOn _unbroken ih =>
      obtain ⟨front, rfl⟩ := ih
      exact ⟨char :: front, rfl⟩

theorem Unbroken.ne_nil {depth : Int} {text : Text} (unbroken : Unbroken depth text) : text ≠ [] := by
  obtain ⟨front, rfl⟩ := unbroken.ends
  exact List.append_ne_nil_of_right_ne_nil front (List.cons_ne_nil _ _)

theorem comment_append_eq_none {char : Char} {text : Text} (filled : text ≠ [])
    (plain : comment (char :: text) = none) (rest : Text) :
    comment (char :: (text ++ rest)) = none := by
  rw [comment_eq_none_iff] at plain ⊢
  rwa [List.head?_append_of_ne_nil _ filled]

theorem continuesDeclaration_append {text : Text} {front : Text} (ends : text = front ++ [';'])
    (rest : Text) : continuesDeclaration (text ++ rest) = continuesDeclaration text := by
  have filled : text.trimStart ≠ [] := by
    intro empty
    have blank := List.dropWhile_eq_nil_iff.mp empty ';' (ends ▸ List.mem_append_right _ (by simp))
    exact absurd blank (by decide)
  have behind : (text ++ rest).trimStart = text.trimStart ++ rest := by
    unfold Text.trimStart at filled ⊢
    rw [List.dropWhile_append, if_neg (by simpa using filled)]
  unfold continuesDeclaration
  rw [behind]
  cases known : text.trimStart with
  | nil => exact absurd known filled
  | cons char more =>
      rw [List.cons_append]
      split <;> split <;> simp_all

theorem endsStatement_append {char : Char} {depth : Int} {text front : Text}
    (ends : text = front ++ [';']) (rest : Text) :
    endsStatement char depth (text ++ rest) = endsStatement char depth text := by
  unfold endsStatement
  rw [continuesDeclaration_append ends]

/-- A statement begun is closed by the semicolon that an unbroken text ends in. -/
theorem statementsFrom_unbroken {depth : Int} {text : Text} (unbroken : Unbroken depth text)
    (current : OpenStatement) (offset : Nat) (rest : Text) :
    statementsFrom 0 depth (some current) offset (text ++ rest) =
      (current.pushAll text).close (offset + text.length) ::
        statementsFrom 0 0 none (offset + text.length) rest := by
  induction unbroken generalizing current offset with
  | ended => rfl
  | remark remark _unbroken ih =>
      rw [List.append_assoc, statementsFrom_remark remark, Option.map_some, ih, List.length_append,
        Nat.add_assoc]
      congr 2
      simp [OpenStatement.pushAll]
  | @grown depth char text plain goesOn unbroken ih =>
      obtain ⟨front, ends⟩ := unbroken.ends
      have none := comment_append_eq_none unbroken.ne_nil plain rest
      rw [List.cons_append, statementsFrom, commentLength_of_none none]
      simp only [Option.isNone_some, Bool.false_and, Bool.false_eq_true, if_false, Option.getD_some,
        endsStatement_append ends, goesOn]
      rw [ih, List.length_cons, Nat.add_assoc, Nat.add_comm 1]
      rfl

/-- A statement with the margin in front of it, as they stand in a body. -/
structure Sentence where
  margin : Text
  raw : Text
  laid : Margin margin
  unbroken : Unbroken 0 raw
  dark : raw.head?.any isBlank = false
  plain : comment raw = none

namespace Sentence

def written (sentence : Sentence) : Text := sentence.margin ++ sentence.raw

/-- The statement without its comments. -/
def text (sentence : Sentence) : Text := (stripComments sentence.raw).trim

/-- The statement behind so many characters. -/
def placed (offset : Nat) (sentence : Sentence) : Statement :=
  ⟨offset + sentence.margin.length, offset + sentence.written.length, sentence.text⟩

end Sentence

theorem statementsFrom_sentence (sentence : Sentence) (offset : Nat) (rest : Text) :
    statementsFrom 0 0 none offset (sentence.written ++ rest) =
      sentence.placed offset :: statementsFrom 0 0 none (offset + sentence.written.length) rest := by
  obtain ⟨margin, raw, laid, unbroken, dark, plain⟩ := sentence
  unfold Sentence.placed Sentence.written
  rw [List.append_assoc, statementsFrom_margin laid, List.length_append, ← Nat.add_assoc]
  generalize offset + margin.length = offset
  cases raw with
  | nil => exact absurd rfl unbroken.ne_nil
  | cons char more =>
      have none : comment (char :: (more ++ rest)) = .none := by
        cases more with
        | nil =>
            obtain ⟨front, ends⟩ := unbroken.ends
            have last := congrArg List.getLast? ends
            rw [List.getLast?_concat] at last
            obtain rfl : char = ';' := Option.some.inj last
            rfl
        | cons next more => exact comment_append_eq_none (List.cons_ne_nil _ _) plain rest
      have opened : statementsFrom 0 0 .none offset (char :: (more ++ rest)) =
          statementsFrom 0 0 (some ⟨offset, []⟩) offset (char :: (more ++ rest)) := by
        rw [statementsFrom, statementsFrom, commentLength_of_none none]
        have white : isBlank char = false := dark
        simp only [Option.isNone_none, white, Bool.and_false, Option.isNone_some]
        rfl
      have closed : (OpenStatement.pushAll (char :: more) ⟨offset, []⟩).close
          (offset + (char :: more).length) =
            ⟨offset, offset + (char :: more).length, (stripComments (char :: more)).trim⟩ := by
        have start := OpenStatement.start_pushAll ⟨offset, []⟩ (char :: more)
        have raw := OpenStatement.raw_pushAll ⟨offset, []⟩ (char :: more)
        unfold OpenStatement.raw at raw
        unfold OpenStatement.close
        rw [start, raw]
        rfl
      rw [List.cons_append, opened, ← List.cons_append, statementsFrom_unbroken unbroken, closed]
      rfl

def placedFrom : (offset : Nat) → List Sentence → List Statement
  | _, [] => []
  | offset, sentence :: others =>
    sentence.placed offset :: placedFrom (offset + sentence.written.length) others

def spelled (sentences : List Sentence) : Text := sentences.flatMap Sentence.written

theorem spelled_cons (sentence : Sentence) (others : List Sentence) :
    spelled (sentence :: others) = sentence.written ++ spelled others := List.flatMap_cons

theorem spelled_append (first rest : List Sentence) :
    spelled (first ++ rest) = spelled first ++ spelled rest := List.flatMap_append

/-- White space at the end of a text is not that of its sentences. -/
theorem trimEnd_spelled (sentences : List Sentence) (rest : Text) :
    Text.trimEnd (spelled sentences ++ rest) = spelled sentences ++ rest.trimEnd := by
  by_cases blank : Blank rest
  · rw [Text.trimEnd_append_blank blank, Text.trimEnd_blank blank, List.append_nil]
    by_cases filled : sentences = []
    · rw [filled]
      rfl
    · obtain ⟨front, last, rfl⟩ : ∃ front last, sentences = front ++ [last] :=
        ⟨_, _, (List.dropLast_concat_getLast filled).symm⟩
      obtain ⟨stem, ends⟩ := last.unbroken.ends
      have semicolon : ¬ Blank [';'] := fun white =>
        absurd (white ';' List.mem_cons_self) (by decide)
      have split : spelled (front ++ [last]) = (spelled front ++ (last.margin ++ stem)) ++ [';'] := by
        rw [spelled_append, spelled_cons, Sentence.written, ends]
        simp [spelled]
      rw [split, Text.trimEnd_append_of_not_blank semicolon]
      rfl
  · exact Text.trimEnd_append_of_not_blank blank _

theorem statementsFrom_spelled (sentences : List Sentence) (offset : Nat) (rest : Text) :
    statementsFrom 0 0 none offset (spelled sentences ++ rest) =
      placedFrom offset sentences ++
        statementsFrom 0 0 none (offset + (spelled sentences).length) rest := by
  induction sentences generalizing offset with
  | nil => rfl
  | cons sentence others ih =>
      rw [spelled_cons, List.append_assoc, statementsFrom_sentence, ih, List.length_append,
        Nat.add_assoc]
      rfl

theorem statements_spelled (sentences : List Sentence) {rest : Text} (laid : LastMargin rest) :
    statements (spelled sentences ++ rest) = placedFrom 0 sentences := by
  unfold statements
  rw [statementsFrom_spelled, statementsFrom_lastMargin laid, List.append_nil]

theorem placedFrom_append (offset : Nat) (first rest : List Sentence) :
    placedFrom offset (first ++ rest) =
      placedFrom offset first ++ placedFrom (offset + (spelled first).length) rest := by
  induction first generalizing offset with
  | nil => rfl
  | cons sentence first ih =>
      rw [List.cons_append, placedFrom, placedFrom, ih, spelled_cons, List.length_append,
        Nat.add_assoc]
      rfl

theorem exists_of_mem_placedFrom {offset : Nat} {sentences : List Sentence} {statement : Statement}
    (member : statement ∈ placedFrom offset sentences) :
    ∃ sentence ∈ sentences, statement.text = sentence.text := by
  induction sentences generalizing offset with
  | nil => cases member
  | cons sentence others ih =>
      rcases List.mem_cons.mp member with rfl | later
      · exact ⟨sentence, List.mem_cons_self, rfl⟩
      · obtain ⟨other, known, same⟩ := ih later
        exact ⟨other, List.mem_cons_of_mem _ known, same⟩

theorem stop_placedFrom {sentences : List Sentence} (filled : sentences ≠ []) (offset : Nat) :
    (placedFrom offset sentences).getLast?.map Statement.stop =
      some (offset + (spelled sentences).length) := by
  obtain ⟨front, last, rfl⟩ : ∃ front last, sentences = front ++ [last] :=
    ⟨_, _, (List.dropLast_concat_getLast filled).symm⟩
  have split : spelled (front ++ [last]) = spelled front ++ last.written := by
    rw [spelled_append, spelled_cons]
    exact congrArg (spelled front ++ ·) (List.append_nil _)
  rw [placedFrom_append, split, List.length_append, ← Nat.add_assoc]
  change ((placedFrom offset front ++ [last.placed (offset + (spelled front).length)]).getLast?).map
    Statement.stop = _
  rw [List.getLast?_concat]
  rfl

end Code
end ShaderBridge
