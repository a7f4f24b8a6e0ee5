import ShaderBridge.Proofs.Code.Statement
import ShaderBridge.Proofs.Text.Trim
set_option autoImplicit false

/-! How a text divides into statements. The scan for statements counts off the characters of a
comment one by one and looks ahead to the end of it; `Divided` takes each comment in one step, and
says of every other character whether it ends a statement, joins one or stands between two. The
statements of a text divide it (`divided_statements`), and so does the rest of the text behind each
of them (`Divided.behind`). -/

namespace ShaderBridge
namespace Code

def OpenStatement.raw (current : OpenStatement) : Text := current.reversed.reverse

def OpenStatement.pushAll (stretch : Text) (current : OpenStatement) : OpenStatement :=
  stretch.foldl (fun current char => current.push char) current

/-- The text divides into statements from a depth on, behind a statement begun or between two. -/
inductive Divided : (depth : Int) → (current : Option OpenStatement) → (offset : Nat) → Text →
    List Statement → Prop where
  | done {depth : Int} {offset : Nat} : Divided depth none offset [] []
  | last {depth : Int} {current : OpenStatement} {offset : Nat} :
      Divided depth (some current) offset [] [current.close offset]
  | comment {depth : Int} {current : Option OpenStatement} {offset : Nat} {stretch rest : Text}
      {statements : List Statement} :
      comment (stretch ++ rest) = some rest → stretch ≠ [] →
        Divided depth (current.map (·.pushAll stretch)) (offset + stretch.length) rest statements →
          Divided depth current offset (stretch ++ rest) statements
  | blank {depth : Int} {offset : Nat} {char : Char} {text : Text} {statements : List Statement} :
      isBlank char = true → Divided depth none (offset + 1) text statements →
        Divided depth none offset (char :: text) statements
  | ended {depth : Int} {current : Option OpenStatement} {offset : Nat} {char : Char} {text : Text}
      {statements : List Statement} :
      Code.comment (char :: text) = none → (current = none → isBlank char = false) →
        endsStatement char (depthAfter char depth) text = true →
          Divided (depthAfter char depth) none (offset + 1) text statements →
            Divided depth current offset (char :: text)
              (((current.getD ⟨offset, []⟩).push char).close (offset + 1) :: statements)
  | grown {depth : Int} {current : Option OpenStatement} {offset : Nat} {char : Char} {text : Text}
      {statements : List Statement} :
      Code.comment (char :: text) = none → (current = none → isBlank char = false) →
        endsStatement char (depthAfter char depth) text = false →
          Divided (depthAfter char depth) (some ((current.getD ⟨offset, []⟩).push char)) (offset + 1)
            text statements →
            Divided depth current offset (char :: text) statements

namespace OpenStatement

theorem raw_push (current : OpenStatement) (char : Char) :
    (current.push char).raw = current.raw ++ [char] := List.reverse_cons

theorem raw_pushAll (current : OpenStatement) (stretch : Text) :
    (current.pushAll stretch).raw = current.raw ++ stretch := by
  induction stretch generalizing current with
  | nil => exact (List.append_nil _).symm
  | cons char stretch ih =>
      change ((current.push char).pushAll stretch).raw = _
      rw [ih, raw_push, List.append_assoc, List.singleton_append]

theorem start_pushAll (current : OpenStatement) (stretch : Text) :
    (current.pushAll stretch).start = current.start := by
  induction stretch generalizing current with
  | nil => rfl
  | cons char stretch ih => exact ih (current.push char)

/-- The statement begins with a character that is neither white space nor opens a comment. -/
def Solid (current : OpenStatement) (text : Text) : Prop :=
  ∃ char more, current.raw = char :: more ∧ isBlank char = false ∧
    comment (char :: (more ++ text)) = none

end OpenStatement

theorem sound_closeBlock : Scan.Sound closeBlock := by
  intro text rest found
  induction text using closeBlock.induct with
  | case1 =>
      cases found
      exact List.suffix_refl _
  | case2 text =>
      cases found
      exact (List.suffix_cons _ _).trans (List.suffix_cons _ _)
  | case3 char text other ih =>
      rw [closeBlock] at found
      · exact (ih found).trans (List.suffix_cons _ _)
      · exact other

theorem comment_eq_some {text rest : Text} (found : comment text = some rest) :
    ∃ stretch, text = stretch ++ rest ∧ stretch ≠ [] ∧ commentLength text = stretch.length := by
  have counted : ∀ {stretch : Text}, text = stretch ++ rest →
      commentLength text = stretch.length := by
    intro stretch same
    unfold commentLength
    rw [found, same]
    simp only [List.length_append, Nat.add_sub_cancel]
  have split : ∃ stretch, text = stretch ++ rest ∧ stretch ≠ [] := by
    unfold comment at found
    split at found
    · next text =>
        obtain ⟨read, same⟩ := Scan.sound_restOfLine text rest found
        exact ⟨'/' :: '/' :: read, by rw [← same]; rfl, List.cons_ne_nil _ _⟩
    · next text =>
        obtain ⟨read, same⟩ := sound_closeBlock text rest found
        exact ⟨'/' :: '*' :: read, by rw [← same]; rfl, List.cons_ne_nil _ _⟩
    · cases found
  obtain ⟨stretch, same, filled⟩ := split
  exact ⟨stretch, same, filled, counted same⟩

theorem commentLength_of_none {text : Text} (none : comment text = none) :
    commentLength text = 0 := by
  unfold commentLength
  rw [none]

theorem comment_eq_none_iff {char : Char} {text : Text} :
    comment (char :: text) = none ↔
      char = '/' → text.head? ≠ some '/' ∧ text.head? ≠ some '*' := by
  constructor
  · rintro none rfl
    cases text with
    | nil => exact ⟨nofun, nofun⟩
    | cons next text =>
        refine ⟨?_, ?_⟩
        · intro same
          obtain rfl := Option.some.inj same
          cases none
        · intro same
          obtain rfl := Option.some.inj same
          have closes : ∀ text : Text, closeBlock text ≠ Option.none := by
            intro text
            induction text using closeBlock.induct with
            | case1 => exact nofun
            | case2 text => exact nofun
            | case3 char text other ih =>
                rw [closeBlock]
                · exact ih
                · exact other
          exact absurd none (closes text)
  · intro apart
    unfold comment
    split
    · next text same =>
        obtain ⟨rfl, rfl⟩ := List.cons.inj same
        exact absurd rfl (apart rfl).1
    · next text same =>
        obtain ⟨rfl, rfl⟩ := List.cons.inj same
        exact absurd rfl (apart rfl).2
    · rfl

private theorem literal_slash_eq_none {char mark : Char} {text : Text}
    (apart : char = '/' → text.head? ≠ some mark) : Scan.literal ['/', mark] (char :: text) = none := by
  refine Option.eq_none_iff_forall_ne_some.mpr fun rest found => ?_
  obtain ⟨slash, second⟩ := List.cons.inj (Scan.literal_eq_some_iff.mp found)
  exact apart slash (second ▸ rfl)

theorem blockComment_pieces_cons {char : Char} {text : Text}
    (apart : char = '/' → text.head? ≠ some '*') :
    blockComment.pieces (char :: text) = .kept char :: blockComment.pieces text :=
  Pattern.pieces_anywhere_cons (congrArg (Option.bind · closeBlock?) (literal_slash_eq_none apart))

theorem lineComment_pieces_cons {char : Char} {text : Text}
    (apart : char = '/' → text.head? ≠ some '/') :
    lineComment.pieces (char :: text) = .kept char :: lineComment.pieces text :=
  Pattern.pieces_anywhere_cons (congrArg (Option.bind · Scan.restOfLine) (literal_slash_eq_none apart))

theorem remove_blockComment_cons {char : Char} {text : Text}
    (apart : char = '/' → text.head? ≠ some '*') :
    blockComment.remove (char :: text) = char :: blockComment.remove text :=
  congrArg (List.flatMap _) (blockComment_pieces_cons apart)

theorem head_remove_blockComment {char : Char} {text : Text} (none : comment (char :: text) = none) :
    char = '/' → (blockComment.remove text).head? ≠ some '/' := by
  intro slash
  have apart := comment_eq_none_iff.mp none slash
  cases text with
  | nil => exact nofun
  | cons next text =>
      have other : next = '/' → text.head? ≠ some '*' := fun same => absurd (congrArg some same) apart.1
      rw [remove_blockComment_cons other]
      exact apart.1

private theorem stripComments_cons {char : Char} {text : Text}
    (none : comment (char :: text) = none) :
    ∃ rest, stripComments (char :: text) = char :: rest := by
  refine ⟨lineComment.remove (blockComment.remove text), ?_⟩
  unfold stripComments
  rw [remove_blockComment_cons fun slash => (comment_eq_none_iff.mp none slash).2]
  exact congrArg (List.flatMap _) (lineComment_pieces_cons (head_remove_blockComment none))

theorem OpenStatement.Solid.text_close {current : OpenStatement} (solid : current.Solid [])
    (offset : Nat) : (current.close offset).text.isEmpty = false := by
  obtain ⟨char, more, same, dark, none⟩ := solid
  rw [List.append_nil] at none
  obtain ⟨rest, kept⟩ := stripComments_cons none
  have stripped : (current.close offset).text = (stripComments current.raw).trim := rfl
  rw [stripped, same, kept]
  refine Bool.eq_false_iff.mpr fun empty => ?_
  have blank := Text.trim_eq_nil_iff.mp (List.isEmpty_iff.mp empty)
  exact absurd (dark.symm.trans (blank char List.mem_cons_self)) nofun

private theorem statementsFrom_skip (depth : Int) (current : Option OpenStatement) (offset : Nat)
    (stretch rest : Text) :
    statementsFrom stretch.length depth current offset (stretch ++ rest) =
      statementsFrom 0 depth (current.map (·.pushAll stretch)) (offset + stretch.length) rest := by
  induction stretch generalizing current offset with
  | nil =>
      have same : current.map (·.pushAll []) = current := Option.map_id'
      rw [same]
      rfl
  | cons char stretch ih =>
      rw [List.length_cons, List.cons_append, statementsFrom, ih, Option.map_map, Nat.add_assoc,
        Nat.add_comm 1]
      rfl

/-- A comment goes into the statement begun and does nothing else. -/
theorem statementsFrom_comment {depth : Int} {current : Option OpenStatement} {offset : Nat}
    {stretch rest : Text} (found : comment (stretch ++ rest) = some rest) (filled : stretch ≠ []) :
    statementsFrom 0 depth current offset (stretch ++ rest) =
      statementsFrom 0 depth (current.map (·.pushAll stretch)) (offset + stretch.length) rest := by
  obtain ⟨read, same, _filled, long⟩ := comment_eq_some found
  obtain rfl := List.append_cancel_right same
  rw [← statementsFrom_skip]
  cases stretch with
  | nil => exact absurd rfl filled
  | cons char stretch =>
      rw [List.length_cons] at long ⊢
      rw [List.cons_append] at long ⊢
      conv_lhs => rw [statementsFrom, long]
      conv_rhs => rw [statementsFrom]

theorem divided_statementsFrom (depth : Int) (current : Option OpenStatement) (offset : Nat)
    (text : Text) (solid : ∀ begun ∈ current, begun.Solid text) :
    Divided depth current offset text (statementsFrom 0 depth current offset text) := by
  have unbegun : ∀ rest : Text, ∀ begun ∈ (none : Option OpenStatement), begun.Solid rest := by
    intro rest begun member
    cases member
  -- A statement that is begun has to be solid: it may be all that is left at the end.
  cases text with
  | nil =>
      cases current with
      | none => exact .done
      | some current =>
          have whole : statementsFrom 0 depth (some current) offset [] = [current.close offset] := by
            have filled := (solid current rfl).text_close offset
            rw [statementsFrom]
            simp only [filled, Bool.false_eq_true, if_false]
          rw [whole]
          exact .last
  | cons char text =>
      cases found : comment (char :: text) with
      | some rest =>
          obtain ⟨stretch, same, filled, _long⟩ := comment_eq_some found
          have shorter : rest.length < (char :: text).length := by
            have split := congrArg List.length same
            have positive := List.length_pos_iff.mpr filled
            rw [List.length_append] at split
            omega
          rw [same, statementsFrom_comment (same ▸ found) filled]
          refine .comment (same ▸ found) filled (divided_statementsFrom _ _ _ _ ?_)
          intro begun member
          obtain ⟨source, opened, rfl⟩ := Option.map_eq_some_iff.mp member
          obtain ⟨first, more, whole, dark, none⟩ := solid source opened
          refine ⟨first, more ++ stretch, ?_, dark, ?_⟩
          · rw [OpenStatement.raw_pushAll, whole]
            rfl
          · rwa [List.append_assoc, ← same]
      | none =>
          have plain := commentLength_of_none found
          rw [statementsFrom, plain]
          simp only
          split
          · next idle =>
              obtain ⟨empty, white⟩ := Bool.and_eq_true_iff.mp idle
              rw [Option.isNone_iff_eq_none.mp empty]
              exact .blank white (divided_statementsFrom _ _ _ _ (unbegun _))
          · next busy =>
              have dark : current = .none → isBlank char = false := by
                rintro rfl
                exact Bool.eq_false_iff.mpr busy
              split
              · next ends =>
                  exact .ended found dark ends (divided_statementsFrom _ _ _ _ (unbegun _))
              · next ends =>
                  refine .grown found dark (Bool.eq_false_iff.mpr ends)
                    (divided_statementsFrom _ _ _ _ ?_)
                  intro begun member
                  obtain rfl := Option.some.inj member
                  unfold OpenStatement.Solid
                  rw [OpenStatement.raw_push]
                  cases current with
                  | none => exact ⟨char, [], rfl, dark rfl, found⟩
                  | some current =>
                      obtain ⟨first, more, whole, dark, none⟩ := solid current rfl
                      refine ⟨first, more ++ [char], ?_, dark, ?_⟩
                      · rw [Option.getD_some, whole]
                        rfl
                      · rwa [List.append_assoc]
termination_by text.length

theorem divided_statements (text : Text) : Divided 0 none 0 text (statements text) :=
  divided_statementsFrom 0 none 0 text nofun

/-- A statement that is begun comes first and keeps its start. -/
theorem Divided.start_head {depth : Int} {begun : OpenStatement} {offset : Nat} {text : Text}
    {first : Statement} {others : List Statement}
    (divided : Divided depth (some begun) offset text (first :: others)) :
    first.start = begun.start := by
  generalize held : some begun = current at divided
  generalize same : first :: others = statements at divided
  induction divided generalizing begun with
  | done => cases held
  | last =>
      cases held
      cases same
      rfl
  | comment _found _filled _divided ih =>
      cases held
      rw [ih rfl same, OpenStatement.start_pushAll]
  | blank _white _divided _ih => cases held
  | ended _plain _dark _ends _divided _ih =>
      cases held
      cases same
      rfl
  | grown _plain _dark _goesOn _divided ih =>
      cases held
      have later := ih rfl same
      exact later

/-- Behind a statement the rest of the text divides into the statements after it. -/
theorem Divided.behind {depth : Int} {current : Option OpenStatement} {offset : Nat} {text : Text}
    {statements : List Statement} (divided : Divided depth current offset text statements)
    {before after : List Statement} {statement : Statement}
    (split : statements = before ++ statement :: after) :
    ∃ passed rest, text = passed ++ rest ∧ statement.stop = offset + passed.length ∧
      Divided 0 none statement.stop rest after := by
  induction divided generalizing before with
  | done => exact absurd split.symm (List.append_ne_nil_of_right_ne_nil before (List.cons_ne_nil _ _))
  | @last _depth current offset =>
      cases before with
      | nil =>
          obtain ⟨rfl, rfl⟩ := List.cons.inj split
          exact ⟨[], [], rfl, rfl, .done⟩
      | cons first before =>
          exact absurd (List.cons.inj split).2.symm
            (List.append_ne_nil_of_right_ne_nil before (List.cons_ne_nil _ _))
  | @comment _depth _current offset stretch rest _statements _found _filled _divided ih =>
      obtain ⟨passed, behind, rfl, stop, later⟩ := ih split
      refine ⟨stretch ++ passed, behind, (List.append_assoc _ _ _).symm, ?_, later⟩
      rw [stop, List.length_append, Nat.add_assoc]
  | @blank _depth offset char _text _statements _white _divided ih =>
      obtain ⟨passed, behind, rfl, stop, later⟩ := ih split
      refine ⟨char :: passed, behind, rfl, ?_, later⟩
      rw [stop, List.length_cons]
      omega
  | @ended depth _current offset char text _statements _plain _dark ends divided ih =>
      cases before with
      | nil =>
          obtain ⟨rfl, rfl⟩ := List.cons.inj split
          have level : depthAfter char depth = 0 := eq_of_beq (Bool.and_eq_true_iff.mp ends).1
          rw [level] at divided
          exact ⟨[char], text, rfl, rfl, divided⟩
      | cons first before =>
          obtain ⟨passed, behind, rfl, stop, later⟩ := ih (List.cons.inj split).2
          refine ⟨char :: passed, behind, rfl, ?_, later⟩
          rw [stop, List.length_cons]
          omega
  | @grown _depth _current offset char _text _statements _plain _dark _goesOn _divided ih =>
      obtain ⟨passed, behind, rfl, stop, later⟩ := ih split
      refine ⟨char :: passed, behind, rfl, ?_, later⟩
      rw [stop, List.length_cons]
      omega

theorem continuesDeclaration_blank {char : Char} (white : isBlank char = true) (text : Text) :
    continuesDeclaration (char :: text) = continuesDeclaration text := by
  unfold continuesDeclaration Text.trimStart
  rw [List.dropWhile_cons_of_pos white]

theorem continuesDeclaration_dark {char : Char} (dark : isBlank char = false) (text : Text) :
    continuesDeclaration (char :: text) = true ↔ char = ';' ∨ char = ',' := by
  unfold continuesDeclaration Text.trimStart
  rw [List.dropWhile_cons_of_neg (Bool.eq_false_iff.mp dark)]
  constructor
  · intro continues
    split at continues
    · next same => exact .inl (List.cons.inj same).1
    · next same => exact .inr (List.cons.inj same).1
    · cases continues
  · rintro (rfl | rfl) <;> rfl

theorem not_isOpener_of_isCloser {char : Char} (closes : isCloser char = true) :
    isOpener char = false := by
  unfold isCloser at closes
  simp only [Bool.or_eq_true, beq_iff_eq] at closes
  rcases closes with (rfl | rfl) | rfl <;> decide

theorem depthAfter_opener {char : Char} (opens : isOpener char = true) (depth : Int) :
    depthAfter char depth = depth + 1 := by
  unfold depthAfter
  rw [if_pos opens]

theorem depthAfter_closer {char : Char} (closes : isCloser char = true) (depth : Int) :
    depthAfter char depth = depth - 1 := by
  unfold depthAfter
  rw [not_isOpener_of_isCloser closes, if_neg Bool.false_ne_true, if_pos closes]

theorem depthAfter_plain {char : Char} (opens : isOpener char = false) (closes : isCloser char = false)
    (depth : Int) : depthAfter char depth = depth := by
  unfold depthAfter
  rw [opens, closes, if_neg Bool.false_ne_true, if_neg Bool.false_ne_true]

theorem depthAfter_of_blank {char : Char} (white : isBlank char = true) (depth : Int) :
    depthAfter char depth = depth := by
  have apart : ∀ mark ∈ ['(', '[', '{', ')', ']', '}'], (char == mark) = false := by
    intro mark member
    refine beq_eq_false_iff_ne.mpr ?_
    rintro rfl
    have dark : ∀ mark ∈ ['(', '[', '{', ')', ']', '}'], isBlank mark = false := by decide
    exact absurd (white.symm.trans (dark char member)) nofun
  have opener : isOpener char = false := by
    unfold isOpener
    rw [apart '(' (by decide), apart '[' (by decide), apart '{' (by decide)]
    rfl
  have closer : isCloser char = false := by
    unfold isCloser
    rw [apart ')' (by decide), apart ']' (by decide), apart '}' (by decide)]
    rfl
  exact depthAfter_plain opener closer depth

namespace OpenStatement

def lead (begun : OpenStatement) : Text := begun.raw.takeWhile isWord

/-- Whether more than the leading word was read. -/
def ended (begun : OpenStatement) : Bool := begun.raw.any (!isWord ·)

theorem ended_push (begun : OpenStatement) (char : Char) :
    (begun.push char).ended = (begun.ended || !isWord char) := by
  unfold ended
  rw [raw_push, List.any_append, List.any_cons, List.any_nil, Bool.or_false]

theorem lead_of_not_ended {begun : OpenStatement} (open_ : begun.ended = false) :
    begun.lead = begun.raw := by
  refine List.takeWhile_eq_self_iff.mpr fun letter member => ?_
  have inside := List.any_eq_false.mp open_ letter member
  simpa using inside

theorem lead_append_of_ended {begun : OpenStatement} (ended : begun.ended = true) (rest : Text) :
    (begun.raw ++ rest).takeWhile isWord = begun.lead := by
  rw [List.takeWhile_append, if_neg]
  · rfl
  · intro long
    have whole := (List.takeWhile_prefix isWord).eq_of_length long
    obtain ⟨char, member, mark⟩ := List.any_eq_true.mp ended
    rw [List.takeWhile_eq_self_iff.mp whole char member] at mark
    cases mark

theorem lead_push (begun : OpenStatement) (char : Char) :
    (begun.push char).lead = if (begun.push char).ended then begun.lead else begun.lead ++ [char] := by
  cases ends : (begun.push char).ended with
  | false =>
      have before : begun.ended = false := (Bool.or_eq_false_iff.mp (ended_push begun char ▸ ends)).1
      rw [lead_of_not_ended ends, lead_of_not_ended before, raw_push]
      rfl
  | true =>
      rw [if_pos rfl, lead, raw_push]
      cases before : begun.ended with
      | true => exact lead_append_of_ended before [char]
      | false =>
          rw [ended_push, before, Bool.false_or] at ends
          have mark : ¬ isWord char = true := by simpa using ends
          have letters := lead_of_not_ended before
          have long : (begun.raw.takeWhile isWord).length = begun.raw.length :=
            congrArg List.length letters
          rw [List.takeWhile_append, if_pos long,
            List.takeWhile_cons_of_neg mark, List.append_nil, letters]

end OpenStatement

theorem comment_cases {stretch rest : Text} (found : comment (stretch ++ rest) = some rest) :
    (∃ line, stretch = '/' :: '/' :: line ∧ '\n' ∉ line ∧ ∀ char ∈ rest.head?, char = '\n') ∨
      ∃ inner, stretch = '/' :: '*' :: inner ∧ closeBlock (inner ++ rest) = some rest := by
  unfold comment at found
  split at found
  · next text same =>
      obtain ⟨line, flat, rfl, ends⟩ := Scan.zeroOrMore_eq_some_iff.mp found
      refine .inl ⟨line, List.append_cancel_right same, ?_, ?_⟩
      · exact fun member => absurd (flat _ member) (by decide)
      · intro char first
        rw [Option.mem_def.mp first] at ends
        simpa using ends
  · next text same =>
      obtain ⟨inner, rfl⟩ := sound_closeBlock text rest found
      exact .inr ⟨inner, List.append_cancel_right same, found⟩
  · cases found

theorem OpenStatement.pushAll_mark (begun : OpenStatement) {char : Char} (mark : isWord char = false)
    (stretch : Text) :
    (begun.pushAll (char :: stretch)).lead = begun.lead ∧
      (begun.pushAll (char :: stretch)).ended = true := by
  have ends : (begun.push char).ended = true := by
    rw [ended_push, mark]
    exact Bool.or_true _
  have raw : (begun.pushAll (char :: stretch)).raw = (begun.push char).raw ++ stretch :=
    raw_pushAll (begun.push char) stretch
  refine ⟨?_, ?_⟩
  · unfold lead
    rw [raw, lead_append_of_ended ends, lead_push, ends]
    rfl
  · unfold ended
    rw [raw, List.any_append]
    exact Bool.or_eq_true_iff.mpr (.inl ends)

def leadIn (text : Text) (statement : Statement) : Text :=
  (text.drop statement.start).takeWhile isWord

namespace OpenStatement

theorem begun_grown {current : Option OpenStatement} {front : Text} {offset : Nat}
    (long : front.length = offset) (begun : ∀ open_ ∈ current, open_.Begun front) (char : Char) :
    ((current.getD ⟨offset, []⟩).push char).Begun (front ++ [char]) := by
  refine Begun.push ?_ char
  cases current with
  | none =>
      rw [← long]
      exact begun_fresh front
  | some open_ => exact begun open_ rfl

theorem Begun.leadIn_close {current : OpenStatement} {char : Char} {front : Text}
    (begun : (current.push char).Begun (front ++ [char])) (mark : isWord char = false) (stop : Nat)
    (rest : Text) : leadIn (front ++ [char] ++ rest) ((current.push char).close stop) =
      (current.push char).lead := by
  obtain ⟨before, whole, start⟩ := begun
  have ended : (current.push char).ended = true := by
    rw [ended_push, mark]
    exact Bool.or_true _
  change ((front ++ [char] ++ rest).drop (current.push char).start).takeWhile isWord = _
  rw [whole, start, List.append_assoc, List.drop_left]
  exact lead_append_of_ended ended rest

end OpenStatement

theorem begun_pushAll {current : Option OpenStatement} {front : Text}
    (begun : ∀ open_ ∈ current, open_.Begun front) (stretch : Text) :
    ∀ open_ ∈ current.map (·.pushAll stretch), open_.Begun (front ++ stretch) := by
  intro open_ member
  obtain ⟨source, opened, rfl⟩ := Option.map_eq_some_iff.mp member
  obtain ⟨before, whole, start⟩ := begun source opened
  refine ⟨before, ?_, ?_⟩
  · have raw := source.raw_pushAll stretch
    unfold OpenStatement.raw at raw
    rw [raw, whole, List.append_assoc]
  · rw [OpenStatement.start_pushAll]
    exact start

theorem comment_of_blank {char : Char} (white : isBlank char = true) (text : Text) :
    comment (char :: text) = none := by
  refine comment_eq_none_iff.mpr ?_
  rintro rfl
  exact absurd white (by decide)

theorem mark_of_endsStatement {char : Char} {depth : Int} {text : Text}
    (ends : endsStatement char depth text = true) : isWord char = false := by
  rcases Bool.or_eq_true_iff.mp (Bool.and_eq_true_iff.mp ends).2 with semicolon | brace
  · rw [eq_of_beq semicolon]
    decide
  · rw [eq_of_beq (Bool.and_eq_true_iff.mp brace).1]
    decide

end Code
end ShaderBridge
