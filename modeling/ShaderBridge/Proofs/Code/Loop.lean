import ShaderBridge.Code.Bracket
import ShaderBridge.Code.Loop
import ShaderBridge.Proofs.Code.Counter
import ShaderBridge.Proofs.Text.Parts
import ShaderBridge.Proofs.Text.Search
set_option autoImplicit false

/-! What the bounding of loops does to a text, by the marks in it (`count_boundLoops`). Each endless
head that is bounded adds one less-than sign, other marks are left as they are or lost, and so a
text stays as it is just when its counters can be read and it holds no endless head
(`boundLoops_eq_self_iff`). -/

namespace ShaderBridge
namespace Code

open Attempt (bind_eq_ok_iff map_eq_ok_iff)
open Text (Blank Exchanged IsOneWord startsWord endsWord tokens words Lexed)

def headMarks : Text := " (=;<+)"

def InBoundedHead (char : Char) : Prop :=
  char ∈ ("for (int _loopIdx=<;+)" : Text) ∨ char.isDigit = true

instance (char : Char) : Decidable (InBoundedHead char) :=
  inferInstanceAs (Decidable (_ ∨ _))

private theorem header_iterationCeiling (counter : Nat) :
    header iterationCeiling counter = "for (int " ++ counterName counter ++ " = 0; " ++
      counterName counter ++ " < 10000; " ++ counterName counter ++ "++)" := by
  have limit : " < 10000; ".toList = " < " ++ Text.ofInt iterationCeiling ++ "; " := by
    decide +kernel
  unfold header
  rw [limit]
  simp only [List.append_assoc]

private theorem inBoundedHead_of_mem_counterName {counter : Nat} :
    ∀ char ∈ counterName counter, InBoundedHead char := by
  have stem : ∀ char ∈ counterStem, InBoundedHead char := by decide
  refine List.forall_mem_append.mpr ⟨stem, fun char digit => .inr ?_⟩
  exact Nat.isDigit_of_mem_toDigits (by decide) (by decide) digit

private theorem inBoundedHead_of_mem_header {counter : Nat} :
    ∀ char ∈ header iterationCeiling counter, InBoundedHead char := by
  have fixed : ∀ char ∈ ("for (int  = 0;  < 10000; ++)" : Text), InBoundedHead char := by decide
  have parts : ("for (int  = 0;  < 10000; ++)" : Text) =
      "for (int " ++ " = 0; " ++ " < 10000; " ++ "++)" := by decide
  rw [parts] at fixed
  simp only [List.forall_mem_append] at fixed
  obtain ⟨⟨⟨opening, zero⟩, limit⟩, step⟩ := fixed
  have named := @inBoundedHead_of_mem_counterName counter
  rw [header_iterationCeiling]
  simp only [List.forall_mem_append]
  exact ⟨⟨⟨⟨⟨⟨opening, named⟩, zero⟩, named⟩, limit⟩, named⟩, step⟩

private theorem count_header {counter : Nat} {mark : Char} (apart : isWord mark = false) :
    (header iterationCeiling counter).count mark =
      ("for (int  = 0;  < 10000; ++)" : Text).count mark := by
  have none : (counterName counter).count mark = 0 := List.count_eq_zero.mpr fun member =>
    absurd (apart.symm.trans ((oneWord_counterName counter).2 mark member)) nofun
  have parts : ("for (int  = 0;  < 10000; ++)" : Text) =
      "for (int " ++ " = 0; " ++ " < 10000; " ++ "++)" := by decide
  rw [header_iterationCeiling, parts]
  simp only [List.count_append, none]
  omega

private theorem count_boundPieces {mark : Char} (apart : isWord mark = false) {pieces : List Piece}
    {counter : Nat} {text : Text}
    (bounded : boundPieces iterationCeiling counter pieces = .ok text) :
    let heads := pieces.filterMap fun
      | .found text => some text
      | .kept _ => none
    text.count mark + (heads.map (List.count mark)).sum =
      (pieces.flatMap Piece.text).count mark +
        heads.length * ("for (int  = 0;  < 10000; ++)" : Text).count mark := by
  induction pieces generalizing counter text with
  | nil =>
      cases bounded
      simp
  | cons piece pieces ih =>
      cases piece with
      | kept char =>
          obtain ⟨rest, later, rfl⟩ := map_eq_ok_iff.mp bounded
          have inner := ih later
          simp only [List.filterMap_cons, List.flatMap_cons, Piece.text, List.count_append,
            List.count_cons, List.count_nil] at inner ⊢
          omega
      | found stretch =>
          obtain ⟨head, made, rest⟩ := bind_eq_ok_iff.mp bounded
          obtain ⟨behind, later, same⟩ := bind_eq_ok_iff.mp rest
          cases same
          have inner := ih later
          obtain rfl := eq_header_of_boundedHead made
          have gained := @count_header counter _ apart
          simp only [List.filterMap_cons, List.flatMap_cons, Piece.text, List.count_append,
            List.map_cons, List.sum_cons, List.length_cons, Nat.add_mul] at inner ⊢
          omega

/-- A bounded text has the marks of the text, less those of the endless heads, and with those of a
bounded head for each. -/
theorem count_boundLoops {mark : Char} (apart : isWord mark = false) {text bounded : Text}
    (done : boundLoops iterationCeiling text = .ok bounded) :
    bounded.count mark + ((endlessHead.occurrences text).map (List.count mark)).sum =
      text.count mark + (endlessHead.occurrences text).length *
        ("for (int  = 0;  < 10000; ++)" : Text).count mark := by
  obtain ⟨free, _read, pieces⟩ := bind_eq_ok_iff.mp done
  have counted := count_boundPieces apart pieces
  rw [Pattern.text_pieces] at counted
  exact counted

private theorem count_of_not_mem_headMarks {mark : Char} (apart : isWord mark = false)
    (other : mark ∉ headMarks) : ("for (int  = 0;  < 10000; ++)" : Text).count mark = 0 :=
  count_eq_zero_of_marks apart other (by decide)

theorem count_boundLoops_le {mark : Char} (apart : isWord mark = false) (other : mark ∉ headMarks)
    {text bounded : Text} (done : boundLoops iterationCeiling text = .ok bounded) :
    bounded.count mark ≤ text.count mark := by
  have counted := count_boundLoops apart done
  rw [count_of_not_mem_headMarks apart other] at counted
  omega

def InEndlessHead (char : Char) : Prop :=
  char ∈ ("forwhiletrue1();" : Text) ∨ isBlank char = true

instance (char : Char) : Decidable (InEndlessHead char) :=
  inferInstanceAs (Decidable (_ ∨ _))

private theorem within_headLiteral {expected : Text}
    (each : ∀ char ∈ expected, char ∈ ("forwhiletrue1();" : Text)) :
    Scan.Within InEndlessHead (Scan.literal expected) :=
  Scan.within_literal fun char member => .inl (each char member)

private theorem within_blanks : Scan.Within InEndlessHead Scan.blanks :=
  Scan.within_zeroOrMore fun _char white => .inr white

private theorem within_endlessFor : endlessFor.Within InEndlessHead :=
  (within_headLiteral (by decide)).andThen (within_blanks.andThen ((within_headLiteral (by decide)).andThen
    (within_blanks.andThen ((within_headLiteral (by decide)).andThen (within_blanks.andThen
      ((within_headLiteral (by decide)).andThen (within_blanks.andThen
        (within_headLiteral (by decide)))))))))

private theorem within_endlessWhile : endlessWhile.Within InEndlessHead :=
  (within_headLiteral (by decide)).andThen (within_blanks.andThen ((within_headLiteral (by decide)).andThen
    (within_blanks.andThen
      (((within_headLiteral (by decide)).orElse (within_headLiteral (by decide))).andThen
        (within_blanks.andThen ((within_headLiteral (by decide)).andThen
          (Scan.within_notBefore _)))))))

private theorem consumes_endlessFor : endlessFor.Consumes :=
  (Scan.consumes_literal (by decide)).andThen (Scan.sound_blanks.andThen
    ((Scan.sound_literal _).andThen (Scan.sound_blanks.andThen ((Scan.sound_literal _).andThen
      (Scan.sound_blanks.andThen ((Scan.sound_literal _).andThen (Scan.sound_blanks.andThen
        (Scan.sound_literal _))))))))

private theorem consumes_endlessWhile : endlessWhile.Consumes := by
  have condition := Scan.consumes_orElse
    (Scan.consumes_literal (by decide : "true".toList ≠ []))
    (Scan.consumes_literal (by decide : "1".toList ≠ []))
  exact (Scan.consumes_literal (by decide)).andThen (Scan.sound_blanks.andThen
    ((Scan.sound_literal _).andThen (Scan.sound_blanks.andThen (condition.sound.andThen
      (Scan.sound_blanks.andThen ((Scan.sound_literal _).andThen (Scan.sound_notBefore _)))))))

theorem consumes_endless : (Scan.orElse endlessFor endlessWhile).Consumes :=
  Scan.consumes_orElse consumes_endlessFor consumes_endlessWhile

theorem sound_endlessHead : endlessHead.Sound := Pattern.sound_notAfter isWord consumes_endless

private theorem inEndlessHead_of_matched {before : Option Char} {stretch rest : Text}
    (found : endlessHead before (stretch ++ rest) = some stretch.length) :
    ∀ char ∈ stretch, InEndlessHead char :=
  Pattern.within_of_matched consumes_endless.sound
    (within_endlessFor.orElse within_endlessWhile) found

/-- A mark that stands in no endless head is kept, and comes in with the bounded heads. -/
theorem count_boundLoops_of_apart {mark : Char} (apart : isWord mark = false)
    (dark : isBlank mark = false) (other : mark ∉ ("();" : Text)) {text bounded : Text}
    (done : boundLoops iterationCeiling text = .ok bounded) :
    bounded.count mark = text.count mark + (endlessHead.occurrences text).length *
      ("for (int  = 0;  < 10000; ++)" : Text).count mark := by
  have none : ((endlessHead.occurrences text).map (List.count mark)).sum = 0 := by
    refine List.sum_eq_zero fun count member => ?_
    obtain ⟨stretch, occurs, rfl⟩ := List.mem_map.mp member
    obtain ⟨last, rest, found⟩ :=
      (Pattern.cut_pieces sound_endlessHead text).matched (Pattern.mem_occurrences.mp occurs)
    have letters : ∀ char ∈ ("forwhiletrue1();" : Text),
        isWord char = true ∨ char ∈ ("();" : Text) := by
      decide
    refine List.count_eq_zero.mpr fun held => ?_
    rcases inEndlessHead_of_matched found mark held with here | white
    · rcases letters mark here with letter | bracket
      · exact absurd (apart.symm.trans letter) nofun
      · exact other bracket
    · exact absurd (dark.symm.trans white) nofun
  have counted := count_boundLoops apart done
  rwa [none, Nat.add_zero] at counted

theorem count_boundLoops_eq {mark : Char} (apart : isWord mark = false)
    (dark : isBlank mark = false) (other : mark ∉ headMarks) {text bounded : Text}
    (done : boundLoops iterationCeiling text = .ok bounded) :
    bounded.count mark = text.count mark := by
  have within : ∀ char ∈ ("();" : Text), char ∈ headMarks := by decide
  rw [count_boundLoops_of_apart apart dark (fun member => other (within mark member)) done,
    count_of_not_mem_headMarks apart other, Nat.mul_zero, Nat.add_zero]

theorem count_less_boundLoops {text bounded : Text}
    (done : boundLoops iterationCeiling text = .ok bounded) :
    bounded.count '<' = text.count '<' + (endlessHead.occurrences text).length := by
  have counted :=
    count_boundLoops_of_apart (by decide : isWord '<' = false) (by decide) (by decide) done
  have single : ("for (int  = 0;  < 10000; ++)" : Text).count '<' = 1 := by decide
  rwa [single, Nat.mul_one] at counted

theorem boundPieces_kept_append (ceiling : Int) (counter : Nat) (text : Text)
    (pieces : List Piece) :
    boundPieces ceiling counter (text.map .kept ++ pieces) =
      (boundPieces ceiling counter pieces).map (text ++ ·) := by
  induction text with
  | nil =>
      cases made : boundPieces ceiling counter pieces <;>
        simp [made, Except.map]
  | cons char text ih =>
      rw [List.map_cons, List.cons_append, boundPieces, ih]
      cases boundPieces ceiling counter pieces <;> rfl

/-- Bounding leaves a text alone when its counters can be read and it holds no endless head, and
only then. -/
theorem boundLoops_eq_self_iff {text : Text} :
    boundLoops iterationCeiling text = .ok text ↔
      (∃ free, freeCounter text = .ok free) ∧ endlessHead.occurrences text = [] := by
  constructor
  · intro done
    obtain ⟨free, read, _pieces⟩ := bind_eq_ok_iff.mp done
    have counted := count_less_boundLoops done
    exact ⟨⟨free, read⟩, List.length_eq_zero_iff.mp (by omega)⟩
  · rintro ⟨⟨free, read⟩, none⟩
    have absent := Pattern.absent_of_occurrences sound_endlessHead fun stretch =>
      none ▸ List.not_mem_nil
    have pieces : endlessHead.pieces text = text.map .kept := Pattern.piecesFrom_of_absent absent
    refine bind_eq_ok_iff.mpr ⟨free, read, ?_⟩
    have whole := boundPieces_kept_append iterationCeiling free text []
    rw [List.append_nil] at whole
    rw [pieces, whole, boundPieces]
    exact congrArg Except.ok (List.append_nil text)

private theorem endsIn_endless :
    (Scan.orElse endlessFor endlessWhile).EndsIn fun char => isWord char = false := by
  have closing : (Scan.literal ")").EndsIn fun char => isWord char = false :=
    Scan.endsIn_literal (show ")".toList = [] ++ [')'] by decide)
      (show isWord ')' = false by decide)
  have condition := Scan.consumes_orElse
    (Scan.consumes_literal (by decide : "true".toList ≠ []))
    (Scan.consumes_literal (by decide : "1".toList ≠ []))
  apply Scan.EndsIn.orElse
  · exact (Scan.sound_literal _).andThen_endsIn (Scan.sound_blanks.andThen_endsIn
      ((Scan.sound_literal _).andThen_endsIn (Scan.sound_blanks.andThen_endsIn
        ((Scan.sound_literal _).andThen_endsIn (Scan.sound_blanks.andThen_endsIn
          ((Scan.sound_literal _).andThen_endsIn (Scan.sound_blanks.andThen_endsIn closing)))))))
  · exact (Scan.sound_literal _).andThen_endsIn (Scan.sound_blanks.andThen_endsIn
      ((Scan.sound_literal _).andThen_endsIn (Scan.sound_blanks.andThen_endsIn
        (condition.sound.andThen_endsIn (Scan.sound_blanks.andThen_endsIn
          (closing.andThen_notBefore _))))))

private theorem apart_endlessHead : endlessHead.Apart :=
  Pattern.apart_atWordStart consumes_endless fun _stretch _rest found ends =>
    absurd ((endsIn_endless.not_endsWord found).symm.trans ends) nofun

private theorem startsWord_of_endless {text rest : Text}
    (found : Scan.orElse endlessFor endlessWhile text = some rest) : startsWord text = true := by
  rcases Scan.orElse_eq_some found with read | read
  · exact Scan.startsWord_of_literal (by decide) read
  · exact Scan.startsWord_of_literal (by decide) read

theorem not_bracket_of_not_mem {char : Char} (other : char ∉ ("([\x7b)]\x7d" : Text)) :
    isOpener char = false ∧ isCloser char = false := by
  simp only [String.reduceToList, List.mem_cons, List.not_mem_nil, or_false, not_or] at other
  obtain ⟨round, square, curly, roundEnd, squareEnd, curlyEnd⟩ := other
  simp [isOpener, isCloser, round, square, curly, roundEnd, squareEnd, curlyEnd]

theorem not_bracket {char : Char} (plain : isWord char = true ∨ isBlank char = true) :
    isOpener char = false ∧ isCloser char = false := by
  have marks : ∀ mark ∈ ("([\x7b)]\x7d" : Text), isWord mark = false ∧ isBlank mark = false := by
    decide
  refine not_bracket_of_not_mem fun member => ?_
  obtain ⟨apart, dark⟩ := marks char member
  rcases plain with letter | white
  · exact absurd (apart.symm.trans letter) nofun
  · exact absurd (dark.symm.trans white) nofun

structure LoopHead (head keyword blanks inner : Text) : Prop where
  whole : head = keyword ++ blanks ++ '(' :: (inner ++ [')'])
  keyword : keyword = "for" ∨ keyword = "while"
  blank : Blank blanks
  flat : ∀ char ∈ inner, isOpener char = false ∧ isCloser char = false

theorem LoopHead.tokens_eq {head keyword blanks inner : Text}
    (shape : LoopHead head keyword blanks inner) :
    tokens head =
      .word keyword :: (tokens blanks ++ .mark '(' :: (tokens inner ++ [.mark ')'])) := by
  have one : IsOneWord keyword := by
    rcases shape.keyword with rfl | rfl
    · exact ⟨by decide, by decide⟩
    · exact ⟨by decide, by decide⟩
  rw [shape.whole, Text.tokens_append_mark (by decide), Text.tokens_append_mark (by decide),
    Text.tokens_append fun _ends => shape.blank.startsWord, Text.tokens_of_oneWord one]
  rfl

def BoundsLoop (old new : List Token) : Prop :=
  ∃ stretch head, old = tokens stretch ∧ new = tokens head ∧
    (∃ keyword blanks inner, LoopHead stretch keyword blanks inner) ∧
    (∃ keyword blanks inner, LoopHead head keyword blanks inner) ∧
    (∀ char ∈ stretch, InEndlessHead char) ∧ ∀ char ∈ head, InBoundedHead char

private theorem loopHead_header (counter : Nat) :
    ∃ keyword blanks inner, LoopHead (header iterationCeiling counter) keyword blanks inner := by
  have flat : ∀ char ∈ counterName counter, isOpener char = false ∧ isCloser char = false :=
    fun char member => not_bracket (.inl ((oneWord_counterName counter).2 char member))
  have space : Blank " " := List.forall_mem_singleton.mpr (by decide : isBlank ' ' = true)
  rw [header_iterationCeiling]
  generalize counterName counter = name at flat ⊢
  refine ⟨"for", " ", "int " ++ name ++ " = 0; " ++ name ++ " < 10000; " ++ name ++ "++", ?_,
    .inl rfl, space, ?_⟩
  · simp
  · simp only [List.forall_mem_append]
    exact ⟨⟨⟨⟨⟨⟨by decide, flat⟩, by decide⟩, flat⟩, by decide⟩, flat⟩, by decide⟩

def LedBy (mark : Char) (text : Text) : Prop := ∃ gap rest, Blank gap ∧ text = gap ++ mark :: rest

theorem ledBy_iff {mark : Char} (dark : isBlank mark = false) {text : Text} :
    LedBy mark text ↔ (Scan.blanks >=> Scan.literal [mark]) text ≠ none := by
  rw [Option.ne_none_iff_exists']
  simp only [Scan.blanks_literal_eq_some_iff dark]
  exact exists_comm

/-- What is behind a character that is not white space does not count. -/
theorem ledBy_append_iff {mark other : Char} (dark : isBlank other = false) (front rest : Text) :
    LedBy mark (front ++ other :: rest) ↔ LedBy mark (front ++ [other]) := by
  constructor
  · rintro ⟨gap, more, blank, same⟩
    have absent : other ∉ gap := fun white => absurd (dark.symm.trans (blank other white)) nofun
    rw [List.append_cons] at same
    rcases List.append_eq_append_iff.mp same with ⟨between, split, _rest⟩ | ⟨between, split, opening⟩
    · exact absurd (split ▸ by simp) absent
    · cases between with
      | nil =>
          rw [List.append_nil] at split
          exact absurd (split ▸ by simp) absent
      | cons char between =>
          obtain ⟨rfl, _rest⟩ := List.cons.inj opening
          exact ⟨gap, between, blank, split⟩
  · rintro ⟨gap, more, blank, same⟩
    exact ⟨gap, more ++ rest, blank, by rw [List.append_cons, same]; simp⟩

theorem ledBy_append_of_ne {mark other : Char} (dark : isBlank other = false) (apart : other ≠ mark)
    (front rest : Text) : LedBy mark (front ++ other :: rest) ↔ LedBy mark front := by
  rw [ledBy_append_iff dark]
  constructor
  · rintro ⟨gap, more, blank, same⟩
    rcases List.eq_nil_or_concat more with rfl | ⟨more, char, rfl⟩
    · obtain ⟨_same, last⟩ := List.append_inj' same rfl
      exact absurd (List.cons.inj last).1 apart
    · rw [List.concat_eq_append, ← List.cons_append, ← List.append_assoc] at same
      exact ⟨gap, more, blank, (List.append_inj' same rfl).1⟩
  · rintro ⟨gap, more, blank, rfl⟩
    exact ⟨gap, more ++ [other], blank, List.append_assoc _ _ _⟩

theorem blanks_literal_eq_some (mark : Char) {next : Scan} {text rest : Text}
    (found : (Scan.blanks >=> Scan.literal [mark] >=> next) text = some rest) :
    ∃ white behind, Blank white ∧ text = white ++ mark :: behind ∧ next behind = some rest := by
  obtain ⟨between, read, more⟩ := Scan.andThen_eq_some_iff.mp found
  obtain ⟨behind, marked, last⟩ := Scan.andThen_eq_some_iff.mp more
  obtain ⟨white, blank, same, _outside⟩ := Scan.zeroOrMore_eq_some_iff.mp read
  rw [Scan.literal_eq_some_iff.mp marked] at same
  exact ⟨white, behind, blank, same, last⟩

private theorem loopHead_of_endless {stretch rest : Text}
    (found : Scan.orElse endlessFor endlessWhile (stretch ++ rest) = some rest) :
    ∃ keyword blanks inner, LoopHead stretch keyword blanks inner := by
  have flat : ∀ {white : Text}, Blank white →
      ∀ char ∈ white, isOpener char = false ∧ isCloser char = false :=
    fun blank char member => not_bracket (.inr (blank char member))
  rcases Scan.orElse_eq_some found with read | read
  · obtain ⟨begun, named, read⟩ := Scan.andThen_eq_some_iff.mp read
    obtain ⟨blanks, opened, blank, first, read⟩ := blanks_literal_eq_some '(' read
    obtain ⟨white, condition, left, second, read⟩ := blanks_literal_eq_some ';' read
    obtain ⟨space, step, middle, third, read⟩ := blanks_literal_eq_some ';' read
    obtain ⟨closing, gap, read⟩ := Scan.andThen_eq_some_iff.mp read
    obtain ⟨gap, right, fourth, _outside⟩ := Scan.zeroOrMore_eq_some_iff.mp gap
    refine ⟨"for", blanks, white ++ ';' :: (space ++ ';' :: gap), ?_, .inl rfl, blank, ?_⟩
    · have whole := Scan.literal_eq_some_iff.mp named
      rw [first, second, third, fourth, Scan.literal_eq_some_iff.mp read] at whole
      refine List.append_cancel_right (?_ : _ = _ ++ rest)
      rw [whole]
      simp
    · simp only [List.forall_mem_append, List.forall_mem_cons]
      exact ⟨flat left, by decide, flat middle, by decide, flat right⟩
  · obtain ⟨begun, named, read⟩ := Scan.andThen_eq_some_iff.mp read
    obtain ⟨blanks, opened, blank, first, read⟩ := blanks_literal_eq_some '(' read
    obtain ⟨tested, spaced, read⟩ := Scan.andThen_eq_some_iff.mp read
    obtain ⟨white, left, second, _outside⟩ := Scan.zeroOrMore_eq_some_iff.mp spaced
    obtain ⟨behind, condition, read⟩ := Scan.andThen_eq_some_iff.mp read
    obtain ⟨gap, closing, right, third, read⟩ := blanks_literal_eq_some ')' read
    obtain ⟨ended, _missing⟩ := Scan.notBefore_eq_some_iff.mp read
    obtain ⟨test, fourth, letters⟩ : ∃ test : Text, tested = test ++ behind ∧
        ∀ char ∈ test, isWord char = true := by
      rcases Scan.orElse_eq_some condition with truth | one
      · exact ⟨"true", Scan.literal_eq_some_iff.mp truth, by decide⟩
      · exact ⟨"1", Scan.literal_eq_some_iff.mp one, by decide⟩
    refine ⟨"while", blanks, white ++ (test ++ gap), ?_, .inr rfl, blank, ?_⟩
    · have whole := Scan.literal_eq_some_iff.mp named
      rw [first, second, fourth, third, ← ended] at whole
      refine List.append_cancel_right (?_ : _ = _ ++ rest)
      rw [whole]
      simp
    · simp only [List.forall_mem_append]
      exact ⟨flat left, fun char member => not_bracket (.inl (letters char member)), flat right⟩

private theorem exchanged_boundPieces {before : Option Char} {parts : List Part} {counter : Nat}
    {bounded : Text} (parted : Pattern.Parted endlessHead before parts)
    (lexed : Lexed (parts.flatMap Part.tokens))
    (done : boundPieces iterationCeiling counter (parts.flatMap Part.pieces) = .ok bounded) :
    (startsWord bounded = true → startsWord (parts.flatMap Part.text) = true) ∧
      Exchanged BoundsLoop (parts.flatMap Part.tokens) (tokens bounded) := by
  induction parted generalizing counter bounded with
  | nil _none =>
      cases done
      exact ⟨id, .nil⟩
  | @kept before token parts _none _parted ih =>
      rw [List.flatMap_cons, Part.pieces, boundPieces_kept_append] at done
      obtain ⟨behind, later, rfl⟩ := map_eq_ok_iff.mp done
      rw [List.flatMap_cons, Part.tokens, List.singleton_append] at lexed
      obtain ⟨alone, rest, met⟩ := lexed.split_cons
      rw [Pattern.spell_partTokens] at met
      obtain ⟨begins, exchanged⟩ := ih rest later
      have filled := alone.spell_ne_nil (List.cons_ne_nil _ _)
      have single : tokens token.text = [token] := by
        have same := Text.tokens_spell alone
        rwa [Text.spell_cons, Text.spell_nil, List.append_nil] at same
      rw [Text.spell_cons, Text.spell_nil, List.append_nil] at filled
      rw [List.flatMap_cons, List.flatMap_cons, Part.text, Part.tokens]
      refine ⟨?_, ?_⟩
      · rw [Text.startsWord_append filled, Text.startsWord_append filled]
        exact id
      · have apart : endsWord token.text = true → startsWord behind = false := fun ends =>
          Bool.eq_false_iff.mpr fun starts => absurd ((met ends).symm.trans (begins starts)) Bool.false_ne_true
        rw [Text.tokens_append apart, single]
        exact .kept exchanged
  | @found before stretch parts _filled found _parted ih =>
      rw [List.flatMap_cons, Part.pieces, List.singleton_append] at done
      obtain ⟨head, made, rest⟩ := bind_eq_ok_iff.mp done
      obtain ⟨behind, later, same⟩ := bind_eq_ok_iff.mp rest
      cases same
      rw [List.flatMap_cons, Part.tokens] at lexed
      obtain ⟨_begins, exchanged⟩ := ih lexed.split.2.1 later
      obtain rfl := eq_header_of_boundedHead made
      have shape := loopHead_header counter
      have read := ((Pattern.notAfter_append_eq_some_iff consumes_endless.sound).mp found).2
      rw [List.flatMap_cons, List.flatMap_cons, Part.text, Part.tokens]
      refine ⟨fun _starts => startsWord_of_endless read, ?_⟩
      -- A head ends in a parenthesis, so it runs into no word behind it.
      have closed : endsWord (header iterationCeiling counter) = false := by
        obtain ⟨keyword, blanks, inner, whole, _keyword, _blank, _flat⟩ := shape
        rw [whole, ← List.cons_append, ← List.append_assoc, Text.endsWord_concat]
        decide
      rw [Text.tokens_append fun ends => absurd (closed.symm.trans ends) Bool.false_ne_true]
      refine .found ⟨stretch, _, rfl, rfl, loopHead_of_endless read, shape, ?_, ?_⟩ exchanged
      · exact inEndlessHead_of_matched found
      · exact inBoundedHead_of_mem_header

theorem exchanged_boundLoops {text bounded : Text}
    (done : boundLoops iterationCeiling text = .ok bounded) :
    Exchanged BoundsLoop (tokens text) (tokens bounded) := by
  obtain ⟨_free, _read, pieces⟩ := bind_eq_ok_iff.mp done
  obtain ⟨parts, parted, _texts, lexed, cuts⟩ :=
    Pattern.exists_parted apart_endlessHead none text nofun
  rw [Pattern.pieces, ← cuts] at pieces
  rw [← lexed]
  exact (exchanged_boundPieces parted (lexed ▸ Text.lexed_tokens text) pieces).2

theorem mem_words_boundLoops_iff {text bounded word : Text}
    (unread : ∃ char ∈ word, ¬ InEndlessHead char) (unwritten : ∃ char ∈ word, ¬ InBoundedHead char)
    (done : boundLoops iterationCeiling text = .ok bounded) :
    word ∈ words bounded ↔ word ∈ words text := by
  rw [Text.mem_words, Text.mem_words]
  refine (exchanged_boundLoops done).mem_iff fun old new change => ?_
  obtain ⟨stretch, head, rfl, rfl, _shape, _bounded, before, after⟩ := change
  obtain ⟨char, inside, other⟩ := unread
  obtain ⟨letter, within, apart⟩ := unwritten
  refine ⟨fun member => other (before char ?_), fun member => apart (after letter ?_)⟩
  · exact Text.mem_of_mem_words (Text.mem_words.mpr member) inside
  · exact Text.mem_of_mem_words (Text.mem_words.mpr member) within

private theorem infix_of_infix_header {needle front rest : Text} {counter : Nat}
    (slash : '/' ∈ needle) (opens : 'f' ∉ needle) (closes : ')' ∉ needle)
    (found : needle <:+: front ++ (header iterationCeiling counter ++ rest)) :
    needle <:+: front ∨ needle <:+: rest := by
  have absent : '/' ∉ header iterationCeiling counter := fun member =>
    absurd (inBoundedHead_of_mem_header '/' member) (by decide)
  have opening : "for (int ".toList = 'f' :: "or (int " := by decide
  obtain ⟨inner, whole⟩ := exists_header_concat iterationCeiling counter
  rw [opening, List.cons_append, ← List.append_assoc] at whole
  generalize "or (int " ++ inner = inside at whole
  rw [whole] at absent found
  rw [List.cons_append, List.append_assoc, List.singleton_append, Text.infix_append_cons_iff opens,
    Text.infix_append_cons_iff closes] at found
  rcases found with early | within | late
  · exact .inl early
  · refine absurd ?_ absent
    exact List.mem_cons_of_mem _ (List.mem_append_left _ (within.subset slash))
  · exact .inr late

private theorem infix_of_infix_boundPieces {needle : Text} (slash : '/' ∈ needle)
    (opens : 'f' ∉ needle) (closes : ')' ∉ needle) {pieces : List Piece} {counter : Nat}
    {front text : Text} (bounded : boundPieces iterationCeiling counter pieces = .ok text)
    (found : needle <:+: front ++ text) : needle <:+: front ++ pieces.flatMap Piece.text := by
  induction pieces generalizing counter front text with
  | nil =>
      cases bounded
      exact found
  | cons piece pieces ih =>
      cases piece with
      | kept char =>
          obtain ⟨rest, later, rfl⟩ := map_eq_ok_iff.mp bounded
          rw [List.append_cons] at found
          rw [List.flatMap_cons, ← List.append_assoc]
          exact ih later found
      | found stretch =>
          obtain ⟨head, made, rest⟩ := bind_eq_ok_iff.mp bounded
          obtain ⟨behind, later, same⟩ := bind_eq_ok_iff.mp rest
          cases same
          obtain rfl := eq_header_of_boundedHead made
          rw [List.flatMap_cons]
          rcases infix_of_infix_header slash opens closes found with early | late
          · exact early.trans (List.prefix_append _ _).isInfix
          · have inner := ih later (show needle <:+: [] ++ behind from late)
            exact inner.trans ((List.suffix_append _ _).trans (List.suffix_append _ _)).isInfix

theorem infix_of_infix_boundLoops {needle : Text} (slash : '/' ∈ needle) (opens : 'f' ∉ needle)
    (closes : ')' ∉ needle) {text bounded : Text}
    (done : boundLoops iterationCeiling text = .ok bounded) (found : needle <:+: bounded) :
    needle <:+: text := by
  obtain ⟨_free, _read, pieces⟩ := bind_eq_ok_iff.mp done
  have inner := infix_of_infix_boundPieces slash opens closes pieces
    (show needle <:+: [] ++ bounded from found)
  rwa [Pattern.text_pieces] at inner

end Code
end ShaderBridge
