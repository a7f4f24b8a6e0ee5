import ShaderBridge.Proofs.Diagnostic.Reading
import ShaderBridge.Proofs.Text.Token
import ShaderBridge.Proofs.Text.Trim
set_option autoImplicit false

/-! Notes in the output of the compiler. A line is passed over if a place in a file with a note behind
it is named anywhere in it (`compilerNote_iff`); `NamesNote` says so of the text itself. -/

namespace ShaderBridge
namespace Diagnostic

open LineReading
open Text (Blank startsWord)

def IsPlace (line place : Text) : Prop :=
  IsNumber line ∧ (place = "(" ++ line ++ ")" ∨
    ∃ gap column, Blank gap ∧ IsNumber column ∧ place = "(" ++ line ++ "," ++ gap ++ column ++ ")")

/-- Somewhere in the text, a note follows on a place. -/
def NamesNote (text : Text) : Prop :=
  ∃ front line place gap word rest, text = front ++ (place ++ ":" ++ gap ++ word ++ rest) ∧
    IsPlace line place ∧ Blank gap ∧ Text.toLowerAscii word = "note".toList ∧ startsWord rest = false

private theorem anyCase_eq_some_iff {expected text rest : Text} :
    Scan.anyCase expected text = some rest ↔
      ∃ word, text = word ++ rest ∧ word.map foldCase = expected := by
  induction expected generalizing text with
  | nil => simp [Scan.anyCase, eq_comm]
  | cons letter expected ih =>
      cases text with
      | nil => simp [Scan.anyCase]
      | cons char text =>
          rw [Scan.anyCase]
          constructor
          · intro found
            obtain ⟨folds, found⟩ := Option.ite_none_right_eq_some.mp found
            obtain ⟨word, rfl, same⟩ := ih.mp found
            exact ⟨char :: word, rfl, by rw [List.map_cons, folds, same]⟩
          · rintro ⟨word, whole, same⟩
            cases word with
            | nil => cases same
            | cons first word =>
                obtain ⟨rfl, rfl⟩ := List.cons.inj whole
                obtain ⟨folds, same⟩ := List.cons.inj same
                rw [if_pos folds]
                exact ih.mpr ⟨word, rfl, same⟩

private theorem foldCase_eq_iff {letter : Char} (plain : letter ∈ "note".toList) (char : Char) :
    foldCase char = letter ↔ char.toLower = letter := by
  have beyond : ∀ char ∈ ['\u017f', '\u0130', '\u0131', '\u212a'], ∀ letter ∈ "note".toList,
      foldCase char ≠ letter ∧ char.toLower ≠ letter := by decide
  by_cases special : char ∈ ['\u017f', '\u0130', '\u0131', '\u212a']
  · obtain ⟨folded, lower⟩ := beyond char special letter plain
    exact iff_of_false folded lower
  · simp only [List.mem_cons, List.not_mem_nil, or_false, not_or] at special
    obtain ⟨long, dotted, dotless, kelvin⟩ := special
    unfold foldCase
    rw [if_neg long, if_neg (not_or.mpr ⟨dotted, dotless⟩), if_neg kelvin]

private theorem map_foldCase_eq_note_iff {word : Text} :
    word.map foldCase = "note".toList ↔ Text.toLowerAscii word = "note".toList := by
  have each : ∀ {expected : Text}, (∀ letter ∈ expected, letter ∈ "note".toList) → ∀ word : Text,
      word.map foldCase = expected ↔ Text.toLowerAscii word = expected := by
    intro expected plain
    unfold Text.toLowerAscii
    induction expected with
    | nil => simp
    | cons letter expected ih =>
        obtain ⟨first, plain⟩ := List.forall_mem_cons.mp plain
        intro word
        cases word with
        | nil => simp
        | cons char word =>
            rw [List.map_cons, List.map_cons, List.cons_eq_cons, List.cons_eq_cons,
              foldCase_eq_iff first, ih plain]
  exact each (fun _letter member => member) word

private theorem column_eq_some_iff {text rest : Text} :
    (Scan.literal "," >=> Scan.blanks >=> Scan.oneOrMore isDecimalDigit) text = some rest ↔
      ∃ gap column, Blank gap ∧ IsNumber column ∧ text = "," ++ gap ++ column ++ rest ∧
        rest.head?.any isDecimalDigit = false := by
  rw [Scan.andThen_eq_some_iff]
  constructor
  · rintro ⟨behind, comma, found⟩
    obtain ⟨middle, white, found⟩ := Scan.andThen_eq_some_iff.mp found
    obtain ⟨gap, blank, first, _dark⟩ := Scan.zeroOrMore_eq_some_iff.mp white
    obtain ⟨column, filled, each, second, outside⟩ := Scan.oneOrMore_eq_some_iff.mp found
    refine ⟨gap, column, blank, ⟨filled, each⟩, ?_, outside⟩
    rw [Scan.literal_eq_some_iff.mp comma, first, second, List.append_assoc, List.append_assoc]
  · rintro ⟨gap, column, blank, number, rfl, outside⟩
    refine ⟨gap ++ (column ++ rest), ?_, ?_⟩
    · exact Scan.literal_eq_some_iff.mpr (by simp)
    refine Scan.andThen_eq_some_iff.mpr ⟨column ++ rest, ?_, ?_⟩
    · exact Scan.zeroOrMore_eq_some_iff.mpr ⟨gap, blank, rfl, number.starts rest⟩
    · exact Scan.oneOrMore_eq_some_iff.mpr ⟨column, number.1, number.2, rfl, outside⟩

private theorem closing_eq_some_iff {text rest : Text} :
    (Scan.literal "):" >=> Scan.blanks) text = some rest ↔
      ∃ gap, Blank gap ∧ text = "):" ++ gap ++ rest ∧ rest.head?.any isBlank = false := by
  rw [Scan.andThen_eq_some_iff]
  constructor
  · rintro ⟨behind, closed, white⟩
    obtain ⟨gap, blank, same, dark⟩ := Scan.zeroOrMore_eq_some_iff.mp white
    refine ⟨gap, blank, ?_, dark⟩
    rw [Scan.literal_eq_some_iff.mp closed, same, List.append_assoc]
  · rintro ⟨gap, blank, rfl, dark⟩
    refine ⟨gap ++ rest, Scan.literal_eq_some_iff.mpr (List.append_assoc _ _ _), ?_⟩
    exact Scan.zeroOrMore_eq_some_iff.mpr ⟨gap, blank, rfl, dark⟩

theorem parenthesizedLine_eq_some_iff {text line rest : Text} :
    parenthesizedLine text = some (line, rest) ↔
      ∃ place gap, text = place ++ ":" ++ gap ++ rest ∧ IsPlace line place ∧ Blank gap ∧
        rest.head?.any isBlank = false := by
  let column := Scan.literal "," >=> Scan.blanks >=> Scan.oneOrMore isDecimalDigit
  constructor
  · intro read
    obtain ⟨inner, opened, read⟩ := Option.bind_eq_some_iff.mp read
    obtain ⟨⟨number, tail⟩, numeral, read⟩ := Option.bind_eq_some_iff.mp read
    obtain ⟨last, closed, same⟩ := Option.bind_eq_some_iff.mp read
    cases same
    obtain ⟨numbered, within, _outside⟩ := readDigits?_eq_some_iff.mp numeral
    obtain ⟨behind, skipped, closed⟩ := Scan.andThen_eq_some_iff.mp closed
    obtain ⟨gap, blank, ended, dark⟩ := closing_eq_some_iff.mp closed
    have whole : text = "(" ++ (line ++ tail) := by
      rw [Scan.literal_eq_some_iff.mp opened, within]
    have after : (column tail).getD tail = behind := Option.some.inj skipped
    cases second : column tail with
    | none =>
        rw [second, Option.getD_none] at after
        refine ⟨"(" ++ line ++ ")", gap, ?_, ⟨numbered, .inl rfl⟩, blank, dark⟩
        rw [whole, after, ended]
        simp
    | some more =>
        rw [second, Option.getD_some] at after
        obtain ⟨space, other, white, digits, same, _outside⟩ := column_eq_some_iff.mp second
        refine ⟨"(" ++ line ++ "," ++ space ++ other ++ ")", gap, ?_,
          ⟨numbered, .inr ⟨space, other, white, digits, rfl⟩⟩, blank, dark⟩
        rw [whole, same, after, ended]
        simp
  · rintro ⟨place, gap, rfl, ⟨numbered, shape⟩, blank, dark⟩
    have closes : (Scan.literal "):" >=> Scan.blanks) (")" ++ ":" ++ gap ++ rest : Text) =
        some rest := closing_eq_some_iff.mpr ⟨gap, blank, by simp, dark⟩
    have read : ∀ tail : Text, tail.head?.any isDecimalDigit = false →
        (column tail).getD tail = ")" ++ ":" ++ gap ++ rest →
          parenthesizedLine ("(" ++ (line ++ tail)) = some (line, rest) := by
      intro tail outside skipped
      unfold parenthesizedLine
      refine Option.bind_eq_some_iff.mpr ⟨line ++ tail, Scan.literal_eq_some_iff.mpr rfl, ?_⟩
      refine Option.bind_eq_some_iff.mpr
        ⟨(line, tail), readDigits?_eq_some_iff.mpr ⟨numbered, rfl, outside⟩, ?_⟩
      refine Option.bind_eq_some_iff.mpr ⟨rest, ?_, rfl⟩
      exact Scan.andThen_eq_some_iff.mpr ⟨_, congrArg some skipped, closes⟩
    rcases shape with rfl | ⟨space, other, white, digits, rfl⟩
    · have found := read (")" ++ ":" ++ gap ++ rest) rfl rfl
      simpa using found
    · have second : column ("," ++ space ++ other ++ (")" ++ ":" ++ gap ++ rest)) =
          some (")" ++ ":" ++ gap ++ rest) :=
        column_eq_some_iff.mpr ⟨space, other, white, digits, rfl, rfl⟩
      have found := read ("," ++ space ++ other ++ (")" ++ ":" ++ gap ++ rest)) rfl
        (by rw [second]; rfl)
      simpa using found

theorem parenthesizedLine_of_isPlace {line place gap rest : Text} (placed : IsPlace line place)
    (blank : Blank gap) (dark : rest.head?.any isBlank = false) :
    parenthesizedLine (place ++ ":" ++ gap ++ rest) = some (line, rest) :=
  parenthesizedLine_eq_some_iff.mpr ⟨place, gap, rfl, placed, blank, dark⟩

theorem parenthesizedLine_cons {char : Char} (other : char ≠ '(') (rest : Text) :
    parenthesizedLine (char :: rest) = none := by
  have missed : Scan.literal "(" (char :: rest) = none := if_neg (Ne.symm other)
  unfold parenthesizedLine
  rw [missed]
  rfl

private theorem isBlank_of_toLower {char : Char} (letter : char.toLower = 'n') :
    isBlank char = false := by
  refine Bool.eq_false_iff.mpr fun blank => ?_
  have mark := isWord_of_isBlank blank
  unfold Char.toLower at letter
  split at letter
  · next upper =>
      have capital : char.isUpper = true := decide_eq_true upper
      have letter : char.isAlphanum = true := by
        unfold Char.isAlphanum Char.isAlpha
        rw [capital, Bool.true_or, Bool.true_or]
      have small : char.toNat < 128 := by
        have high : char.toNat ≤ 90 := upper.2
        omega
      unfold isWord at mark
      rw [if_pos small, letter] at mark
      cases mark
  · rw [letter] at blank
    exact absurd blank (by decide)

def noteAt (text : Text) : Option LineReading := do
  let (_, rest) ← parenthesizedLine text
  let _ ← (Scan.anyCase "note" >=> Scan.wordEnd) rest
  return .ignored

private theorem noteAt_eq_some_iff {text : Text} {reading : LineReading} :
    noteAt text = some reading ↔
      reading = .ignored ∧ ∃ line place gap word rest, text = place ++ ":" ++ gap ++ word ++ rest ∧
        IsPlace line place ∧ Blank gap ∧ Text.toLowerAscii word = "note".toList ∧
        startsWord rest = false := by
  have letter_dark : ∀ {word : Text} (rest : Text), Text.toLowerAscii word = "note".toList →
      (word ++ rest).head?.any isBlank = false := by
    intro word rest folded
    cases word with
    | nil => cases folded
    | cons char word => exact isBlank_of_toLower (List.cons.inj folded).1
  constructor
  · intro read
    obtain ⟨⟨line, behind⟩, placed, read⟩ := Option.bind_eq_some_iff.mp read
    obtain ⟨last, noted, same⟩ := Option.bind_eq_some_iff.mp read
    obtain ⟨after, named, ends⟩ := Scan.andThen_eq_some_iff.mp noted
    obtain ⟨place, gap, rfl, shape, blank, _dark⟩ := parenthesizedLine_eq_some_iff.mp placed
    obtain ⟨word, rfl, folded⟩ := anyCase_eq_some_iff.mp named
    obtain ⟨_same, apart⟩ := Scan.endOf_eq_some_iff.mp ends
    refine ⟨(Option.some.inj same).symm, line, place, gap, word, after, ?_, shape, blank,
      map_foldCase_eq_note_iff.mp folded, apart⟩
    simp
  · rintro ⟨rfl, line, place, gap, word, rest, rfl, shape, blank, folded, apart⟩
    rw [List.append_assoc _ word rest]
    refine Option.bind_eq_some_iff.mpr
      ⟨_, parenthesizedLine_of_isPlace shape blank (letter_dark rest folded), ?_⟩
    refine Option.bind_eq_some_iff.mpr ⟨rest, ?_, rfl⟩
    refine Scan.andThen_eq_some_iff.mpr ⟨rest, ?_, Scan.endOf_eq_some_iff.mpr ⟨rfl, apart⟩⟩
    exact anyCase_eq_some_iff.mpr ⟨word, rfl, map_foldCase_eq_note_iff.mpr folded⟩

theorem compilerNote_iff {text : Text} : compilerNote text = some .ignored ↔ NamesNote text := by
  constructor
  · intro read
    obtain ⟨behind, ⟨front, rfl⟩, here⟩ := exists_suffix_of_firstReading read
    obtain ⟨_same, line, place, gap, word, rest, rfl, named⟩ := noteAt_eq_some_iff.mp here
    exact ⟨front, line, place, gap, word, rest, rfl, named⟩
  · rintro ⟨front, line, place, gap, word, rest, rfl, named⟩
    cases read : compilerNote (front ++ (place ++ ":" ++ gap ++ word ++ rest)) with
    | some reading => rw [ignored_of_compilerNote read]
    | none =>
        have missed := firstReading_eq_none_iff.mp read _ (List.suffix_append front _)
        have here := noteAt_eq_some_iff.mpr ⟨rfl, line, place, gap, word, rest, rfl, named⟩
        exact absurd (missed.symm.trans here) nofun

instance (text : Text) : Decidable (NamesNote text) :=
  decidable_of_iff (compilerNote text = some .ignored) compilerNote_iff

end Diagnostic
end ShaderBridge
