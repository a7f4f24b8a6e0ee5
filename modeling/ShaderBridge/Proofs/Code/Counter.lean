import ShaderBridge.Code.Loop
import ShaderBridge.Proofs.Code.Identifier
import ShaderBridge.Proofs.Effect
import ShaderBridge.Proofs.Text.Lexeme
set_option autoImplicit false

/-! Counters of bounded loops. A counter is a word made of a stem and a number, in digits of any script.
The numbers from the free one on are those of no counter in the text (`exists_freeCounter`,
`IsFree.fresh`), and a bounded head names no counter but its own (`number_of_mem_header`). -/

namespace ShaderBridge
namespace Code

open Attempt (bind_eq_ok_iff bind_eq_error_iff mapM_eq_ok)
open Text (IsOneWord endsWord words)

theorem mem_counters {text word : Text} :
    word ∈ counters.occurrences text ↔
      word ∈ words text ∧ ∃ digits, IsNumber digits ∧ word = counterStem ++ digits := by
  obtain ⟨reads, accepted⟩ := Scan.readsWord_numbered
    (by decide : ∀ char ∈ counterStem ++ [], isWord char = true) rfl fun _text _rest =>
      Scan.wordEnd_eq_some_iff
  unfold counters
  rw [occurrences_of_readsWord reads, List.mem_filter, accepted]
  simp only [List.append_nil]

/-- No number of a counter in the text is too long to be read. -/
def Readable (text : Text) : Prop :=
  ∀ digits, IsNumber digits → counterStem ++ digits ∈ words text → digits.length ≤ maxNumeralDigits

/-- The number that follows the largest number of a counter in the text, zero if there is none. -/
structure IsFree (text : Text) (free : Nat) : Prop where
  above : ∀ digits, IsNumber digits → counterStem ++ digits ∈ words text →
    Text.digitsValue digits < free
  least : free = 0 ∨ ∃ digits, IsNumber digits ∧ counterStem ++ digits ∈ words text ∧
    free = Text.digitsValue digits + 1

private theorem foldl_max_above (numbers : List Nat) (start : Nat) :
    start ≤ numbers.foldl (fun free number => max free (number + 1)) start ∧
      ∀ number ∈ numbers, number < numbers.foldl (fun free number => max free (number + 1)) start := by
  induction numbers generalizing start with
  | nil => exact ⟨Nat.le_refl start, nofun⟩
  | cons first numbers ih =>
      obtain ⟨grown, each⟩ := ih (max start (first + 1))
      rw [List.foldl_cons, List.forall_mem_cons]
      exact ⟨by omega, by omega, each⟩

private theorem foldl_max_least (numbers : List Nat) (start : Nat) :
    numbers.foldl (fun free number => max free (number + 1)) start = start ∨
      ∃ number ∈ numbers,
        numbers.foldl (fun free number => max free (number + 1)) start = number + 1 := by
  induction numbers generalizing start with
  | nil => exact .inl rfl
  | cons first numbers ih =>
      rw [List.foldl_cons]
      rcases ih (max start (first + 1)) with same | ⟨number, member, same⟩
      · rcases Nat.le_total start (first + 1) with below | beyond
        · exact .inr ⟨first, List.mem_cons_self, same.trans (Nat.max_eq_right below)⟩
        · exact .inl (same.trans (Nat.max_eq_left beyond))
      · exact .inr ⟨number, List.mem_cons_of_mem _ member, same⟩

theorem exists_freeCounter {text : Text} (readable : Readable text) :
    ∃ free, freeCounter text = .ok free ∧ IsFree text free := by
  let number (name : Text) : Nat := Text.digitsValue (name.drop counterStem.length)
  have plain : ∀ digits, number (counterStem ++ digits) = Text.digitsValue digits :=
    fun digits => congrArg Text.digitsValue List.drop_left
  have each : ∀ name ∈ counters.occurrences text,
      Text.readDigits (name.drop counterStem.length) = .ok (number name) := by
    intro name member
    obtain ⟨inside, digits, row, rfl⟩ := mem_counters.mp member
    refine if_neg ?_
    rw [List.drop_left]
    exact Nat.not_lt.mpr (readable digits row inside)
  refine ⟨((counters.occurrences text).map number).foldl (fun free number => max free (number + 1)) 0,
    bind_eq_ok_iff.mpr ⟨_, mapM_eq_ok each, rfl⟩, ?_, ?_⟩
  · intro digits row member
    have used := (foldl_max_above ((counters.occurrences text).map number) 0).2 _
      (List.mem_map.mpr ⟨_, mem_counters.mpr ⟨member, digits, row, rfl⟩, rfl⟩)
    rwa [plain] at used
  · refine (foldl_max_least _ 0).imp_right ?_
    rintro ⟨_value, used, same⟩
    obtain ⟨name, member, rfl⟩ := List.mem_map.mp used
    obtain ⟨inside, digits, row, rfl⟩ := mem_counters.mp member
    exact ⟨digits, row, inside, same.trans (congrArg (· + 1) (plain digits))⟩

def counterName (number : Nat) : Text := counterStem ++ Text.decimal number

theorem counterName_injective : Function.Injective counterName := by
  intro number other same
  rw [← digitsValue_decimal number, List.append_cancel_left same, digitsValue_decimal]

theorem oneWord_counterName (number : Nat) : IsOneWord (counterName number) := by
  refine ⟨List.append_ne_nil_of_left_ne_nil (by decide) _, List.forall_mem_append.mpr ⟨by decide, ?_⟩⟩
  exact (isNumber_decimal number).oneWord.2

/-- The numbers from the free one on name no word of the text. -/
theorem IsFree.fresh {text : Text} {free number : Nat} (isFree : IsFree text free)
    (late : free ≤ number) : counterName number ∉ words text := by
  intro member
  have used := isFree.above (Text.decimal number) (isNumber_decimal number) member
  rw [digitsValue_decimal] at used
  omega

/-- The head of a loop that counts up to the ceiling. -/
def header (ceiling : Int) (counter : Nat) : Text :=
  "for (int " ++ counterName counter ++ " = 0; " ++ counterName counter ++ " < " ++
    Text.ofInt ceiling ++ "; " ++ counterName counter ++ "++)"

def Writable (number : Int) : Prop := number.natAbs < 10 ^ maxNumeralDigits

theorem writable_iff {number : Int} :
    Writable number ↔ (Text.decimal number.natAbs).length ≤ maxNumeralDigits :=
  (Nat.length_toDigits_le_iff (by decide) (by decide)).symm

theorem writeNumber_of_writable {number : Int} (writable : Writable number) :
    Text.writeNumber number = .ok (Text.ofInt number) :=
  if_neg (Nat.not_lt.mpr (writable_iff.mp writable))

theorem writeNumber_of_not_writable {number : Int} (long : ¬ Writable number) :
    Text.writeNumber number = .error .longOutput :=
  if_pos (Nat.not_le.mp (mt writable_iff.mpr long))

theorem boundedHead_of_writable {ceiling : Int} {counter : Nat} (limit : Writable ceiling)
    (number : Writable counter) : boundedHead ceiling counter = .ok (header ceiling counter) :=
  bind_eq_ok_iff.mpr ⟨_, writeNumber_of_writable number,
    bind_eq_ok_iff.mpr ⟨_, writeNumber_of_writable limit, rfl⟩⟩

theorem boundedHead_of_not_writable {ceiling : Int} {counter : Nat}
    (long : ¬ (Writable ceiling ∧ Writable counter)) :
    boundedHead ceiling counter = .error .longOutput := by
  by_cases number : Writable counter
  · have limit : ¬ Writable ceiling := fun writable => long ⟨writable, number⟩
    exact bind_eq_error_iff.mpr (.inr ⟨_, writeNumber_of_writable number,
      bind_eq_error_iff.mpr (.inl (writeNumber_of_not_writable limit))⟩)
  · exact bind_eq_error_iff.mpr (.inl (writeNumber_of_not_writable number))

theorem eq_header_of_boundedHead {ceiling : Int} {counter : Nat} {head : Text}
    (made : boundedHead ceiling counter = .ok head) : head = header ceiling counter := by
  by_cases short : Writable ceiling ∧ Writable counter
  · exact Except.ok.inj (made.symm.trans (boundedHead_of_writable short.1 short.2))
  · exact absurd (made.symm.trans (boundedHead_of_not_writable short)) nofun

private theorem words_ofInt (number : Int) :
    words (Text.ofInt number) = [Text.decimal number.natAbs] := by
  have single : ∀ value : Nat, words (Text.decimal value) = [Text.decimal value] :=
    fun value => Text.words_of_oneWord (isNumber_decimal value).oneWord
  cases number with
  | ofNat number => exact single number
  | negSucc number =>
      exact (Text.words_append_mark (by decide : isWord '-' = false) [] _).trans (single (number + 1))

private theorem words_header (ceiling : Int) (counter : Nat) :
    words (header ceiling counter) =
      ["for".toList, "int".toList, counterName counter, "0".toList, counterName counter,
        Text.decimal ceiling.natAbs, counterName counter] := by
  have whole : header ceiling counter =
      "for (int" ++ ' ' :: (counterName counter ++ ' ' :: ("= 0;" ++ ' ' :: (counterName counter ++
        ' ' :: ("<" ++ ' ' :: (Text.ofInt ceiling ++ ';' :: ("" ++ ' ' :: (counterName counter ++
          '+' :: "+)"))))))) := by
    have opening : "for (int ".toList = "for (int" ++ [' '] := by decide
    have start : " = 0; ".toList = ' ' :: ("= 0;" ++ [' ']) := by decide
    have limit : " < ".toList = ' ' :: ("<" ++ [' ']) := by decide
    have step : "; ".toList = ';' :: ("" ++ [' ']) := by decide
    have closing : "++)".toList = '+' :: "+)" := by decide
    unfold header
    generalize counterName counter = name
    rw [opening, start, limit, step, closing]
    simp only [List.append_assoc, List.cons_append, List.nil_append]
  have fixed : words "for (int" = ["for".toList, "int".toList] ∧ words "= 0;" = ["0".toList] ∧
      words "<" = [] ∧ words "+)" = [] ∧ words "" = [] := by
    decide +kernel
  have named := Text.words_of_oneWord (oneWord_counterName counter)
  rw [whole]
  simp only [Text.words_append_mark (by decide : isWord ' ' = false),
    Text.words_append_mark (by decide : isWord ';' = false),
    Text.words_append_mark (by decide : isWord '+' = false), fixed, named, words_ofInt,
    List.cons_append, List.nil_append]

theorem counter_ne {word : Text} (absent : '_' ∉ word) (digits : Text) :
    counterStem ++ digits ≠ word := by
  rintro rfl
  exact absent List.mem_cons_self

theorem eq_of_mem_words_header {ceiling : Int} {counter : Nat} {digits : Text}
    (member : counterStem ++ digits ∈ words (header ceiling counter)) :
    digits = Text.decimal counter := by
  have number : '_' ∉ Text.decimal ceiling.natAbs := fun held =>
    absurd ((isNumber_decimal _).2 '_' held) (by decide +kernel)
  rw [words_header] at member
  simp only [List.mem_cons, List.not_mem_nil, or_false, counter_ne (by decide : '_' ∉ "for".toList),
    counter_ne (by decide : '_' ∉ "int".toList), counter_ne (by decide : '_' ∉ "0".toList),
    counter_ne number, false_or, or_self] at member
  exact List.append_cancel_left member

private theorem not_mem_counterName {letter : Char} (unstemmed : letter ∉ counterStem)
    (noDigit : isDecimalDigit letter = false) (number : Nat) : letter ∉ counterName number := by
  intro member
  rcases List.mem_append.mp member with early | digit
  · exact unstemmed early
  · exact absurd (noDigit.symm.trans ((isNumber_decimal number).2 letter digit)) nofun

private theorem not_mem_ofInt {letter : Char} (apart : letter ≠ '-')
    (noDigit : isDecimalDigit letter = false) (number : Int) : letter ∉ Text.ofInt number := by
  have digits : ∀ value : Nat, letter ∉ Text.decimal value := fun value member =>
    absurd (noDigit.symm.trans ((isNumber_decimal value).2 letter member)) nofun
  cases number with
  | ofNat number => exact digits number
  | negSucc number => exact List.not_mem_cons_of_ne_of_not_mem apart (digits (number + 1))

def BeginsLoop (letter : Char) : Prop := letter ∈ ("fw" : Text)

instance (letter : Char) : Decidable (BeginsLoop letter) := inferInstanceAs (Decidable (_ ∈ _))

/-- Such a letter stands only at the front of a bounded head. -/
theorem exists_header_cons (ceiling : Int) (counter : Nat) :
    ∃ tail, header ceiling counter = 'f' :: tail ∧ ∀ letter, BeginsLoop letter → letter ∉ tail := by
  have opening : "for (int ".toList = 'f' :: "or (int " := by decide
  refine ⟨"or (int " ++ counterName counter ++ " = 0; " ++ counterName counter ++ " < " ++
    Text.ofInt ceiling ++ "; " ++ counterName counter ++ "++)", ?_, fun letter begins => ?_⟩
  · unfold header
    rw [opening]
    simp only [List.cons_append]
  · have fixed : ∀ letter ∈ ("fw" : Text), letter ∉ "or (int ".toList ∧ letter ∉ " = 0; ".toList ∧
        letter ∉ " < ".toList ∧ letter ∉ "; ".toList ∧ letter ∉ "++)".toList ∧
          letter ∉ counterStem ∧ letter ≠ '-' ∧ isDecimalDigit letter = false := by
      decide +kernel
    obtain ⟨first, start, limit, step, closing, stem, sign, noDigit⟩ := fixed letter begins
    have name := not_mem_counterName stem noDigit counter
    simp only [List.mem_append, not_or]
    exact ⟨⟨⟨⟨⟨⟨⟨⟨first, name⟩, start⟩, name⟩, limit⟩, not_mem_ofInt sign noDigit ceiling⟩, step⟩,
      name⟩, closing⟩

theorem exists_header_concat (ceiling : Int) (counter : Nat) :
    ∃ front, header ceiling counter = "for (int " ++ (front ++ [')']) := by
  have closing : "++)".toList = "++" ++ [')'] := by decide
  refine ⟨counterName counter ++ " = 0; " ++ counterName counter ++ " < " ++ Text.ofInt ceiling ++
    "; " ++ counterName counter ++ "++", ?_⟩
  unfold header
  rw [closing]
  simp only [List.append_assoc]

end Code
end ShaderBridge
