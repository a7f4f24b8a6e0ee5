import ShaderBridge.Code.Identifier
import ShaderBridge.Proofs.Text.Character
import ShaderBridge.Proofs.Text.Parts
set_option autoImplicit false

/-! Scans that read whole words. Such a scan takes the words of a text one at a time
(`occurrences_of_readsWord`), and a replacement of words by words changes the tokens of the text one
by one (`tokens_replace_of_readsWord`). Identifiers and the names of temporaries are read so. -/

namespace ShaderBridge

open Text (IsOneWord startsWord endsWord tokens words spell Lexed)

def Scan.ReadsWord (scan : Scan) : Prop :=
  ∀ text rest, scan text = some rest ↔
    ∃ word, IsOneWord word ∧ scan.accepts word = true ∧ text = word ++ rest ∧
      startsWord rest = false

namespace Scan

theorem accepts_eq_true_iff {scan : Scan} {text : Text} :
    scan.accepts text = true ↔ scan text = some [] := by
  unfold accepts
  exact beq_iff_eq

variable {scan : Scan} (reads : scan.ReadsWord)
include reads

theorem ReadsWord.consumes : scan.Consumes := by
  intro text rest found
  obtain ⟨word, one, _accepted, same, _apart⟩ := (reads text rest).mp found
  exact ⟨word, one.1, same⟩

theorem ReadsWord.found {before : Option Char} {stretch rest : Text}
    (found : scan.atWordStart before (stretch ++ rest) = some stretch.length) :
    IsOneWord stretch ∧ scan.accepts stretch = true ∧ startsWord rest = false := by
  obtain ⟨_outside, read⟩ :=
    (Pattern.notAfter_append_eq_some_iff reads.consumes.sound).mp found
  obtain ⟨word, one, accepted, same, apart⟩ := (reads _ rest).mp read
  rw [List.append_cancel_right same]
  exact ⟨one, accepted, apart⟩

theorem ReadsWord.kept {before : Option Char} {word rest : Text} (one : IsOneWord word)
    (outside : before.any isWord = false) (apart : startsWord rest = false)
    (none : scan.atWordStart before (word ++ rest) = none) : scan.accepts word = false := by
  cases accepted : scan.accepts word with
  | false => rfl
  | true =>
      have read := (reads (word ++ rest) rest).mpr ⟨word, one, accepted, rfl, apart⟩
      have found := (Pattern.notAfter_append_eq_some_iff reads.consumes.sound).mpr
        ⟨outside, read⟩
      rw [atWordStart] at none
      rw [none] at found
      cases found

theorem ReadsWord.apart : scan.atWordStart.Apart := by
  refine Pattern.apart_atWordStart reads.consumes fun stretch rest found _ends => ?_
  obtain ⟨_word, _one, _accepted, _same, apart⟩ := (reads _ rest).mp found
  exact apart

end Scan

def Part.ofToken (scan : Scan) : Token → Part
  | .word word => if scan.accepts word then .found word else .kept (.word word)
  | .mark char => .kept (.mark char)

section
variable {scan : Scan} (reads : scan.ReadsWord)
include reads

theorem Scan.ReadsWord.parts {before : Option Char} {parts : List Part}
    (parted : scan.atWordStart.Parted before parts) (lexed : Lexed (parts.flatMap Part.tokens))
    (cut : before.any isWord = true → startsWord (parts.flatMap Part.text) = false) :
    parts = (parts.flatMap Part.tokens).map (Part.ofToken scan) := by
  induction parted with
  | nil _none => rfl
  | @kept before token parts none parted ih =>
      rw [List.flatMap_cons] at lexed
      obtain ⟨alone, later, met⟩ := Lexed.split lexed
      rw [Pattern.spell_partTokens] at met
      have filled := alone.spell_ne_nil (List.cons_ne_nil _ _)
      rw [Part.tokens, Text.spell_cons, Text.spell_nil, List.append_nil] at filled met
      have rest := ih later fun ends => met (by
        rwa [List.getLast?_eq_some_getLast filled, Option.some_or,
          ← List.getLast?_eq_some_getLast filled] at ends)
      have kept : Part.ofToken scan token = .kept token := by
        cases alone with
        | mark _mark _rest => rfl
        | @word word _ one _apart _rest =>
            have outside : before.any isWord = false := Bool.eq_false_iff.mpr fun inside => by
              have apart := cut inside
              rw [List.flatMap_cons, Part.text, Token.text, Text.startsWord_append one.1,
                one.startsWord] at apart
              cases apart
            exact if_neg (Bool.eq_false_iff.mp
              (reads.kept one outside (met one.endsWord) none))
      rw [List.flatMap_cons, Part.tokens, List.singleton_append, List.map_cons, kept, ← rest]
  | @found before stretch parts _filled found parted ih =>
      obtain ⟨one, accepted, apart⟩ := reads.found found
      rw [List.flatMap_cons] at lexed
      obtain ⟨_alone, later, _met⟩ := Lexed.split lexed
      have rest := ih later fun _ends => apart
      rw [List.flatMap_cons, Part.tokens, Text.tokens_of_oneWord one, List.singleton_append,
        List.map_cons, ← rest, Part.ofToken, if_pos accepted]

theorem piecesFrom_of_readsWord (before : Option Char) (text : Text)
    (cut : before.any isWord = true → startsWord text = false) :
    scan.atWordStart.piecesFrom 0 before text =
      (tokens text).flatMap fun token => (Part.ofToken scan token).pieces := by
  obtain ⟨parts, parted, texts, lexed, cuts⟩ := Pattern.exists_parted reads.apart before text cut
  have same := reads.parts parted (lexed ▸ Text.lexed_tokens text) (texts ▸ cut)
  rw [lexed] at same
  rw [← cuts, same, List.flatMap_map]

theorem occurrences_of_readsWord (text : Text) :
    scan.atWordStart.occurrences text = (words text).filter scan.accepts := by
  unfold Pattern.occurrences Pattern.pieces words
  rw [piecesFrom_of_readsWord reads none text nofun]
  generalize tokens text = tokens
  induction tokens with
  | nil => rfl
  | cons token tokens ih =>
      rw [List.flatMap_cons, List.filterMap_append, ih]
      cases token with
      | mark char => rfl
      | word word =>
          cases accepted : scan.accepts word with
          | true => simp [Part.ofToken, Part.pieces, accepted]
          | false => simp [Part.ofToken, Part.pieces, accepted, Token.text]

theorem occursAfter_of_readsWord {before : Option Char} {text : Text}
    (cut : before.any isWord = true → startsWord text = false) :
    scan.atWordStart.occursAfter before text = true ↔
      ∃ word ∈ words text, scan.accepts word = true := by
  unfold Pattern.occursAfter
  rw [piecesFrom_of_readsWord reads before text cut, List.any_flatMap, List.any_eq_true]
  constructor
  · rintro ⟨token, member, found⟩
    cases token with
    | mark char => cases found
    | word word =>
        refine ⟨word, Text.mem_words.mpr member, ?_⟩
        cases accepted : scan.accepts word with
        | true => rfl
        | false => simp [Part.ofToken, Part.pieces, accepted] at found
  · rintro ⟨word, member, accepted⟩
    refine ⟨_, Text.mem_words.mp member, ?_⟩
    rw [Part.ofToken, if_pos accepted]
    rfl

/-- Replacing whole words by whole words changes the tokens one by one. -/
theorem tokens_replace_of_readsWord {new : Text → Text} {text : Text}
    (ones : ∀ word, scan.accepts word = true → IsOneWord (new word)) :
    tokens (scan.atWordStart.replace new text) =
      (tokens text).map (Token.map fun word => if scan.accepts word then new word else word) := by
  have respects : scan.atWordStart.Respects new text := by
    refine ⟨?_, fun _inside found _ends => (reads.found found).2.2⟩
    intro before stretch rest found _begins
    obtain ⟨one, _accepted, _apart⟩ := reads.found found
    rw [Text.startsWord_append one.1, one.startsWord]
  obtain ⟨parts, parted, lexed, changed, _cuts⟩ := Pattern.tokens_replace respects reads.apart
  have same := reads.parts parted (lexed ▸ Text.lexed_tokens text) nofun
  rw [lexed] at same
  rw [← changed, same, List.flatMap_map]
  clear same changed lexed parted
  generalize tokens text = tokens
  induction tokens with
  | nil => rfl
  | cons token tokens ih =>
      rw [List.flatMap_cons, List.map_cons, ih]
      cases token with
      | mark char => rfl
      | word word =>
          cases accepted : scan.accepts word with
          | true =>
              simp only [Part.ofToken, accepted, if_true, Part.newTokens, Token.map]
              rw [Text.tokens_of_oneWord (ones word accepted)]
              rfl
          | false => simp [Part.ofToken, Part.newTokens, Token.map, accepted]

end

/-- A scan is known by the words it reads. -/
theorem Scan.readsWord_of {scan : Scan} {Named : Text → Prop}
    (reads : ∀ text rest, scan text = some rest ↔
      ∃ word, IsOneWord word ∧ Named word ∧ text = word ++ rest ∧ startsWord rest = false) :
    scan.ReadsWord ∧ ∀ word, scan.accepts word = true ↔ IsOneWord word ∧ Named word := by
  have accepted : ∀ word, scan.accepts word = true ↔ IsOneWord word ∧ Named word := by
    intro word
    rw [accepts_eq_true_iff, reads]
    constructor
    · rintro ⟨other, one, named, same, _apart⟩
      rw [List.append_nil] at same
      rw [same]
      exact ⟨one, named⟩
    · rintro ⟨one, named⟩
      exact ⟨word, one, named, (List.append_nil word).symm, rfl⟩
  refine ⟨?_, accepted⟩
  intro text rest
  rw [reads]
  constructor
  · rintro ⟨word, one, named, same, apart⟩
    exact ⟨word, one, (accepted word).mpr ⟨one, named⟩, same, apart⟩
  · rintro ⟨word, one, named, same, apart⟩
    exact ⟨word, one, ((accepted word).mp named).2, same, apart⟩

theorem Scan.wholeName_eq_some_iff {name text rest : Text} :
    (Scan.literal name >=> Scan.wordEnd) text = some rest ↔
      text = name ++ rest ∧ startsWord rest = false := by
  rw [Scan.andThen_eq_some_iff]
  constructor
  · rintro ⟨between, stem, ends⟩
    obtain ⟨rfl, apart⟩ := Scan.endOf_eq_some_iff.mp ends
    exact ⟨Scan.literal_eq_some_iff.mp stem, apart⟩
  · rintro ⟨same, apart⟩
    exact ⟨rest, Scan.literal_eq_some_iff.mpr same, Scan.endOf_eq_some_iff.mpr ⟨rfl, apart⟩⟩

def Scan.oneOf (names : List Text) : Scan := fun text =>
  names.findSome? fun name => (Scan.literal name >=> Scan.wordEnd) text

theorem Scan.readsWord_oneOf {names : List Text} (ones : ∀ name ∈ names, IsOneWord name) :
    (Scan.oneOf names).ReadsWord ∧
      ∀ word, (Scan.oneOf names).accepts word = true ↔ word ∈ names := by
  have reads : ∀ text rest, Scan.oneOf names text = some rest ↔
      ∃ word, IsOneWord word ∧ word ∈ names ∧ text = word ++ rest ∧ startsWord rest = false := by
    intro text rest
    constructor
    · intro found
      obtain ⟨name, member, read⟩ := List.exists_of_findSome?_eq_some found
      obtain ⟨same, apart⟩ := Scan.wholeName_eq_some_iff.mp read
      exact ⟨name, ones name member, member, same, apart⟩
    · rintro ⟨word, one, member, rfl, apart⟩
      cases found : Scan.oneOf names (word ++ rest) with
      | none =>
          have missed := List.findSome?_eq_none_iff.mp found word member
          rw [Scan.wholeName_eq_some_iff.mpr ⟨rfl, apart⟩] at missed
          cases missed
      | some other =>
          obtain ⟨name, known, read⟩ := List.exists_of_findSome?_eq_some found
          obtain ⟨same, distant⟩ := Scan.wholeName_eq_some_iff.mp read
          rw [(Text.oneWord_append_inj one (ones name known) apart distant same).2]
  obtain ⟨whole, accepted⟩ := Scan.readsWord_of reads
  exact ⟨whole, fun word => (accepted word).trans (and_iff_right_of_imp (ones word))⟩

def IsNumber (digits : Text) : Prop :=
  digits ≠ [] ∧ ∀ digit ∈ digits, isDecimalDigit digit = true

private theorem digitValue?_of_isDigit {char : Char} (digit : char.isDigit = true) :
    digitValue? char = some (char.toNat - '0'.toNat) := by
  obtain ⟨low, high⟩ := Bool.and_eq_true_iff.mp digit
  have lower : 48 ≤ char.toNat := of_decide_eq_true low
  have upper : char.toNat ≤ 57 := of_decide_eq_true high
  unfold digitValue? digitZeros
  rw [List.find?_cons_of_pos (by simp; omega)]
  rfl

theorem isNumber_decimal (number : Nat) : IsNumber (Text.decimal number) := by
  refine ⟨Nat.toDigits_ne_nil, fun char member => ?_⟩
  have digit : char.isDigit = true := Nat.isDigit_of_mem_toDigits (by decide) (by decide) member
  unfold isDecimalDigit
  rw [digitValue?_of_isDigit digit]
  rfl

theorem IsNumber.starts {digits : Text} (number : IsNumber digits) (rest : Text) :
    (digits ++ rest).head?.any isBlank = false := by
  obtain ⟨filled, each⟩ := number
  cases digits with
  | nil => exact absurd rfl filled
  | cons digit digits =>
      exact isBlank_of_isWord (isWord_of_isDecimalDigit (each digit List.mem_cons_self))

theorem IsNumber.oneWord {digits : Text} (number : IsNumber digits) : IsOneWord digits :=
  ⟨number.1, fun digit member => isWord_of_isDecimalDigit (number.2 digit member)⟩

theorem digitsValue_decimal (number : Nat) : Text.digitsValue (Text.decimal number) = number := by
  have each : ∀ (value : Nat), ∀ char ∈ Text.decimal number,
      10 * value + (digitValue? char).getD 0 = 10 * value + (char.toNat - '0'.toNat) := by
    intro value char member
    rw [digitValue?_of_isDigit (Nat.isDigit_of_mem_toDigits (by decide) (by decide) member)]
    rfl
  unfold Text.digitsValue
  rw [List.foldl_ext _ _ _ each]
  exact (Nat.ofDigitChars_eq_foldl).symm.trans Nat.ofDigitChars_ten_toDigits

theorem Scan.wordEnd_eq_some_iff {text rest : Text} :
    Scan.wordEnd text = some rest ↔ text = [] ++ rest ∧ startsWord rest = false := by
  rw [Scan.wordEnd, Scan.endOf_eq_some_iff, List.nil_append, @eq_comm _ rest text]
  exact and_congr_right fun same => by rw [same]; rfl

/-- A name with a number in it is read as a whole word if no digit follows the number. -/
theorem Scan.readsWord_numbered {stem tail : Text} {after : Scan}
    (letters : ∀ char ∈ stem ++ tail, isWord char = true)
    (apart : tail.head?.any isDecimalDigit = false)
    (ends : ∀ text rest, after text = some rest ↔ text = tail ++ rest ∧ startsWord rest = false) :
    Scan.ReadsWord (Scan.literal stem >=> Scan.oneOrMore isDecimalDigit >=> after) ∧
      ∀ word,
        Scan.accepts (Scan.literal stem >=> Scan.oneOrMore isDecimalDigit >=> after) word = true ↔
          ∃ digits, IsNumber digits ∧ word = stem ++ (digits ++ tail) := by
  have whole : ∀ {digits : Text}, IsNumber digits → IsOneWord (stem ++ (digits ++ tail)) := by
    rintro digits ⟨filled, each⟩
    refine ⟨List.append_ne_nil_of_right_ne_nil _ (List.append_ne_nil_of_left_ne_nil filled _), ?_⟩
    intro char member
    rcases List.mem_append.mp member with early | later
    · exact letters char (List.mem_append_left _ early)
    · rcases List.mem_append.mp later with digit | late
      · exact isWord_of_isDecimalDigit (each char digit)
      · exact letters char (List.mem_append_right _ late)
  have reads : ∀ text rest,
      (Scan.literal stem >=> Scan.oneOrMore isDecimalDigit >=> after) text = some rest ↔
        ∃ word, IsOneWord word ∧ (∃ digits, IsNumber digits ∧ word = stem ++ (digits ++ tail)) ∧
          text = word ++ rest ∧ startsWord rest = false := by
    intro text rest
    constructor
    · intro found
      obtain ⟨behind, front, opened⟩ := Scan.andThen_eq_some_iff.mp found
      obtain ⟨between, number, closed⟩ := Scan.andThen_eq_some_iff.mp opened
      obtain ⟨rfl, distant⟩ := (ends _ _).mp closed
      obtain ⟨digits, filled, each, rfl, _outside⟩ := Scan.oneOrMore_eq_some_iff.mp number
      refine ⟨_, whole ⟨filled, each⟩, ⟨digits, ⟨filled, each⟩, rfl⟩, ?_, distant⟩
      rw [Scan.literal_eq_some_iff.mp front, List.append_assoc, List.append_assoc]
    · rintro ⟨_word, _one, ⟨digits, ⟨filled, each⟩, rfl⟩, rfl, distant⟩
      have outside : (tail ++ rest).head?.any isDecimalDigit = false := by
        cases tail with
        | cons char tail => exact apart
        | nil =>
            refine Bool.eq_false_iff.mpr fun inside => ?_
            cases rest with
            | nil => cases inside
            | cons char rest =>
                exact absurd (distant.symm.trans (isWord_of_isDecimalDigit inside)) nofun
      refine Scan.andThen_eq_some_iff.mpr
        ⟨digits ++ (tail ++ rest), Scan.literal_eq_some_iff.mpr (by simp), ?_⟩
      refine Scan.andThen_eq_some_iff.mpr
        ⟨tail ++ rest, Scan.oneOrMore_eq_some_iff.mpr ⟨digits, filled, each, rfl, outside⟩, ?_⟩
      exact (ends _ _).mpr ⟨rfl, distant⟩
  obtain ⟨readsWord, accepted⟩ := Scan.readsWord_of reads
  refine ⟨readsWord, fun word => (accepted word).trans (and_iff_right_of_imp ?_)⟩
  rintro ⟨digits, number, rfl⟩
  exact whole number

namespace Code

theorem reads_identifier (text rest : Text) :
    Scan.identifier text = some rest ↔
      ∃ word, IsOneWord word ∧ word.head?.any isIdentifierStart = true ∧ text = word ++ rest ∧
        startsWord rest = false := by
  constructor
  · intro found
    cases text with
    | nil => cases found
    | cons char text =>
        obtain ⟨start, same⟩ := Option.ite_none_right_eq_some.mp found
        obtain ⟨stretch, letters, rfl, apart⟩ := Scan.zeroOrMore_eq_some_iff.mp
          (show Scan.zeroOrMore isWord text = some rest from same)
        have first := isWord_of_isIdentifierStart start
        exact ⟨char :: stretch,
          ⟨List.cons_ne_nil _ _, List.forall_mem_cons.mpr ⟨first, letters⟩⟩, start, rfl, apart⟩
  · rintro ⟨word, ⟨filled, letters⟩, start, rfl, apart⟩
    cases word with
    | nil => exact absurd rfl filled
    | cons char word =>
        exact (if_pos start).trans (Scan.zeroOrMore_eq_some_iff.mpr
          ⟨word, (List.forall_mem_cons.mp letters).2, rfl, apart⟩)

theorem readsWord_identifier : Scan.identifier.ReadsWord :=
  (Scan.readsWord_of reads_identifier).1

theorem isIdentifier_iff {word : Text} :
    isIdentifier word = true ↔ IsOneWord word ∧ word.head?.any isIdentifierStart = true :=
  (Scan.readsWord_of reads_identifier).2 word

theorem not_mem_of_isIdentifier {mark : Char} (apart : isWord mark = false) {name : Text}
    (identifier : isIdentifier name = true) : mark ∉ name := by
  intro member
  exact absurd (apart.symm.trans ((isIdentifier_iff.mp identifier).1.2 mark member)) nofun

theorem mem_identifiers {text word : Text} :
    word ∈ identifiers.occurrences text ↔ word ∈ words text ∧ isIdentifier word = true := by
  unfold identifiers
  rw [occurrences_of_readsWord readsWord_identifier, List.mem_filter]
  rfl

def Temporary (old new : Text) : Prop :=
  ∃ digits, IsNumber digits ∧ old = "_S" ++ digits ∧ new = 't' :: digits

theorem mem_temporaries {text word : Text} :
    word ∈ temporaries.occurrences text ↔ word ∈ words text ∧ ∃ new, Temporary word new := by
  obtain ⟨reads, accepted⟩ := Scan.readsWord_numbered (by decide : ∀ char ∈ "_S".toList ++ [],
    isWord char = true) rfl fun _text _rest => Scan.wordEnd_eq_some_iff
  unfold temporaries
  rw [occurrences_of_readsWord reads, List.mem_filter, accepted]
  refine and_congr_right fun _member => ?_
  constructor
  · rintro ⟨digits, number, same⟩
    rw [List.append_nil] at same
    exact ⟨_, digits, number, same, rfl⟩
  · rintro ⟨_new, digits, number, same, _equal⟩
    exact ⟨digits, number, by rw [List.append_nil, same]⟩

end Code
end ShaderBridge
