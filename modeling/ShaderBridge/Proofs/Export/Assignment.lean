import ShaderBridge.Proofs.Export.Return
import ShaderBridge.Proofs.Text.Lexeme
set_option autoImplicit false

/-! Statements that write the output color, by their lexemes. An assignment of the output is a
statement whose words in front of the first equals sign are a name of the output, behind at most one
word or behind `const` and one word (`assignedOutput_eq_some_iff`); that the one word is a type is
never looked at. A statement that hands the color on is one of two rows of lexemes
(`isWriteOut_iff`). -/

namespace ShaderBridge

namespace Export

open Code
open Text (Blank IsOneWord Trimmed startsWord lexemes)

theorem beforeSemicolon_eq_some_iff {text value : Text} :
    beforeSemicolon text = some value ↔ text = value ++ [';'] ∧ value ≠ [] := by
  constructor
  · intro found
    refine ⟨beforeSemicolon_eq_some found, ?_⟩
    rintro rfl
    rw [beforeSemicolon_eq_some found] at found
    cases found
  · rintro ⟨rfl, filled⟩
    unfold beforeSemicolon
    rw [List.reverse_concat]
    cases turned : value.reverse with
    | nil => exact absurd (List.reverse_eq_nil_iff.mp turned) filled
    | cons char reversed => exact congrArg some (by rw [← turned, List.reverse_reverse])

theorem identifier_someBlanks_eq_some_iff {text rest : Text} :
    (Scan.identifier >=> Scan.someBlanks) text = some rest ↔
      ∃ word gap, isIdentifier word = true ∧ gap ≠ [] ∧ Blank gap ∧ text = word ++ (gap ++ rest) ∧
        rest.head?.any isBlank = false := by
  rw [Scan.andThen_eq_some_iff]
  constructor
  · rintro ⟨between, read, white⟩
    obtain ⟨word, _one, accepted, rfl, _apart⟩ := (readsWord_identifier _ _).mp read
    obtain ⟨gap, filled, blank, rfl, dark⟩ := Scan.oneOrMore_eq_some_iff.mp white
    exact ⟨word, gap, accepted, filled, blank, rfl, dark⟩
  · rintro ⟨word, gap, accepted, filled, blank, rfl, dark⟩
    refine ⟨gap ++ rest, (readsWord_identifier _ _).mpr ⟨word, (isIdentifier_iff.mp accepted).1,
      accepted, rfl, Text.startsWord_blank_append filled blank rest⟩, ?_⟩
    exact Scan.oneOrMore_eq_some_iff.mpr ⟨gap, filled, blank, rfl, dark⟩

theorem literal_someBlanks_eq_some_iff {word text rest : Text} :
    (Scan.literal word >=> Scan.someBlanks) text = some rest ↔
      ∃ gap, gap ≠ [] ∧ Blank gap ∧ text = word ++ (gap ++ rest) ∧
        rest.head?.any isBlank = false := by
  rw [Scan.andThen_eq_some_iff]
  constructor
  · rintro ⟨between, read, white⟩
    obtain ⟨gap, filled, blank, rfl, dark⟩ := Scan.oneOrMore_eq_some_iff.mp white
    exact ⟨gap, filled, blank, Scan.literal_eq_some_iff.mp read, dark⟩
  · rintro ⟨gap, filled, blank, rfl, dark⟩
    exact ⟨gap ++ rest, Scan.literal_eq_some_iff.mpr rfl,
      Scan.oneOrMore_eq_some_iff.mpr ⟨gap, filled, blank, rfl, dark⟩⟩

theorem isIdentifier_of_outputName : ∀ name ∈ outputNames, isIdentifier name = true := by decide

theorem oneWord_of_outputName {name : Text} (known : name ∈ outputNames) : IsOneWord name :=
  (isIdentifier_iff.mp (isIdentifier_of_outputName name known)).1

theorem outputName_eq_some_iff {text rest : Text} :
    outputName text = some rest ↔
      ∃ name ∈ outputNames, text = name ++ rest ∧ startsWord rest = false := by
  rw [readsWord_outputName.1]
  constructor
  · rintro ⟨name, _one, accepted, same, apart⟩
    exact ⟨name, (readsWord_outputName.2 name).mp accepted, same, apart⟩
  · rintro ⟨name, known, same, apart⟩
    exact ⟨name, oneWord_of_outputName known, (readsWord_outputName.2 name).mpr known, same, apart⟩

abbrev Identifier := {name : Text // isIdentifier name = true}

abbrev Blanks := {text : Text // Blank text}

abbrev Gap := {text : Text // text ≠ [] ∧ Blank text}

/-- What stands in front of the equals sign where a variable is assigned, or declared with a value:
the words of a type, which an assignment has none of, and the name. -/
structure Target where
  text : Text
  type : List Text
  name : Text
  reads : lexemes text = (type ++ [name]).map Token.word
  dark : text.head?.any isBlank = false
  named : ∀ word ∈ type ++ [name], isIdentifier word = true

namespace Target

def Short (target : Target) : Prop :=
  target.type.length ≤ 1 ∨ target.type.length = 2 ∧ target.type.head? = some "const".toList

instance (target : Target) : Decidable target.Short := inferInstanceAs (Decidable (_ ∨ _))

theorem mark_not_mem (target : Target) {char : Char} (mark : isWord char = false)
    (dark : isBlank char = false) : char ∉ target.text := by
  intro member
  have token := Text.mark_mem_tokens.mpr ⟨member, mark⟩
  have lexeme : Token.mark char ∈ lexemes target.text :=
    List.mem_filter.mpr ⟨token, by rw [Token.isWhite, dark]; rfl⟩
  rw [target.reads] at lexeme
  obtain ⟨word, _known, same⟩ := List.mem_map.mp lexeme
  cases same

theorem eq_of_append {first second : Target} {value other : Text}
    (same : first.text ++ '=' :: value = second.text ++ '=' :: other) :
    first.text = second.text ∧ value = other := by
  have absent : ∀ target : Target, '=' ∉ target.text := fun target =>
    target.mark_not_mem (by decide) (by decide)
  have cut : ∀ (target : Target) (rest : Text),
      (target.text ++ '=' :: rest).takeWhile (· != '=') = target.text := by
    intro target rest
    rw [List.takeWhile_append_of_pos fun char member => ?_, List.takeWhile_cons_of_neg (by simp),
      List.append_nil]
    exact bne_iff_ne.mpr fun sign => absent target (sign ▸ member)
  have left : first.text = second.text := by
    rw [← cut first value, same, cut]
  rw [left] at same
  exact ⟨left, (List.cons.inj (List.append_cancel_left same)).2⟩

theorem words_eq_of_text_eq {first second : Target} (same : first.text = second.text) :
    first.type = second.type ∧ first.name = second.name := by
  have reads := second.reads
  rw [← same, first.reads] at reads
  have words := List.map_injective_iff.mpr (fun _first _second => Token.word.inj) reads
  obtain ⟨type, name⟩ := List.append_inj' words rfl
  exact ⟨type, List.singleton_inj.mp name⟩

/-- A name alone, with white space behind it. -/
def plain (name : Identifier) (blanks : Blanks) : Target where
  text := name.1 ++ blanks.1
  type := []
  name := name.1
  reads := by
    rw [Text.lexemes_word_append (isIdentifier_iff.mp name.2).1 blanks.2.startsWord,
      blanks.2.lexemes]
    rfl
  dark := Text.dark_word_append (isIdentifier_iff.mp name.2).1 blanks.1
  named := List.forall_mem_singleton.mpr name.2

/-- A target with one more word in front of it. -/
def behind (word : Identifier) (gap : Gap) (target : Target) : Target where
  text := word.1 ++ (gap.1 ++ target.text)
  type := word.1 :: target.type
  name := target.name
  reads := by
    rw [Text.lexemes_word_gap_append (isIdentifier_iff.mp word.2).1 gap.2.1 gap.2.2, target.reads]
    rfl
  dark := Text.dark_word_append (isIdentifier_iff.mp word.2).1 _
  named := List.forall_mem_cons.mpr ⟨word.2, target.named⟩

theorem exists_plain {target : Target} (none : target.type = []) :
    ∃ blanks, Blank blanks ∧ target.text = target.name ++ blanks := by
  have reads := target.reads
  rw [none] at reads
  obtain ⟨blanks, same, _one, _apart, later⟩ := Text.eq_word_append reads target.dark
  exact ⟨blanks, Text.blank_of_lexemes later, same⟩

theorem exists_behind {target : Target} {word : Text} {others : List Text}
    (type : target.type = word :: others) :
    ∃ (gap : Gap) (inner : Target), target.text = word ++ (gap.1 ++ inner.text) ∧
      inner.type = others ∧ inner.name = target.name := by
  have reads := target.reads
  have named := target.named
  rw [type] at reads named
  obtain ⟨next, more, row⟩ : ∃ next more, others ++ [target.name] = next :: more :=
    List.exists_cons_of_ne_nil (List.append_ne_nil_of_right_ne_nil others (List.cons_ne_nil _ _))
  rw [List.cons_append, row, List.map_cons, List.map_cons] at reads
  obtain ⟨gap, rest, same, _one, filled, blank, dark, later⟩ :=
    Text.eq_word_gap_append reads target.dark
  refine ⟨⟨gap, filled, blank⟩, ⟨rest, others, target.name, ?_, dark, ?_⟩, same, rfl, rfl⟩
  · rw [row]
    exact later
  · exact fun word member => named word (List.mem_cons_of_mem _ member)

end Target

def outputTarget : Scan :=
  outputName >=> Scan.blanks >=> Scan.literal "=" >=> Scan.notBefore (Scan.literal "=")

def outputAssignment : Scan :=
  Scan.orElse ((Scan.literal "const" >=> Scan.someBlanks) >=> (Scan.identifier >=> Scan.someBlanks)
    >=> outputTarget) (Scan.orElse ((Scan.identifier >=> Scan.someBlanks) >=> outputTarget) outputTarget)

theorem assignedOutput_eq (statement : Text) :
    assignedOutput statement = (outputAssignment statement).bind beforeSemicolon := rfl

private theorem literal_sign_eq_none_iff {text : Text} :
    Scan.literal "=" text = none ↔ text.head? ≠ some '=' := by
  rw [Option.eq_none_iff_forall_ne_some]
  constructor
  · intro none first
    cases text with
    | nil => cases first
    | cons char text =>
        obtain rfl := Option.some.inj first
        exact none text (Scan.literal_eq_some_iff.mpr rfl)
  · intro other rest found
    rw [Scan.literal_eq_some_iff.mp found] at other
    exact other rfl

theorem outputTarget_eq_some_iff {text value : Text} :
    outputTarget text = some value ↔
      ∃ name ∈ outputNames, ∃ blanks, Blank blanks ∧ text = name ++ (blanks ++ '=' :: value) ∧
        value.head? ≠ some '=' := by
  constructor
  · intro found
    obtain ⟨behind, named, found⟩ := Scan.andThen_eq_some_iff.mp found
    obtain ⟨sign, white, found⟩ := Scan.andThen_eq_some_iff.mp found
    obtain ⟨after, equals, single⟩ := Scan.andThen_eq_some_iff.mp found
    obtain ⟨name, known, rfl, _apart⟩ := outputName_eq_some_iff.mp named
    obtain ⟨blanks, blank, rfl, _dark⟩ := Scan.zeroOrMore_eq_some_iff.mp white
    obtain rfl := Scan.literal_eq_some_iff.mp equals
    obtain ⟨rfl, other⟩ := Scan.notBefore_eq_some_iff.mp single
    exact ⟨name, known, blanks, blank, rfl, literal_sign_eq_none_iff.mp other⟩
  · rintro ⟨name, known, blanks, blank, rfl, other⟩
    have apart : startsWord (blanks ++ '=' :: value) = false :=
      Text.startsWord_append_of_not blank.startsWord (by rfl)
    refine Scan.andThen_eq_some_iff.mpr
      ⟨_, outputName_eq_some_iff.mpr ⟨name, known, rfl, apart⟩, ?_⟩
    refine Scan.andThen_eq_some_iff.mpr
      ⟨_, Scan.zeroOrMore_eq_some_iff.mpr ⟨blanks, blank, rfl, rfl⟩, ?_⟩
    exact Scan.andThen_eq_some_iff.mpr ⟨value, Scan.literal_eq_some_iff.mpr rfl,
      Scan.notBefore_eq_some_iff.mpr ⟨rfl, literal_sign_eq_none_iff.mpr other⟩⟩

private theorem exists_target_of_read {statement behind : Text}
    (found : outputAssignment statement = some behind) :
    ∃ target : Target, target.Short ∧ target.name ∈ outputNames ∧ behind.head? ≠ some '=' ∧
      statement = target.text ++ '=' :: behind := by
  have named : ∀ {text : Text}, outputTarget text = some behind →
      ∃ target : Target, target.type = [] ∧ target.name ∈ outputNames ∧ behind.head? ≠ some '=' ∧
        text = target.text ++ '=' :: behind := by
    intro text found
    obtain ⟨name, known, blanks, blank, rfl, other⟩ := outputTarget_eq_some_iff.mp found
    exact ⟨.plain ⟨name, isIdentifier_of_outputName name known⟩ ⟨blanks, blank⟩, rfl, known, other,
      (List.append_assoc _ _ _).symm⟩
  have typed : ∀ {text : Text},
      ((Scan.identifier >=> Scan.someBlanks) >=> outputTarget) text = some behind →
        ∃ (target : Target) (word : Text), target.type = [word] ∧ target.name ∈ outputNames ∧
          behind.head? ≠ some '=' ∧ text = target.text ++ '=' :: behind := by
    intro text found
    obtain ⟨between, read, later⟩ := Scan.andThen_eq_some_iff.mp found
    obtain ⟨word, gap, identifier, filled, blank, rfl, _dark⟩ :=
      identifier_someBlanks_eq_some_iff.mp read
    obtain ⟨target, none, known, other, rfl⟩ := named later
    refine ⟨target.behind ⟨word, identifier⟩ ⟨gap, filled, blank⟩, word, ?_, known, other, ?_⟩
    · exact congrArg (word :: ·) none
    · simp [Target.behind]
  rcases Scan.orElse_eq_some found with constant | found
  · obtain ⟨between, read, later⟩ := Scan.andThen_eq_some_iff.mp constant
    obtain ⟨gap, filled, blank, rfl, _dark⟩ := literal_someBlanks_eq_some_iff.mp read
    obtain ⟨target, word, single, known, other, rfl⟩ := typed later
    refine ⟨target.behind ⟨"const", by decide⟩ ⟨gap, filled, blank⟩, .inr ⟨?_, rfl⟩, known, other, ?_⟩
    · exact congrArg (List.length <| "const".toList :: ·) single
    · simp [Target.behind]
  · rcases Scan.orElse_eq_some found with found | found
    · obtain ⟨target, word, single, rest⟩ := typed found
      exact ⟨target, .inl (by rw [single]; exact Nat.le_refl 1), rest⟩
    · obtain ⟨target, none, rest⟩ := named found
      exact ⟨target, .inl (by rw [none]; exact Nat.zero_le 1), rest⟩

private theorem isSome_orElse {first second : Scan} {text : Text}
    (some : (first text).isSome = true ∨ (second text).isSome = true) :
    (Scan.orElse first second text).isSome = true := by
  unfold Scan.orElse
  cases read : first text with
  | none => exact some.resolve_left (by rw [read]; exact nofun)
  | some rest => rfl

private theorem read_of_short {target : Target} (short : target.Short)
    (known : target.name ∈ outputNames) (behind : Text) (other : behind.head? ≠ some '=') :
    (outputAssignment (target.text ++ '=' :: behind)).isSome = true := by
  have dark : ∀ target : Target, (target.text ++ '=' :: behind).head?.any isBlank = false := by
    intro target
    have first := target.dark
    cases same : target.text with
    | nil => rfl
    | cons char text =>
        rw [same] at first
        exact first
  have named : ∀ {target : Target}, target.type = [] → target.name ∈ outputNames →
      outputTarget (target.text ++ '=' :: behind) = some behind := by
    intro target none known
    obtain ⟨blanks, blank, same⟩ := target.exists_plain none
    rw [same, List.append_assoc]
    exact outputTarget_eq_some_iff.mpr ⟨_, known, blanks, blank, rfl, other⟩
  have typed : ∀ {target : Target} {word : Text}, target.type = [word] →
      target.name ∈ outputNames →
        ((Scan.identifier >=> Scan.someBlanks) >=> outputTarget) (target.text ++ '=' :: behind) =
          some behind := by
    intro target word single known
    obtain ⟨gap, inner, same, none, name⟩ := target.exists_behind single
    have identifier := target.named word (by rw [single]; exact List.mem_cons_self)
    rw [same, List.append_assoc, List.append_assoc]
    exact Scan.andThen_eq_some_iff.mpr ⟨_, identifier_someBlanks_eq_some_iff.mpr
      ⟨word, gap.1, identifier, gap.2.1, gap.2.2, rfl, dark inner⟩, named none (name ▸ known)⟩
  rcases short with short | ⟨two, const⟩
  · refine isSome_orElse (.inr (isSome_orElse ?_))
    match row : target.type, short with
    | [], _ => exact .inr (by rw [named row known]; rfl)
    | [word], _ => exact .inl (by rw [typed row known]; rfl)
  · obtain ⟨first, word, pair⟩ := List.length_eq_two.mp two
    rw [pair] at const
    obtain rfl : first = "const".toList := Option.some.inj const
    obtain ⟨gap, inner, same, single, name⟩ := target.exists_behind pair
    refine isSome_orElse (.inl ?_)
    have read := literal_someBlanks_eq_some_iff.mpr
      ⟨gap.1, gap.2.1, gap.2.2, (rfl : "const".toList ++ _ = _), dark inner⟩
    have whole := Scan.andThen_eq_some_iff.mpr ⟨_, read, typed single (name ▸ known)⟩
    rw [same, List.append_assoc, List.append_assoc, whole]
    rfl

theorem assignedOutput_eq_some_iff {statement value : Text} :
    assignedOutput statement = some value ↔
      ∃ target : Target, target.Short ∧ target.name ∈ outputNames ∧ value ≠ [] ∧
        value.head? ≠ some '=' ∧ statement = target.text ++ '=' :: (value ++ [';']) := by
  have first : ∀ {value : Text}, value ≠ [] → (value ++ [';']).head? = value.head? :=
    fun filled => List.head?_append_of_ne_nil _ filled
  rw [assignedOutput_eq, Option.bind_eq_some_iff]
  constructor
  · rintro ⟨behind, read, ended⟩
    obtain ⟨rfl, filled⟩ := beforeSemicolon_eq_some_iff.mp ended
    obtain ⟨target, short, known, other, same⟩ := exists_target_of_read read
    exact ⟨target, short, known, filled, first filled ▸ other, same⟩
  · rintro ⟨target, short, known, filled, other, rfl⟩
    obtain ⟨behind, read⟩ := Option.isSome_iff_exists.mp
      (read_of_short short known (value ++ [';']) (first filled ▸ other))
    obtain ⟨_target, _short, _known, _other, same⟩ := exists_target_of_read read
    obtain ⟨_text, rfl⟩ := Target.eq_of_append same
    exact ⟨_, read, beforeSemicolon_eq_some_iff.mpr ⟨rfl, filled⟩⟩

abbrev OutputName := {name : Text // name ∈ outputNames}

/-- A statement that hands the color on: a return of a name of the output, or an assignment of one
name to another. -/
inductive WriteOut where
  | returned (source : OutputName)
  | forwarded (name source : OutputName)

namespace WriteOut

def lexemes : WriteOut → List Token
  | returned source => [.word "return", .word source.1, .mark ';']
  | forwarded name source => [.word name.1, .mark '=', .word source.1, .mark ';']

/-- The name that is read. -/
def source : WriteOut → Text
  | returned source => source.1
  | forwarded _name source => source.1

def target? : WriteOut → Option Text
  | returned _source => none
  | forwarded name _source => some name.1

end WriteOut

def outputReturn : Scan := Scan.literal "return" >=> Scan.someBlanks >=> outputName

def outputCopy : Scan :=
  outputName >=> Scan.blanks >=> Scan.literal "=" >=> Scan.blanks >=> outputName

theorem isWriteOut_eq (statement : Text) :
    isWriteOut statement = Scan.accepts
      (Scan.orElse outputReturn outputCopy >=> Scan.blanks >=> Scan.literal ";") statement := rfl

theorem outputReturn_eq_some_iff {text rest : Text} :
    outputReturn text = some rest ↔
      ∃ gap, gap ≠ [] ∧ Blank gap ∧ ∃ name ∈ outputNames, text = "return" ++ (gap ++ (name ++ rest)) ∧
        startsWord rest = false := by
  constructor
  · intro found
    obtain ⟨behind, keyword, later⟩ := Scan.andThen_eq_some_iff.mp found
    obtain ⟨between, white, named⟩ := Scan.andThen_eq_some_iff.mp later
    obtain ⟨gap, filled, blank, rfl, _dark⟩ := Scan.oneOrMore_eq_some_iff.mp white
    obtain ⟨name, known, rfl, apart⟩ := outputName_eq_some_iff.mp named
    exact ⟨gap, filled, blank, name, known, Scan.literal_eq_some_iff.mp keyword, apart⟩
  · rintro ⟨gap, filled, blank, name, known, rfl, apart⟩
    refine Scan.andThen_eq_some_iff.mpr ⟨_, Scan.literal_eq_some_iff.mpr rfl, ?_⟩
    refine Scan.andThen_eq_some_iff.mpr ⟨_, Scan.oneOrMore_eq_some_iff.mpr
      ⟨gap, filled, blank, rfl, Text.dark_word_append (oneWord_of_outputName known) rest⟩, ?_⟩
    exact outputName_eq_some_iff.mpr ⟨name, known, rfl, apart⟩

theorem outputCopy_eq_some_iff {text rest : Text} :
    outputCopy text = some rest ↔
      ∃ name ∈ outputNames, ∃ source ∈ outputNames, ∃ front gap, Blank front ∧ Blank gap ∧
        text = name ++ (front ++ '=' :: (gap ++ (source ++ rest))) ∧ startsWord rest = false := by
  constructor
  · intro found
    obtain ⟨behind, named, later⟩ := Scan.andThen_eq_some_iff.mp found
    obtain ⟨sign, white, later⟩ := Scan.andThen_eq_some_iff.mp later
    obtain ⟨after, equals, later⟩ := Scan.andThen_eq_some_iff.mp later
    obtain ⟨between, spaces, sourced⟩ := Scan.andThen_eq_some_iff.mp later
    obtain ⟨name, known, rfl, _apart⟩ := outputName_eq_some_iff.mp named
    obtain ⟨front, blank, rfl, _dark⟩ := Scan.zeroOrMore_eq_some_iff.mp white
    obtain rfl := Scan.literal_eq_some_iff.mp equals
    obtain ⟨gap, clear, rfl, _dark⟩ := Scan.zeroOrMore_eq_some_iff.mp spaces
    obtain ⟨source, read, rfl, apart⟩ := outputName_eq_some_iff.mp sourced
    exact ⟨name, known, source, read, front, gap, blank, clear, rfl, apart⟩
  · rintro ⟨name, known, source, read, front, gap, blank, clear, rfl, apart⟩
    have distant : startsWord (front ++ '=' :: (gap ++ (source ++ rest))) = false :=
      Text.startsWord_append_of_not blank.startsWord (by rfl)
    refine Scan.andThen_eq_some_iff.mpr
      ⟨_, outputName_eq_some_iff.mpr ⟨name, known, rfl, distant⟩, ?_⟩
    refine Scan.andThen_eq_some_iff.mpr
      ⟨_, Scan.zeroOrMore_eq_some_iff.mpr ⟨front, blank, rfl, rfl⟩, ?_⟩
    refine Scan.andThen_eq_some_iff.mpr
      ⟨gap ++ (source ++ rest), Scan.literal_eq_some_iff.mpr rfl, ?_⟩
    refine Scan.andThen_eq_some_iff.mpr ⟨_, Scan.zeroOrMore_eq_some_iff.mpr
      ⟨gap, clear, rfl, Text.dark_word_append (oneWord_of_outputName read) rest⟩, ?_⟩
    exact outputName_eq_some_iff.mpr ⟨source, read, rfl, apart⟩

private theorem eq_blanks_semicolon {front rest : Text} (trimmed : Trimmed (front ++ rest))
    (same : lexemes rest = [.mark ';']) : ∃ blanks, Blank blanks ∧ rest = blanks ++ [';'] := by
  obtain ⟨blanks, tail, blank, rfl, _mark, _dark, none⟩ := Text.lexemes_eq_mark_iff.mp same
  have white := Text.blank_of_lexemes none
  cases tail with
  | nil => exact ⟨blanks, blank, rfl⟩
  | cons char tail =>
      have last := trimmed.2
      rw [List.getLast?_append_of_ne_nil _ (by simp), List.getLast?_append_of_ne_nil _ (by simp),
        List.getLast?_cons_cons, List.getLast?_eq_some_getLast (List.cons_ne_nil char tail)] at last
      exact absurd ((white _ (List.getLast_mem _)).symm.trans last) nofun

private theorem read_semicolon {blanks : Text} (blank : Blank blanks) :
    (Scan.blanks >=> Scan.literal ";") (blanks ++ [';']) = some [] :=
  Scan.andThen_eq_some_iff.mpr ⟨[';'], Scan.zeroOrMore_eq_some_iff.mpr ⟨blanks, blank, rfl, rfl⟩, rfl⟩

private theorem lexemes_of_outputReturn {text rest : Text} (found : outputReturn text = some rest) :
    ∃ source : OutputName, lexemes text = .word "return" :: .word source.1 :: lexemes rest := by
  obtain ⟨gap, filled, blank, name, known, rfl, apart⟩ := outputReturn_eq_some_iff.mp found
  refine ⟨⟨name, known⟩, ?_⟩
  rw [Text.lexemes_word_gap_append ⟨by decide, by decide⟩ filled blank,
    Text.lexemes_word_append (oneWord_of_outputName known) apart]

private theorem lexemes_of_outputCopy {text rest : Text} (found : outputCopy text = some rest) :
    ∃ name source : OutputName, lexemes text =
      .word name.1 :: .mark '=' :: .word source.1 :: lexemes rest := by
  obtain ⟨name, known, source, read, front, gap, blank, clear, rfl, apart⟩ :=
    outputCopy_eq_some_iff.mp found
  have distant : startsWord (front ++ '=' :: (gap ++ (source ++ rest))) = false :=
    Text.startsWord_append_of_not blank.startsWord (by rfl)
  refine ⟨⟨name, known⟩, ⟨source, read⟩, ?_⟩
  rw [Text.lexemes_word_append (oneWord_of_outputName known) distant,
    Text.lexemes_blank_append blank, Text.lexemes_cons_mark (by decide) (by decide),
    Text.lexemes_blank_append clear, Text.lexemes_word_append (oneWord_of_outputName read) apart]

theorem isWriteOut_iff {statement : Text} (trimmed : Trimmed statement) :
    isWriteOut statement = true ↔ ∃ writeOut : WriteOut, lexemes statement = writeOut.lexemes := by
  rw [isWriteOut_eq, Scan.accepts_eq_true_iff, Scan.andThen_eq_some_iff]
  constructor
  · rintro ⟨rest, read, ended⟩
    have closed : lexemes rest = [.mark ';'] := by
      obtain ⟨sign, white, semicolon⟩ := Scan.andThen_eq_some_iff.mp ended
      obtain ⟨blanks, blank, rfl, _dark⟩ := Scan.zeroOrMore_eq_some_iff.mp white
      rw [Scan.literal_eq_some_iff.mp semicolon, Text.lexemes_blank_append blank]
      decide
    rcases Scan.orElse_eq_some read with returns | copies
    · obtain ⟨source, same⟩ := lexemes_of_outputReturn returns
      exact ⟨.returned source, by rw [same, closed]; rfl⟩
    · obtain ⟨name, source, same⟩ := lexemes_of_outputCopy copies
      exact ⟨.forwarded name source, by rw [same, closed]; rfl⟩
  · rintro ⟨writeOut, same⟩
    cases writeOut with
    | returned source =>
        obtain ⟨gap, more, rfl, _one, filled, blank, dark, later⟩ :=
          Text.eq_word_gap_append same trimmed.1
        obtain ⟨rest, rfl, _one, apart, last⟩ := Text.eq_word_append later dark
        rw [← List.append_assoc, ← List.append_assoc] at trimmed
        obtain ⟨blanks, white, rfl⟩ := eq_blanks_semicolon trimmed last
        have read := outputReturn_eq_some_iff.mpr
          ⟨gap, filled, blank, source.1, source.2, rfl, apart⟩
        refine ⟨blanks ++ [';'], ?_, read_semicolon white⟩
        unfold Scan.orElse
        rw [read]
        rfl
    | forwarded name source =>
        obtain ⟨behind, rfl, _one, _apart, later⟩ := Text.eq_word_append same trimmed.1
        obtain ⟨front, after, blank, rfl, _mark, _dark, later⟩ := Text.lexemes_eq_mark_iff.mp later
        obtain ⟨gap, rest, clear, rfl, _one, apart, last⟩ := Text.lexemes_eq_word_iff.mp later
        have whole : name.1 ++ (front ++ '=' :: (gap ++ (source.1 ++ rest))) =
            (name.1 ++ (front ++ '=' :: (gap ++ source.1))) ++ rest := by simp
        obtain ⟨blanks, white, rfl⟩ := eq_blanks_semicolon (whole ▸ trimmed) last
        have read := outputCopy_eq_some_iff.mpr
          ⟨name.1, name.2, source.1, source.2, front, gap, blank, clear, rfl, apart⟩
        have other : outputReturn (name.1 ++ (front ++ '=' :: (gap ++ (source.1 ++
            (blanks ++ [';']))))) = none := by
          refine Option.eq_none_iff_forall_ne_some.mpr fun rest found => ?_
          obtain ⟨_source, row⟩ := lexemes_of_outputReturn found
          have first := (List.cons.inj (same.symm.trans row)).1
          exact absurd (Token.word.inj first ▸ name.2) (by decide)
        refine ⟨blanks ++ [';'], ?_, read_semicolon white⟩
        unfold Scan.orElse
        rw [other]
        exact read

/-- The first of the statements that hand the color on names what it reads last. -/
theorem writtenName_of_lexemes {first : Statement} {writeOut : WriteOut}
    (reads : lexemes first.text = writeOut.lexemes) (others : List Statement) :
    writtenName (first :: others) = writeOut.source := by
  have accepted : ∀ name ∈ outputNames, outputName.accepts name = true := fun name known =>
    (readsWord_outputName.2 name).mpr known
  have last : (outputName.atWordStart.occurrences first.text).getLast? = some writeOut.source := by
    rw [occurrences_of_readsWord readsWord_outputName.1, Text.words_eq_lexemes, reads]
    cases writeOut with
    | returned source =>
        simp [WriteOut.lexemes, WriteOut.source, accepted source.1 source.2]
    | forwarded name source =>
        simp [WriteOut.lexemes, WriteOut.source, accepted name.1 name.2,
          accepted source.1 source.2]
  unfold writtenName
  simp only
  rw [List.findSome?_cons, last]
  rfl

end Export
end ShaderBridge
