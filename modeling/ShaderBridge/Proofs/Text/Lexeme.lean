import ShaderBridge.Proofs.Text.Character
import ShaderBridge.Proofs.Text.Lines
import ShaderBridge.Proofs.Text.Token
import ShaderBridge.Proofs.Text.Trim
set_option autoImplicit false

/-! Tokens line by line, and lexemes, the tokens that are not white space. A change of words alone
changes the lines one by one (`lines_of_tokens_map`). Lexemes say what a line says to a reader who
does not care for spacing: they are those of the trimmed line (`lexemes_trim`), and a text with a
given first lexeme is white space, that lexeme, and a text with the other lexemes
(`lexemes_eq_word_iff`, `lexemes_eq_mark_iff`). -/

namespace ShaderBridge
namespace Text

theorem isWord_line_feed : isWord '\n' = false := by decide

theorem tokens_append_mark {char : Char} (mark : isWord char = false) (first rest : Text) :
    tokens (first ++ char :: rest) = tokens first ++ .mark char :: tokens rest := by
  have apart : startsWord (char :: rest) = false := mark
  rw [tokens_append fun _ends => apart, tokens_cons_mark mark]

theorem words_append_mark {char : Char} (mark : isWord char = false) (first rest : Text) :
    words (first ++ char :: rest) = words first ++ words rest := by
  unfold words
  rw [tokens_append_mark mark, List.filterMap_append]
  rfl

theorem words_unlines (parts : List Text) : words (unlines parts) = parts.flatMap words :=
  unlines_eq_flatMap rfl (words_append_mark isWord_line_feed) parts

theorem mark_mem_tokens {char : Char} {text : Text} :
    .mark char ∈ tokens text ↔ char ∈ text ∧ isWord char = false := by
  constructor
  · intro member
    have held : char ∈ spell (tokens text) :=
      List.mem_flatMap.mpr ⟨_, member, List.mem_singleton.mpr rfl⟩
    rw [spell_tokens] at held
    obtain ⟨first, rest, split⟩ := List.append_of_mem member
    have lexed := lexed_tokens text
    rw [split] at lexed
    cases lexed.split.2.1 with
    | mark mark _rest => exact ⟨held, mark⟩
  · rintro ⟨held, mark⟩
    obtain ⟨first, rest, rfl⟩ := List.append_of_mem held
    rw [tokens_append_mark mark]
    exact List.mem_append_right _ List.mem_cons_self

theorem mem_of_tokens_map {text other : Text} {change : Text → Text} {char : Char}
    (same : tokens other = (tokens text).map (Token.map change)) (mark : isWord char = false)
    (member : char ∈ other) : char ∈ text := by
  have found := mark_mem_tokens.mpr ⟨member, mark⟩
  rw [same] at found
  obtain ⟨token, source, equal⟩ := List.mem_map.mp found
  cases token with
  | word word => cases equal
  | mark other =>
      cases equal
      exact (mark_mem_tokens.mp source).1

theorem tokens_lines (text : Text) :
    (lines text).map tokens = (tokens text).splitOn (.mark '\n') := by
  have flat_tokens : ∀ {line : Text}, '\n' ∉ line → .mark '\n' ∉ tokens line :=
    fun flat inside => flat (mark_mem_tokens.mp inside).1
  induction text using lines_induction with
  | last line flat =>
      rw [lines_of_flat flat, List.splitOn_eq_singleton (flat_tokens flat), List.map_singleton]
  | first line rest flat ih =>
      rw [lines_of_flat_append flat, tokens_append_mark isWord_line_feed,
        List.splitOn_append_cons_self_of_not_mem (flat_tokens flat), List.map_cons, ih]

private theorem splitOn_map (change : Text → Text) (parts : List Token) :
    (parts.map (Token.map change)).splitOn (.mark '\n') =
      (parts.splitOn (.mark '\n')).map (List.map (Token.map change)) := by
  induction parts with
  | nil => rfl
  | cons token parts ih =>
      rw [List.map_cons, List.splitOn_cons_eq_if_modifyHead, List.splitOn_cons_eq_if_modifyHead, ih]
      by_cases ends : token = .mark '\n'
      · rw [ends, Token.map, if_pos (beq_self_eq_true _), if_pos (beq_self_eq_true _)]
        rfl
      · have stays : Token.map change token ≠ .mark '\n' := by
          cases token with
          | word word => exact nofun
          | mark char => exact ends
        rw [if_neg (mt beq_iff_eq.mp ends), if_neg (mt beq_iff_eq.mp stays)]
        cases parts.splitOn (.mark '\n') <;> rfl

theorem lines_of_tokens_map {text other : Text} {change : Text → Text}
    (same : tokens other = (tokens text).map (Token.map change)) :
    (lines other).map tokens = (lines text).map fun line =>
      (tokens line).map (Token.map change) := by
  rw [tokens_lines, same, splitOn_map change, ← tokens_lines, List.map_map]
  rfl

def lexemes (text : Text) : List Token := (tokens text).filter fun token => !token.isWhite

theorem lexemes_append {first rest : Text}
    (apart : endsWord first = true → startsWord rest = false) :
    lexemes (first ++ rest) = lexemes first ++ lexemes rest := by
  unfold lexemes
  rw [tokens_append apart, List.filter_append]

theorem Blank.startsWord {text : Text} (blank : Blank text) : startsWord text = false := by
  cases text with
  | nil => rfl
  | cons char text => exact isWord_of_isBlank (blank char List.mem_cons_self)

theorem Blank.endsWord {text : Text} (blank : Blank text) : endsWord text = false := by
  unfold Text.endsWord
  rw [← List.head?_reverse]
  exact blank.reverse.startsWord

theorem standsIn_trim (text : Text) : StandsIn text.trim text := by
  obtain ⟨before, after, left, right, same⟩ := exists_trim text
  exact ⟨before, after, same, left.endsWord, right.startsWord⟩

theorem Blank.lexemes {text : Text} (blank : Blank text) : lexemes text = [] := by
  induction text with
  | nil => rfl
  | cons char text ih =>
      obtain ⟨white, rest⟩ := List.forall_mem_cons.mp blank
      unfold Text.lexemes at ih ⊢
      rw [tokens_cons_mark (isWord_of_isBlank white),
        List.filter_cons_of_neg (by rw [Token.isWhite, white]; exact Bool.false_ne_true), ih rest]

theorem Blank.isWhite {text : Text} (blank : Blank text) {token : Token}
    (member : token ∈ tokens text) : token.isWhite = true := by
  have none := List.filter_eq_nil_iff.mp blank.lexemes token member
  rwa [Bool.not_eq_true', Bool.not_eq_false] at none

theorem lexemes_blank_append {blanks : Text} (blank : Blank blanks) (text : Text) :
    lexemes (blanks ++ text) = lexemes text := by
  rw [lexemes_append fun ends => absurd (blank.endsWord.symm.trans ends) nofun, blank.lexemes,
    List.nil_append]

theorem lexemes_append_blank {blanks : Text} (text : Text) (blank : Blank blanks) :
    lexemes (text ++ blanks) = lexemes text := by
  rw [lexemes_append fun _ends => blank.startsWord, blank.lexemes, List.append_nil]

@[simp] theorem lexemes_trim (text : Text) : lexemes (trim text) = lexemes text := by
  obtain ⟨before, after, left, right, same⟩ := exists_trim text
  have whole := lexemes_append_blank (before ++ trim text) right
  rw [← same, lexemes_blank_append left] at whole
  exact whole.symm

theorem lexemes_of_tokens_map {text other : Text} {change : Text → Text}
    (same : tokens other = (tokens text).map (Token.map change)) :
    lexemes other = (lexemes text).map (Token.map change) := by
  unfold lexemes
  rw [same, List.filter_map]
  refine congrArg (List.map _) (List.filter_congr fun token _member => ?_)
  cases token <;> rfl

theorem word_mem_lexemes {text word : Text} : .word word ∈ lexemes text ↔ word ∈ words text := by
  unfold lexemes
  rw [List.mem_filter, mem_words]
  exact and_iff_left rfl

theorem blank_spell {white : List Token}
    (each : ∀ token ∈ white, token.isWhite = true) : Blank (spell white) := by
  intro char member
  obtain ⟨token, source, inside⟩ := List.mem_flatMap.mp member
  have blank := each token source
  cases token with
  | word word => cases blank
  | mark mark =>
      rw [List.mem_singleton.mp inside]
      exact blank

@[simp] theorem words_trim (text : Text) : words (trim text) = words text := by
  obtain ⟨pick, listed, marks⟩ : ∃ pick : Token → Option Text,
      (∀ text, words text = (tokens text).filterMap pick) ∧ ∀ char, pick (.mark char) = none :=
    ⟨_, fun _text => rfl, fun _char => rfl⟩
  have read : ∀ text : Text, words text = (lexemes text).filterMap pick := by
    intro text
    unfold lexemes
    rw [listed, List.filterMap_filter]
    refine List.filterMap_congr fun token _member => ?_
    cases token with
    | word word => rfl
    | mark char => simp [marks]
  rw [read, lexemes_trim, ← read]

/-- A text is cut between any two of its lexemes. -/
theorem exists_of_lexemes_append {text : Text} {first others : List Token}
    (same : lexemes text = first ++ others) :
    ∃ front rest, text = front ++ rest ∧ lexemes front = first ∧ lexemes rest = others ∧
      (endsWord front = true → startsWord rest = false) := by
  obtain ⟨left, right, split, early, late⟩ := List.filter_eq_append_iff.mp same
  have lexed := lexed_tokens text
  have spelled := spell_tokens text
  rw [split] at lexed spelled
  obtain ⟨before, after, apart⟩ := lexed.split
  rw [spell_append] at spelled
  refine ⟨spell left, spell right, spelled.symm, ?_, ?_, apart⟩
  · unfold lexemes
    rw [tokens_spell before, early]
  · unfold lexemes
    rw [tokens_spell after, late]

theorem lexemes_append_mark {char : Char} (mark : isWord char = false) (first rest : Text) :
    lexemes (first ++ char :: rest) = lexemes first ++ lexemes (char :: rest) :=
  lexemes_append fun _ends => mark

theorem lexemes_cons_mark {char : Char} (mark : isWord char = false) (dark : isBlank char = false)
    (text : Text) : lexemes (char :: text) = .mark char :: lexemes text := by
  unfold lexemes
  rw [tokens_cons_mark mark, List.filter_cons_of_pos (by simp [Token.isWhite, dark])]

theorem lexemes_unlines (parts : List Text) : lexemes (unlines parts) = parts.flatMap lexemes := by
  refine unlines_eq_flatMap rfl (fun first rest => ?_) parts
  have white : Blank ['\n'] := List.forall_mem_singleton.mpr isBlank_line_feed
  rw [lexemes_append_mark isWord_line_feed]
  exact congrArg (lexemes first ++ ·) (lexemes_blank_append white rest)

private theorem lexemes_eq_cons_iff {text : Text} {token : Token} {others : List Token} :
    lexemes text = token :: others ↔
      ∃ blanks rest, Blank blanks ∧ text = blanks ++ (token.text ++ rest) ∧ Lexed [token] ∧
        token.isWhite = false ∧ (endsWord token.text = true → startsWord rest = false) ∧
          lexemes rest = others := by
  constructor
  · intro same
    obtain ⟨white, tail, split, whites, dark, rest⟩ := List.filter_eq_cons_iff.mp same
    have lexed := lexed_tokens text
    have spelled := spell_tokens text
    rw [split] at lexed spelled
    obtain ⟨_white, behind, _apart⟩ := lexed.split
    obtain ⟨alone, later, met⟩ := behind.split_cons
    rw [spell_append, spell_cons] at spelled
    have left : ∀ other ∈ white, other.isWhite = true := by
      intro other member
      have filtered := whites other member
      rwa [Bool.not_eq_true', Bool.not_eq_false] at filtered
    rw [Bool.not_eq_true'] at dark
    refine ⟨spell white, spell tail, blank_spell left, spelled.symm, alone,
      dark, met, ?_⟩
    unfold lexemes
    rw [tokens_spell later, rest]
  · rintro ⟨blanks, rest, blank, rfl, alone, dark, apart, rfl⟩
    have single : tokens token.text = [token] := by
      have same := tokens_spell alone
      rwa [spell_cons, spell_nil, List.append_nil] at same
    rw [lexemes_blank_append blank, lexemes_append apart]
    unfold lexemes
    rw [single, List.filter_cons_of_pos (by rw [dark]; rfl), List.filter_nil, List.singleton_append]

theorem lexemes_eq_word_iff {text word : Text} {others : List Token} :
    lexemes text = .word word :: others ↔
      ∃ blanks rest, Blank blanks ∧ text = blanks ++ (word ++ rest) ∧ IsOneWord word ∧
        startsWord rest = false ∧ lexemes rest = others := by
  rw [lexemes_eq_cons_iff]
  constructor
  · rintro ⟨blanks, rest, blank, same, alone, _dark, apart, later⟩
    cases alone with
    | word one _apart _rest => exact ⟨blanks, rest, blank, same, one, apart one.endsWord, later⟩
  · rintro ⟨blanks, rest, blank, same, one, apart, later⟩
    exact ⟨blanks, rest, blank, same, .word one rfl .nil, rfl, fun _ends => apart, later⟩

theorem lexemes_eq_mark_iff {text : Text} {char : Char} {others : List Token} :
    lexemes text = .mark char :: others ↔
      ∃ blanks rest, Blank blanks ∧ text = blanks ++ char :: rest ∧ isWord char = false ∧
        isBlank char = false ∧ lexemes rest = others := by
  rw [lexemes_eq_cons_iff]
  constructor
  · rintro ⟨blanks, rest, blank, same, alone, dark, _apart, later⟩
    cases alone with
    | mark mark _rest => exact ⟨blanks, rest, blank, same, mark, dark, later⟩
  · rintro ⟨blanks, rest, blank, same, mark, dark, later⟩
    have silent : endsWord (Token.mark char).text = true → startsWord rest = false := by
      intro ends
      exact absurd (mark.symm.trans ends) nofun
    exact ⟨blanks, rest, blank, same, .mark mark .nil, dark, silent, later⟩

theorem blank_of_lexemes {text : Text} (none : lexemes text = []) : Blank text := by
  rw [← spell_tokens text]
  refine blank_spell fun token member => ?_
  have white := List.filter_eq_nil_iff.mp none token member
  rwa [Bool.not_eq_true', Bool.not_eq_false] at white

theorem words_eq_lexemes (text : Text) :
    words text = (lexemes text).filterMap fun
      | .word word => some word
      | .mark _ => none := by
  unfold words lexemes
  rw [List.filterMap_filter]
  refine List.filterMap_congr fun token _member => ?_
  cases token with
  | word word => rfl
  | mark char => cases isBlank char <;> simp [Token.isWhite]

theorem eq_word_append {text word : Text} {others : List Token}
    (same : lexemes text = .word word :: others) (dark : text.head?.any isBlank = false) :
    ∃ rest, text = word ++ rest ∧ IsOneWord word ∧ startsWord rest = false ∧ lexemes rest = others := by
  obtain ⟨blanks, rest, blank, rfl, one, apart, later⟩ := lexemes_eq_word_iff.mp same
  cases blanks with
  | nil => exact ⟨rest, rfl, one, apart, later⟩
  | cons char blanks =>
      have white : isBlank char = true := blank char List.mem_cons_self
      exact absurd (white.symm.trans dark) nofun

theorem dark_word_append {word : Text} (one : IsOneWord word) (rest : Text) :
    (word ++ rest).head?.any isBlank = false := by
  obtain ⟨filled, letters⟩ := one
  cases word with
  | nil => exact absurd rfl filled
  | cons char word => exact isBlank_of_isWord (letters char List.mem_cons_self)

theorem eq_word_gap_append {text word next : Text} {others : List Token}
    (same : lexemes text = .word word :: .word next :: others)
    (dark : text.head?.any isBlank = false) :
    ∃ gap rest, text = word ++ (gap ++ rest) ∧ IsOneWord word ∧ gap ≠ [] ∧ Blank gap ∧
      rest.head?.any isBlank = false ∧ lexemes rest = .word next :: others := by
  obtain ⟨behind, rfl, one, apart, later⟩ := eq_word_append same dark
  obtain ⟨gap, rest, blank, rfl, another, distant, rfl⟩ := lexemes_eq_word_iff.mp later
  refine ⟨gap, next ++ rest, rfl, one, ?_, blank, dark_word_append another rest, ?_⟩
  · rintro rfl
    rw [List.nil_append, startsWord_append another.1, another.startsWord] at apart
    cases apart
  · exact lexemes_eq_word_iff.mpr ⟨[], rest, nofun, rfl, another, distant, rfl⟩

theorem lexemes_word_append {word rest : Text} (one : IsOneWord word)
    (apart : startsWord rest = false) : lexemes (word ++ rest) = .word word :: lexemes rest :=
  lexemes_eq_word_iff.mpr ⟨[], rest, nofun, rfl, one, apart, rfl⟩

theorem startsWord_blank_append {blanks : Text} (filled : blanks ≠ []) (blank : Blank blanks)
    (rest : Text) : startsWord (blanks ++ rest) = false := by
  rw [startsWord_append filled]
  exact blank.startsWord

theorem lexemes_word_gap_append {word gap : Text} (one : IsOneWord word) (filled : gap ≠ [])
    (blank : Blank gap) (rest : Text) :
    lexemes (word ++ (gap ++ rest)) = .word word :: lexemes rest := by
  rw [lexemes_word_append one (startsWord_blank_append filled blank rest), lexemes_blank_append blank]

end Text
end ShaderBridge
