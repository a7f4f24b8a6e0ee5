import Mathlib.Data.List.Infix
import ShaderBridge.Text.Blank
import ShaderBridge.Text.Word
set_option autoImplicit false

/-! The words of a text and the characters between them. A word is a longest stretch of word
characters; every other character is a mark. Main statements: the tokens of a text are the only way
to write it as words and marks with no two words next to each other (`tokens_spell`), and a text
may be cut into tokens in parts unless the cut goes through a word (`tokens_append`). -/

namespace ShaderBridge

inductive Token where
  /-- A longest stretch of word characters. -/
  | word (text : Text)
  /-- A character that belongs to no word. -/
  | mark (char : Char)
  deriving DecidableEq, Repr

namespace Token

def text : Token → Text
  | word text => text
  | mark char => [char]

/-- A token with its word replaced; marks stay. -/
def map (change : Text → Text) : Token → Token
  | word text => word (change text)
  | mark char => mark char

def isWhite : Token → Bool
  | word _ => false
  | mark char => isBlank char

theorem eq_mark_of_map {change : Text → Text} {token : Token} {char : Char}
    (same : token.map change = mark char) : token = mark char := by
  cases token with
  | word text => cases same
  | mark other => exact same

theorem eq_word_of_map {change : Text → Text} {token : Token} {text : Text}
    (fixed : ∀ source, change source = text → source = text)
    (same : token.map change = word text) : token = word text := by
  cases token with
  | word source => rw [fixed source (word.inj same)]
  | mark char => cases same

end Token

namespace Text

def startsWord (text : Text) : Bool := text.head?.any isWord

def endsWord (text : Text) : Bool := text.getLast?.any isWord

/-- A word of its own: word characters only, at least one. -/
def IsOneWord (text : Text) : Prop := text ≠ [] ∧ ∀ char ∈ text, isWord char = true

def pushToken (char : Char) (tokens : List Token) : List Token :=
  if isWord char then
    match tokens with
    | .word text :: tokens => .word (char :: text) :: tokens
    | tokens => .word [char] :: tokens
  else .mark char :: tokens

def tokens (text : Text) : List Token := text.foldr pushToken []

def spell (tokens : List Token) : Text := tokens.flatMap Token.text

/-- Tokens as they come from a text: words are words, marks are none, and a word is as long as it
can be. -/
inductive Lexed : List Token → Prop where
  | nil : Lexed []
  | mark {char : Char} {tokens : List Token} :
      isWord char = false → Lexed tokens → Lexed (.mark char :: tokens)
  | word {text : Text} {tokens : List Token} :
      IsOneWord text → startsWord (spell tokens) = false → Lexed tokens →
        Lexed (.word text :: tokens)

@[simp] theorem startsWord_nil : startsWord [] = false := rfl

@[simp] theorem startsWord_cons (char : Char) (text : Text) :
    startsWord (char :: text) = isWord char := rfl

@[simp] theorem endsWord_nil : endsWord [] = false := rfl

theorem endsWord_concat (text : Text) (char : Char) : endsWord (text ++ [char]) = isWord char := by
  unfold endsWord
  rw [List.getLast?_concat]
  rfl

theorem startsWord_append {first : Text} (some : first ≠ []) (rest : Text) :
    startsWord (first ++ rest) = startsWord first := by
  cases first with
  | nil => exact absurd rfl some
  | cons char first => rfl

theorem endsWord_append {rest : Text} (first : Text) (some : rest ≠ []) :
    endsWord (first ++ rest) = endsWord rest := by
  unfold endsWord
  rw [List.getLast?_append_of_ne_nil _ some]

theorem endsWord_cons {text : Text} (char : Char) (some : text ≠ []) :
    endsWord (char :: text) = endsWord text :=
  endsWord_append [char] some

theorem IsOneWord.startsWord {word : Text} (one : IsOneWord word) : startsWord word = true := by
  cases word with
  | nil => exact absurd rfl one.1
  | cons char word => exact one.2 char List.mem_cons_self

theorem IsOneWord.endsWord {word : Text} (one : IsOneWord word) : endsWord word = true := by
  rw [← List.dropLast_concat_getLast one.1, endsWord_concat]
  exact one.2 _ (List.getLast_mem one.1)

@[simp] theorem spell_nil : spell [] = [] := rfl

@[simp] theorem spell_cons (token : Token) (tokens : List Token) :
    spell (token :: tokens) = token.text ++ spell tokens := List.flatMap_cons

@[simp] theorem spell_append (first rest : List Token) :
    spell (first ++ rest) = spell first ++ spell rest := List.flatMap_append

theorem spell_pushToken (char : Char) (tokens : List Token) :
    spell (pushToken char tokens) = char :: spell tokens := by
  unfold pushToken
  split
  · split <;> rfl
  · rfl

@[simp] theorem tokens_nil : tokens [] = [] := rfl

theorem tokens_cons (char : Char) (text : Text) :
    tokens (char :: text) = pushToken char (tokens text) := rfl

theorem tokens_cons_mark {char : Char} (mark : isWord char = false) (text : Text) :
    tokens (char :: text) = .mark char :: tokens text := by
  rw [tokens_cons]
  unfold pushToken
  rw [mark]
  rfl

@[simp] theorem spell_tokens (text : Text) : spell (tokens text) = text := by
  induction text with
  | nil => rfl
  | cons char text ih => rw [tokens_cons, spell_pushToken, ih]

theorem oneWord_singleton {char : Char} (letter : isWord char = true) : IsOneWord [char] := by
  refine ⟨List.cons_ne_nil _ _, ?_⟩
  intro other member
  rw [List.mem_singleton.mp member]
  exact letter

theorem IsOneWord.cons {char : Char} {word : Text} (letter : isWord char = true)
    (one : IsOneWord word) : IsOneWord (char :: word) := by
  refine ⟨List.cons_ne_nil _ _, ?_⟩
  intro other member
  rcases List.mem_cons.mp member with rfl | later
  · exact letter
  · exact one.2 other later

theorem lexed_pushToken (char : Char) {tokens : List Token} (lexed : Lexed tokens) :
    Lexed (pushToken char tokens) := by
  unfold pushToken
  by_cases letter : isWord char = true
  · rw [if_pos letter]
    cases lexed with
    | nil => exact .word (oneWord_singleton letter) rfl .nil
    | mark mark rest => exact .word (oneWord_singleton letter) mark (.mark mark rest)
    | word one apart rest => exact .word (one.cons letter) apart rest
  · rw [if_neg letter]
    exact .mark (Bool.eq_false_iff.mpr letter) lexed

theorem lexed_tokens (text : Text) : Lexed (tokens text) := by
  induction text with
  | nil => exact .nil
  | cons char text ih => exact lexed_pushToken char ih

private theorem pushToken_append (char : Char) {first : List Token} (some : first ≠ [])
    (rest : List Token) : pushToken char (first ++ rest) = pushToken char first ++ rest := by
  cases first with
  | nil => exact absurd rfl some
  | cons token first =>
      unfold pushToken
      split
      · cases token <;> rfl
      · rfl

theorem tokens_ne_nil {text : Text} (some : text ≠ []) : tokens text ≠ [] := by
  intro none
  have empty := congrArg spell none
  rw [spell_tokens] at empty
  exact some empty

private theorem pushToken_of_apart {char : Char} {text : Text}
    (apart : isWord char = true → startsWord text = false) :
    pushToken char (tokens text) = pushToken char [] ++ tokens text := by
  unfold pushToken
  by_cases letter : isWord char = true
  · rw [if_pos letter, if_pos letter]
    have lexed := lexed_tokens text
    have begins := apart letter
    rw [← spell_tokens text] at begins
    generalize tokens text = parts at lexed begins
    cases lexed with
    | nil => rfl
    | mark _mark _rest => rfl
    | word one _apart _rest =>
        rw [spell_cons, Token.text, startsWord_append one.1, one.startsWord] at begins
        cases begins
  · rw [if_neg letter, if_neg letter]
    rfl

theorem tokens_append {first rest : Text}
    (apart : endsWord first = true → startsWord rest = false) :
    tokens (first ++ rest) = tokens first ++ tokens rest := by
  induction first with
  | nil => rfl
  | cons char first ih =>
      cases first with
      | nil => exact pushToken_of_apart apart
      | cons next first =>
          have inner := ih fun ends =>
            apart ((endsWord_cons char (List.cons_ne_nil next first)).trans ends)
          rw [List.cons_append, tokens_cons, inner, tokens_cons char (next :: first)]
          exact pushToken_append char (tokens_ne_nil (List.cons_ne_nil _ _)) _

theorem tokens_of_oneWord {word : Text} (one : IsOneWord word) : tokens word = [.word word] := by
  obtain ⟨some, letters⟩ := one
  induction word with
  | nil => exact absurd rfl some
  | cons char word ih =>
      have letter := letters char List.mem_cons_self
      rw [tokens_cons]
      cases word with
      | nil =>
          unfold pushToken
          rw [if_pos letter]
          rfl
      | cons next word =>
          rw [ih (List.cons_ne_nil _ _) fun other later =>
            letters other (List.mem_cons_of_mem _ later)]
          unfold pushToken
          rw [if_pos letter]

theorem oneWord_append_inj {word other rest more : Text} (one : IsOneWord word)
    (another : IsOneWord other) (apart : startsWord rest = false) (distant : startsWord more = false)
    (same : word ++ rest = other ++ more) : word = other ∧ rest = more := by
  have cut := congrArg tokens same
  rw [tokens_append fun _ends => apart, tokens_append fun _ends => distant,
    tokens_of_oneWord one, tokens_of_oneWord another] at cut
  obtain ⟨equal, _rest⟩ := List.cons.inj cut
  cases equal
  exact ⟨rfl, List.append_cancel_left same⟩

theorem tokens_spell {parts : List Token} (lexed : Lexed parts) : tokens (spell parts) = parts := by
  induction lexed with
  | nil => rfl
  | @mark char parts mark _rest ih => exact (tokens_cons_mark mark _).trans (congrArg _ ih)
  | @word text parts one apart _rest ih =>
      rw [spell_cons, tokens_append fun _ends => apart, ih]
      exact congrArg (· ++ parts) (tokens_of_oneWord one)

theorem lexed_iff {parts : List Token} : Lexed parts ↔ tokens (spell parts) = parts := by
  constructor
  · exact tokens_spell
  · intro same
    rw [← same]
    exact lexed_tokens _

theorem Lexed.spell_ne_nil {parts : List Token} (lexed : Lexed parts) (some : parts ≠ []) :
    spell parts ≠ [] := by
  intro empty
  have same := tokens_spell lexed
  rw [empty] at same
  exact some same.symm

/-- Where tokens from a text are cut in two, no word meets a word. -/
theorem Lexed.split {first rest : List Token} (lexed : Lexed (first ++ rest)) :
    Lexed first ∧ Lexed rest ∧
      (endsWord (spell first) = true → startsWord (spell rest) = false) := by
  induction first with
  | nil => exact ⟨.nil, lexed, nofun⟩
  | cons token first ih =>
      rw [List.cons_append] at lexed
      cases lexed with
      | @mark char _ mark later =>
          obtain ⟨left, right, apart⟩ := ih later
          refine ⟨.mark mark left, right, ?_⟩
          intro ends
          rw [spell_cons] at ends
          cases first with
          | nil => exact absurd (mark.symm.trans ends) nofun
          | cons next first =>
              rw [endsWord_append _ (left.spell_ne_nil (List.cons_ne_nil _ _))] at ends
              exact apart ends
      | @word text _ one lonely later =>
          obtain ⟨left, right, apart⟩ := ih later
          cases first with
          | nil => exact ⟨.word one rfl left, right, fun _ends => lonely⟩
          | cons next first =>
              have some := left.spell_ne_nil (List.cons_ne_nil _ _)
              rw [spell_append, startsWord_append some] at lonely
              refine ⟨.word one lonely left, right, ?_⟩
              intro ends
              rw [spell_cons, endsWord_append _ some] at ends
              exact apart ends

theorem Lexed.split_cons {token : Token} {rest : List Token} (lexed : Lexed (token :: rest)) :
    Lexed [token] ∧ Lexed rest ∧
      (endsWord token.text = true → startsWord (spell rest) = false) := by
  rw [← List.singleton_append] at lexed
  obtain ⟨alone, later, apart⟩ := lexed.split
  rw [spell_cons, spell_nil, List.append_nil] at apart
  exact ⟨alone, later, apart⟩

theorem Lexed.append {first rest : List Token} (left : Lexed first) (right : Lexed rest)
    (apart : endsWord (spell first) = true → startsWord (spell rest) = false) :
    Lexed (first ++ rest) := by
  rw [lexed_iff, spell_append, tokens_append apart, tokens_spell left, tokens_spell right]

/-- A mark of a text that a word follows. -/
def MeetsWord (mark : Char) (text : Text) : Prop :=
  ∃ first rest, tokens text = first ++ .mark mark :: rest ∧ startsWord (spell rest) = true

/-- The words of a text, in order. -/
def words (text : Text) : List Text :=
  (tokens text).filterMap fun
    | .word word => some word
    | .mark _ => none

theorem mem_words {text word : Text} : word ∈ words text ↔ .word word ∈ tokens text := by
  unfold words
  rw [List.mem_filterMap]
  constructor
  · rintro ⟨token, member, same⟩
    cases token with
    | mark char => cases same
    | word other =>
        cases same
        exact member
  · intro member
    exact ⟨_, member, rfl⟩

theorem words_of_oneWord {word : Text} (one : IsOneWord word) : words word = [word] := by
  unfold words
  rw [tokens_of_oneWord one]
  rfl

theorem Lexed.oneWord {parts : List Token} (lexed : Lexed parts) {word : Text}
    (member : .word word ∈ parts) : IsOneWord word := by
  obtain ⟨first, rest, rfl⟩ := List.append_of_mem member
  cases lexed.split.2.1 with
  | word one _apart _rest => exact one

theorem oneWord_of_mem_words {text word : Text} (member : word ∈ words text) : IsOneWord word :=
  (lexed_tokens text).oneWord (mem_words.mp member)

theorem mem_of_mem_words {text word : Text} {char : Char} (member : word ∈ words text)
    (inside : char ∈ word) : char ∈ text := by
  rw [← spell_tokens text]
  exact List.mem_flatMap.mpr ⟨_, mem_words.mp member, inside⟩

theorem words_append {first rest : Text} (apart : endsWord first = true → startsWord rest = false) :
    words (first ++ rest) = words first ++ words rest := by
  unfold words
  rw [tokens_append apart, List.filterMap_append]

/-- A word that is put in front of a text may run into its first word. -/
theorem words_oneWord_append {one text word : Text} (whole : IsOneWord one)
    (member : word ∈ words (one ++ text)) : one <+: word ∨ word ∈ words text := by
  by_cases begins : startsWord text = true
  · have lexed := lexed_tokens text
    have spelled := spell_tokens text
    cases cut : tokens text with
    | nil =>
        rw [cut] at spelled
        rw [← spelled] at begins
        cases begins
    | cons token others =>
        rw [cut] at lexed spelled
        cases lexed with
        | mark mark _rest =>
            rw [← spelled] at begins
            exact absurd (mark.symm.trans begins) nofun
        | @word first _ another apart rest =>
            have joined : IsOneWord (one ++ first) := by
              refine ⟨List.append_ne_nil_of_left_ne_nil whole.1 _, ?_⟩
              intro char inside
              exact (List.mem_append.mp inside).elim (whole.2 char) (another.2 char)
            rw [spell_cons, Token.text] at spelled
            rw [mem_words, ← spelled, ← List.append_assoc, tokens_append fun _ends => apart,
              tokens_of_oneWord joined, tokens_spell rest] at member
            rw [mem_words, cut]
            rcases List.mem_cons.mp member with same | later
            · rw [Token.word.inj same]
              exact .inl (List.prefix_append one first)
            · exact .inr (List.mem_cons_of_mem _ later)
  · rw [words_append fun _ends => Bool.eq_false_iff.mpr begins] at member
    rcases List.mem_append.mp member with early | later
    · rw [mem_words, tokens_of_oneWord whole] at early
      rw [Token.word.inj (List.mem_singleton.mp early)]
      exact .inl (List.prefix_refl one)
    · exact .inr later

theorem words_of_tokens_map {text other : Text} {change : Text → Text}
    (same : tokens other = (tokens text).map (Token.map change)) :
    words other = (words text).map change := by
  unfold words
  rw [same]
  generalize tokens text = tokens
  induction tokens with
  | nil => rfl
  | cons token tokens ih =>
      cases token with
      | word word => exact congrArg _ ih
      | mark char => exact ih

/-- A piece of a text that no word reaches into or out of. -/
def StandsIn (piece text : Text) : Prop :=
  ∃ front back, text = front ++ piece ++ back ∧ endsWord front = false ∧ startsWord back = false

theorem endsWord_append_of_not {first rest : Text} (left : endsWord first = false)
    (right : endsWord rest = false) : endsWord (first ++ rest) = false := by
  by_cases empty : rest = []
  · rwa [empty, List.append_nil]
  · rwa [endsWord_append first empty]

theorem startsWord_append_of_not {first rest : Text} (left : startsWord first = false)
    (right : startsWord rest = false) : startsWord (first ++ rest) = false := by
  by_cases empty : first = []
  · rwa [empty, List.nil_append]
  · rwa [startsWord_append empty]

theorem StandsIn.trans {piece text whole : Text} (inner : StandsIn piece text)
    (outer : StandsIn text whole) : StandsIn piece whole := by
  obtain ⟨front, back, rfl, before, after⟩ := inner
  obtain ⟨first, last, rfl, left, right⟩ := outer
  refine ⟨first ++ front, back ++ last, by simp only [List.append_assoc], ?_, ?_⟩
  · exact endsWord_append_of_not left before
  · exact startsWord_append_of_not after right

theorem StandsIn.tokens_isInfix {piece text : Text} (stands : StandsIn piece text) :
    tokens piece <:+: tokens text := by
  obtain ⟨front, back, rfl, before, after⟩ := stands
  rw [tokens_append fun _ends => after, tokens_append fun ends => absurd (before.symm.trans ends) nofun]
  exact ⟨tokens front, tokens back, rfl⟩

theorem StandsIn.isInfix {piece text : Text} (stands : StandsIn piece text) : piece <:+: text := by
  obtain ⟨front, back, same, _before, _after⟩ := stands
  exact ⟨front, back, same.symm⟩

theorem mem_words_iff_standsIn {text word : Text} (one : IsOneWord word) :
    word ∈ words text ↔ StandsIn word text := by
  rw [mem_words]
  constructor
  · intro member
    obtain ⟨first, rest, split⟩ := List.append_of_mem member
    have lexed := lexed_tokens text
    rw [split] at lexed
    obtain ⟨_left, right, apart⟩ := lexed.split
    have spelled := spell_tokens text
    rw [split, spell_append, spell_cons, Token.text] at spelled
    refine ⟨spell first, spell rest, by rw [List.append_assoc, spelled], ?_, ?_⟩
    · refine Bool.eq_false_iff.mpr fun ends => ?_
      have met := apart ends
      rw [spell_cons, Token.text, startsWord_append one.1, one.startsWord] at met
      cases met
    · cases right with
      | word _one lonely _rest => exact lonely
  · intro stands
    have inside := stands.tokens_isInfix
    rw [tokens_of_oneWord one] at inside
    exact inside.subset List.mem_cons_self

/-- The second list is the first with stretches exchanged. -/
inductive Exchanged (Change : List Token → List Token → Prop) : List Token → List Token → Prop where
  | nil : Exchanged Change [] []
  | kept {token : Token} {parts others : List Token} :
      Exchanged Change parts others → Exchanged Change (token :: parts) (token :: others)
  | found {old new parts others : List Token} :
      Change old new → Exchanged Change parts others →
        Exchanged Change (old ++ parts) (new ++ others)

namespace Exchanged

variable {Change : List Token → List Token → Prop} {parts others : List Token}

theorem symm (exchanged : Exchanged Change parts others) :
    Exchanged (fun old new => Change new old) others parts := by
  induction exchanged with
  | nil => exact .nil
  | kept _exchanged ih => exact .kept ih
  | found change _exchanged ih => exact .found change ih

theorem mem_iff (exchanged : Exchanged Change parts others) {token : Token}
    (apart : ∀ old new, Change old new → token ∉ old ∧ token ∉ new) :
    token ∈ others ↔ token ∈ parts := by
  induction exchanged with
  | nil => exact Iff.rfl
  | kept _exchanged ih => rw [List.mem_cons, List.mem_cons, ih]
  | found change _exchanged ih =>
      obtain ⟨before, after⟩ := apart _ _ change
      rw [List.mem_append, List.mem_append, or_iff_right after, or_iff_right before, ih]

end Exchanged

end Text
end ShaderBridge
