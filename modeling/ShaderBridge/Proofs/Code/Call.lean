import ShaderBridge.Proofs.Code.Access
set_option autoImplicit false

/-! Functions and their calls, whatever the layout: the lexemes that introduce a function, and those
that call it, stand in a row. A pass that changes neither its type nor its name leaves a function
introduced (`Introduces.rename`, `Introduces.expandVectorCalls`, `Introduces.boundLoops`). -/

namespace ShaderBridge
namespace Code

open Text (Blank Exchanged IsOneWord startsWord endsWord tokens words lexemes)

/-- The function is introduced: its name stands behind its type and in front of a parenthesis. -/
def Introduces (kind name text : Text) : Prop :=
  lexemes kind ++ [.word name, .mark '('] <:+: lexemes text

def InType (char : Char) : Prop := isWord char = true ∨ char = '<' ∨ char = '>'

/-- The name is called: it stands in front of a parenthesis. -/
def Calls (name text : Text) : Prop := [.word name, .mark '('] <:+: lexemes text

instance (kind name text : Text) : Decidable (Introduces kind name text) :=
  inferInstanceAs (Decidable (_ <:+: _))

instance (name text : Text) : Decidable (Calls name text) :=
  inferInstanceAs (Decidable (_ <:+: _))

structure Misses (piece stretch : List Token) : Prop where
  opens : ∃ first rest, stretch = first :: rest ∧ first ∉ piece
  closes : ∃ front last, stretch = front ++ [last] ∧ last ∉ piece
  outside : ¬ piece <:+: stretch

private def isDark (token : Token) : Bool := !token.isWhite

section
variable {piece : List Token} {Change : List Token → List Token → Prop} {parts others : List Token}

private theorem prefix_of_exchanged (exchanged : Exchanged Change parts others)
    (missed : ∀ old new, Change old new → Misses piece (old.filter isDark)) {part : List Token}
    (within : part ⊆ piece) (begins : part <+: parts.filter isDark) :
    part <+: others.filter isDark := by
  induction exchanged generalizing part with
  | nil => exact begins
  | @kept token parts others _exchanged ih =>
      rw [List.filter_cons] at begins ⊢
      split
      · next dark =>
          rw [if_pos dark] at begins
          cases part with
          | nil => exact List.nil_prefix
          | cons head part =>
              obtain ⟨rfl, later⟩ := List.cons_prefix_cons.mp begins
              refine List.cons_prefix_cons.mpr ⟨rfl, ih ?_ later⟩
              exact fun _token member => within (List.mem_cons_of_mem _ member)
      · next white =>
          rw [if_neg white] at begins
          exact ih within begins
  | found change _exchanged _ih =>
      cases part with
      | nil => exact List.nil_prefix
      | cons head part =>
          obtain ⟨first, rest, same, apart⟩ := (missed _ _ change).opens
          rw [List.filter_append, same] at begins
          exact absurd (within List.mem_cons_self) ((List.cons_prefix_cons.mp begins).1 ▸ apart)

/-- A row of lexemes stays where stretches are exchanged that it does not touch. -/
theorem infix_of_exchanged (filled : piece ≠ []) (exchanged : Exchanged Change parts others)
    (missed : ∀ old new, Change old new → Misses piece (old.filter fun token => !token.isWhite))
    (inside : piece <:+: parts.filter fun token => !token.isWhite) :
    piece <:+: others.filter fun token => !token.isWhite := by
  change ∀ old new, Change old new → Misses piece (old.filter isDark) at missed
  change piece <:+: parts.filter isDark at inside
  change piece <:+: others.filter isDark
  induction exchanged with
  | nil => exact inside
  | @kept token parts others exchanged ih =>
      rw [List.filter_cons] at inside ⊢
      split
      · next dark =>
          rw [if_pos dark] at inside
          rcases List.infix_cons_iff.mp inside with begins | later
          · have whole := prefix_of_exchanged (.kept exchanged) missed (List.Subset.refl _)
              (show piece <+: (token :: parts).filter isDark by rwa [List.filter_cons_of_pos dark])
            rw [List.filter_cons_of_pos dark] at whole
            exact whole.isInfix
          · exact (ih later).trans (List.suffix_cons _ _).isInfix
      · next white =>
          rw [if_neg white] at inside
          exact ih inside
  | found change _exchanged ih =>
      obtain ⟨_opens, ⟨front, last, same, apart⟩, outside⟩ := missed _ _ change
      rw [List.filter_append] at inside ⊢
      rw [same, List.append_assoc, List.singleton_append, infix_cut filled apart] at inside
      rcases inside with early | later
      · rw [same] at outside
        exact absurd (early.trans (List.prefix_append _ _).isInfix) outside
      · exact (ih later).trans (List.suffix_append _ _).isInfix

private theorem infix_concat_cut {token : Token} {row front rest : List Token} (absent : token ∉ row)
    (inside : row ++ [token] <:+: front ++ token :: rest) :
    row ++ [token] <:+: front ++ [token] ∨ row ++ [token] <:+: rest := by
  obtain ⟨before, after, same⟩ := inside
  have whole : (before ++ row) ++ token :: after = front ++ token :: rest := by
    rw [← same]
    simp
  rcases List.append_eq_append_iff.mp whole with ⟨more, rfl, later⟩ | ⟨more, early, later⟩
  · -- the row ends before the cut, or at it
    refine .inl ⟨before, (more ++ [token]).tail, ?_⟩
    cases more with
    | nil => simp
    | cons head more =>
        obtain ⟨rfl, _rest⟩ := List.cons.inj later
        simp
  · cases more with
    | nil =>
        rw [List.append_nil] at early
        exact .inl ⟨before, [], by rw [← early]; simp⟩
    | cons head more =>
        obtain ⟨rfl, rfl⟩ := List.cons.inj later
        rcases List.append_eq_append_iff.mp early with ⟨part, rfl, inner⟩ | ⟨part, rfl, inner⟩
        · refine absurd ?_ absent
          rw [inner]
          exact List.mem_append_right _ List.mem_cons_self
        · cases part with
          | nil =>
              rw [List.nil_append] at inner
              rw [← inner] at absent
              exact absurd List.mem_cons_self absent
          | cons head part =>
              obtain ⟨rfl, rfl⟩ := List.cons.inj inner
              exact .inr ⟨part, after, by simp⟩

end

/-- A call in a text: the name stands apart from what is before it, and blanks at most before its
parenthesis. -/
theorem Calls.exists_split {name text : Text} (calls : Calls name text) :
    ∃ front space rest, text = front ++ (name ++ (space ++ '(' :: rest)) ∧ endsWord front = false ∧
      Blank space := by
  obtain ⟨first, others, same⟩ := calls
  rw [List.append_assoc] at same
  obtain ⟨front, rest, rfl, _first, later, apart⟩ := Text.exists_of_lexemes_append same.symm
  obtain ⟨blanks, behind, blank, rfl, one, _apart, later⟩ := Text.lexemes_eq_word_iff.mp later
  obtain ⟨space, rest, white, rfl, _mark, _dark, _rest⟩ := Text.lexemes_eq_mark_iff.mp later
  refine ⟨front ++ blanks, space, rest, (List.append_assoc _ _ _).symm, ?_, white⟩
  by_cases none : blanks = []
  · subst none
    rw [List.append_nil]
    refine Bool.eq_false_iff.mpr fun ends => ?_
    have starts := apart ends
    rw [List.nil_append, Text.startsWord_append one.1, one.startsWord] at starts
    cases starts
  · rw [Text.endsWord_append _ none]
    exact blank.endsWord

section
variable {kind name text : Text}

/-- A type and a name with a parenthesis behind them introduce a function. -/
theorem introduces_of_split {front gap space rest : Text} (one : IsOneWord name)
    (apart : endsWord front = false) (white : Blank gap) (filled : gap ≠ []) (blank : Blank space) :
    Introduces kind name (front ++ (kind ++ (gap ++ (name ++ (space ++ '(' :: rest))))) := by
  have round : isWord '(' = false := by decide
  have behind : startsWord (space ++ '(' :: rest) = false := by
    cases space with
    | nil => exact round
    | cons char space => exact isWord_of_isBlank (blank char List.mem_cons_self)
  have between : startsWord (gap ++ (name ++ (space ++ '(' :: rest))) = false := by
    rw [Text.startsWord_append filled]
    exact white.startsWord
  refine ⟨lexemes front, lexemes rest, ?_⟩
  rw [Text.lexemes_append fun ends => absurd (apart.symm.trans ends) nofun, List.append_assoc,
    Text.lexemes_append fun _ends => between, List.append_assoc]
  refine congrArg (fun row => lexemes front ++ (lexemes kind ++ row)) (Eq.symm ?_)
  refine Text.lexemes_eq_word_iff.mpr ⟨gap, _, white, rfl, one, behind, ?_⟩
  exact Text.lexemes_eq_mark_iff.mpr ⟨space, rest, blank, rfl, round, by decide, rfl⟩

private theorem filled_row : lexemes kind ++ [Token.word name, .mark '('] ≠ [] :=
  List.append_ne_nil_of_right_ne_nil _ (List.cons_ne_nil _ _)

private theorem word_mem_row {word : Text} :
    Token.word word ∈ lexemes kind ++ [Token.word name, .mark '('] ↔
      word ∈ words kind ∨ word = name := by
  simp [Text.word_mem_lexemes]

private theorem name_mem_row : Token.word name ∈ lexemes kind ++ [Token.word name, .mark '('] :=
  word_mem_row.mpr (.inr rfl)

private theorem mark_mem_type (type : ∀ char ∈ kind, InType char) {char : Char}
    (member : .mark char ∈ lexemes kind) : char = '<' ∨ char = '>' := by
  obtain ⟨held, mark⟩ := Text.mark_mem_tokens.mp (List.mem_filter.mp member).1
  exact (type char held).resolve_left fun word => absurd (mark.symm.trans word) nofun

private theorem mark_mem_row (type : ∀ char ∈ kind, InType char) {char : Char}
    (member : .mark char ∈ lexemes kind ++ [Token.word name, .mark '(']) :
    char = '<' ∨ char = '>' ∨ char = '(' := by
  rcases List.mem_append.mp member with inside | last
  · exact (mark_mem_type type inside).imp_right .inl
  · exact .inr (.inr (by simpa using last))

/-- A renaming of accesses that neither the type nor the name is part of. -/
theorem Introduces.rename {table : Renames} (ofAccesses : table.OfAccesses)
    (apart : ∀ entry ∈ table, ∀ word ∈ words entry.1, word ∉ words kind ∧ word ≠ name)
    (introduces : Introduces kind name text) : Introduces kind name (rename table text) := by
  refine infix_of_exchanged filled_row (renamed_accesses ofAccesses text).exchanged ?_ introduces
  rintro _ _ ⟨⟨old, new⟩, active, rfl, rfl⟩
  have entry := (List.mem_filter.mp active).1
  obtain ⟨member, accesses⟩ := ofAccesses.access _ entry
  have foreign : ∀ word, .word word ∈ tokens old →
      Token.word word ∉ lexemes kind ++ [Token.word name, .mark '('] := by
    intro word member inside
    obtain ⟨type, called⟩ := apart _ entry word (Text.mem_words.mpr member)
    exact (word_mem_row.mp inside).elim type called
  have dark : (tokens old).filter (fun token => !token.isWhite) = tokens old := by
    refine List.filter_eq_self.mpr fun token member => ?_
    rw [accesses.linked.dark token member]
    rfl
  obtain ⟨front, same⟩ := List.getLast?_eq_some_iff.mp accesses.getLast?
  simp only [dark]
  refine ⟨?_, ⟨front, .word member, same, ?_⟩, fun inside => ?_⟩
  · rcases accesses.2 with shape | ⟨block, _plain, shape⟩
    · exact ⟨_, _, shape, foreign _ (shape ▸ List.mem_cons_self)⟩
    · exact ⟨_, _, shape, foreign _ (shape ▸ List.mem_cons_self)⟩
  · exact foreign _ (same ▸ List.mem_concat_self)
  · exact foreign name (inside.subset name_mem_row) name_mem_row

/-- The renaming of temporaries, of which neither the type nor the name is one. -/
theorem Introduces.renameTemporaries
    (apart : ∀ old new, Temporary old new → old ∉ words kind ∧ old ≠ name)
    (introduces : Introduces kind name text) : Introduces kind name (renameTemporaries text) := by
  obtain ⟨table, same, covers⟩ := renameTemporaries_eq text
  have ofWords := isRenaming_temporary.ofWords covers.within
  have whole : ∀ old ∈ table.keys, startsWord old = true ∧ endsWord old = true := by
    intro old key
    have one := ofWords.oneWord key
    exact ⟨one.startsWord, one.endsWord⟩
  have renamed := renamed_rename whole (fun entry member => (ofWords entry member).2) text
  rw [same]
  refine infix_of_exchanged filled_row renamed.exchanged ?_ introduces
  rintro _ _ ⟨⟨old, new⟩, active, rfl, rfl⟩
  have entry := (List.mem_filter.mp active).1
  obtain ⟨type, called⟩ := apart old new (covers.within entry)
  have foreign : Token.word old ∉ lexemes kind ++ [Token.word name, .mark '('] :=
    fun inside => (word_mem_row.mp inside).elim type called
  have single : (tokens old).filter (fun token => !token.isWhite) = [.word old] := by
    rw [Text.tokens_of_oneWord (ofWords _ entry).1]
    rfl
  simp only [single]
  refine ⟨⟨_, [], rfl, foreign⟩, ⟨[], _, rfl, foreign⟩, fun inside => ?_⟩
  exact called (Token.word.inj (List.mem_singleton.mp (inside.subset name_mem_row))).symm

private theorem infix_arguments {row : List Token} (opens : .mark '(' ∈ row)
    (flat : ∀ char, isCloser char = true → .mark char ∉ row) {vectors : List Text} {size : Nat}
    {rest arguments closing : Text}
    (out : expandedArguments vectors size rest = some (arguments, closing))
    (inside : row <:+: lexemes rest) : row <:+: lexemes (arguments ++ closing) := by
  obtain ⟨⟨argument, behind⟩, found, same⟩ := Option.map_eq_some_iff.mp out
  cases same
  obtain ⟨_several, simple, trimmed, before, after, left, right, rfl⟩ :=
    repeatedArgument?_eq_some found
  have closes := repeatedArgument?_closing found
  have marks : ∀ mark ∈ (")]\x7d" : Text), isWord mark = false ∧ isBlank mark = false := by
    decide
  cases closing with
  | nil => cases closes
  | cons char closing =>
      have closer : isCloser char = true := closes
      have known : char ∈ (")]\x7d" : Text) := by
        simp only [isCloser, Bool.or_eq_true, beq_iff_eq, or_assoc] at closer
        simpa using closer
      obtain ⟨mark, dark⟩ := marks char known
      have cut : ∀ front : Text, lexemes (front ++ char :: closing) =
          lexemes front ++ .mark char :: lexemes closing := by
        intro front
        rw [Text.lexemes_append_mark mark, Text.lexemes_cons_mark mark dark]
      have absent : '(' ∉ argument := by
        have none := count_of_isSimpleScalar (by decide : isWord '(' = false) (by decide) simple
        rw [trimmed] at none
        exact List.count_eq_zero.mp none
      rw [cut, infix_cut (List.ne_nil_of_mem opens) (flat char closer)] at inside ⊢
      refine .inr (inside.resolve_left fun early => ?_)
      have held := (Text.mark_mem_tokens.mp (List.mem_filter.mp (early.subset opens)).1).1
      rw [List.mem_append, List.mem_append] at held
      rcases held with (white | inner) | white
      · exact absurd (left _ white) (by decide)
      · exact absent inner
      · exact absurd (right _ white) (by decide)

/-- The writing out of constructor calls. -/
theorem Introduces.expandVectorCalls (type : ∀ char ∈ kind, InType char)
    (introduces : Introduces kind name text) (types : VectorTypes) (vectors : List Text) :
    Introduces kind name (expandVectorCalls types vectors text) := by
  have round : isWord '(' = false := by decide
  have dark : isBlank '(' = false := by decide
  have absent : Token.mark '(' ∉ lexemes kind ++ [.word name] := by
    intro member
    rcases List.mem_append.mp member with inside | last
    · exact absurd (mark_mem_type type inside) (by decide)
    · cases List.mem_singleton.mp last
  have opens : Token.mark '(' ∈ lexemes kind ++ [Token.word name, .mark '('] := by simp
  have flat : ∀ char, isCloser char = true →
      Token.mark char ∉ lexemes kind ++ [Token.word name, .mark '('] := by
    intro char closer member
    rcases mark_mem_row type member with rfl | rfl | rfl <;> cases closer
  have row : lexemes kind ++ [Token.word name, .mark '('] =
      (lexemes kind ++ [.word name]) ++ [.mark '('] := by simp
  suffices each : ∀ (sites : Nat) (before : Option Char) (text : Text), Introduces kind name text →
      Introduces kind name (expandFrom types vectors sites before text) from
    each _ none text introduces
  intro sites
  induction sites with
  | zero => exact fun _before _text inside => inside
  | succ sites ih =>
      intro before text inside
      rcases expandFrom_cases types vectors sites before text with
        ⟨_none, same⟩ | ⟨passed, size, rest, next, call⟩
      · rwa [same]
      · obtain ⟨front, type, blanks, _known, _blank, rfl, rfl, _call⟩ := nextCall_eq_some next
        have cut : ∀ behind : Text, lexemes (front ++ (type ++ blanks ++ ['(']) ++ behind) =
            lexemes (front ++ (type ++ blanks)) ++ .mark '(' :: lexemes behind := by
          intro behind
          have split : front ++ (type ++ blanks ++ ['(']) ++ behind =
              front ++ (type ++ blanks) ++ '(' :: behind := by
            simp
          rw [split, Text.lexemes_append_mark round, Text.lexemes_cons_mark round dark]
        have keep : ∀ behind : Text,
            (Introduces kind name rest → Introduces kind name behind) →
              Introduces kind name (front ++ (type ++ blanks ++ ['(']) ++ behind) := by
          intro behind later
          unfold Introduces at inside later ⊢
          rw [row] at inside later ⊢
          rw [cut] at inside ⊢
          rcases infix_concat_cut absent inside with here | there
          · exact here.trans ⟨[], lexemes behind, by simp⟩
          · exact (later there).trans
              ((List.suffix_cons _ _).trans (List.suffix_append _ _)).isInfix
        rcases call with ⟨_stays, same⟩ | ⟨arguments, closing, out, same⟩
        · rw [same]
          exact keep _ (ih _ _)
        · rw [same]
          exact keep _ fun later => ih _ _ (infix_arguments opens flat out later)

/-- The bounding of loops, where neither the type nor the name is a keyword of one. -/
theorem Introduces.boundLoops {bounded : Text} (type : ∀ char ∈ kind, InType char)
    (apart : ∀ word ∈ (["for", "while"] : List Text), word ∉ words kind ∧ word ≠ name)
    (done : boundLoops iterationCeiling text = .ok bounded) (introduces : Introduces kind name text) :
    Introduces kind name bounded := by
  refine infix_of_exchanged filled_row (exchanged_boundLoops done) ?_ introduces
  rintro _ _ ⟨stretch, _head, rfl, rfl, ⟨keyword, blanks, inner, shape⟩, _bounded⟩
  have known : keyword ∈ (["for", "while"] : List Text) := by
    rcases shape.keyword with rfl | rfl <;> decide
  obtain ⟨other, called⟩ := apart keyword known
  have foreign : Token.word keyword ∉ lexemes kind ++ [Token.word name, .mark '('] :=
    fun inside => (word_mem_row.mp inside).elim other called
  have white : (tokens blanks).filter (fun token => !token.isWhite) = [] :=
    shape.blank.lexemes
  have row : (tokens stretch).filter (fun token => !token.isWhite) =
      .word keyword :: .mark '(' :: (lexemes inner ++ [.mark ')']) := by
    rw [shape.tokens_eq, List.filter_cons_of_pos rfl, List.filter_append, white, List.nil_append,
      List.filter_cons_of_pos (by decide), List.filter_append]
    rfl
  have closed : Token.mark '(' ∉ lexemes inner ++ [.mark ')'] := by
    intro member
    rcases List.mem_append.mp member with within | last
    · have held := (Text.mark_mem_tokens.mp (List.mem_filter.mp within).1).1
      exact absurd (shape.flat _ held).1 (by decide)
    · exact absurd (List.mem_singleton.mp last) (by decide)
  rw [row]
  refine ⟨⟨_, _, rfl, foreign⟩, ⟨.word keyword :: .mark '(' :: lexemes inner, _, rfl, fun member => ?_⟩, ?_⟩
  · exact absurd (mark_mem_row type member) (by decide)
  · intro inside
    -- the only parenthesis that opens stands behind the keyword
    have later : lexemes kind ++ [Token.word name, .mark '('] <:+:
        .mark '(' :: (lexemes inner ++ [.mark ')']) := by
      rcases List.infix_cons_iff.mp inside with begins | later
      · refine absurd ?_ foreign
        cases first : lexemes kind ++ [Token.word name, .mark '('] with
        | nil => exact absurd first filled_row
        | cons head rest =>
            rw [first] at begins
            exact (List.cons_prefix_cons.mp begins).1 ▸ List.mem_cons_self
      · exact later
    rcases List.infix_cons_iff.mp later with begins | behind
    · cases first : lexemes kind with
      | nil =>
          rw [first] at begins
          cases (List.cons_prefix_cons.mp begins).1
      | cons head rest =>
          rw [first] at begins
          have opener : .mark '(' ∈ lexemes kind :=
            first ▸ (List.cons_prefix_cons.mp begins).1 ▸ List.mem_cons_self
          exact absurd (mark_mem_type type opener) (by decide)
    · exact closed (behind.subset (by simp))

end

end Code
end ShaderBridge
