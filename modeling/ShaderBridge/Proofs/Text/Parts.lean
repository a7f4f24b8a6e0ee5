import ShaderBridge.Proofs.Text.Pieces
import ShaderBridge.Proofs.Text.Token
set_option autoImplicit false

/-! Patterns that respect words. When no match begins or ends inside a word, the text is cut into
whole tokens and matches (`exists_parted`), and if the replacements do not run into the words around
them, the tokens of the new text are those of the old with the matches exchanged
(`tokens_replace`). -/

namespace ShaderBridge

inductive Part where
  /-- A token outside every match. -/
  | kept (token : Token)
  /-- A match. -/
  | found (text : Text)

namespace Part

def text : Part → Text
  | kept token => token.text
  | found text => text

def tokens : Part → List Token
  | kept token => [token]
  | found text => Text.tokens text

def pieces : Part → List Piece
  | kept token => token.text.map .kept
  | found text => [.found text]

def newTokens (new : Text → Text) : Part → List Token
  | kept token => [token]
  | found text => Text.tokens (new text)

end Part

namespace Scan

open Text (startsWord endsWord)

theorem EndsIn.not_endsWord {scan : Scan} (ends : scan.EndsIn fun char => isWord char = false)
    {stretch rest : Text} (found : scan (stretch ++ rest) = some rest) : endsWord stretch = false := by
  obtain ⟨front, char, split, mark⟩ := ends _ _ found
  rw [List.append_cons] at split
  rw [List.append_cancel_right split, Text.endsWord_concat]
  exact mark

theorem startsWord_of_literal {expected text rest : Text} {scan : Scan}
    (begins : startsWord expected = true)
    (found : (literal expected >=> scan) text = some rest) : startsWord text = true := by
  obtain ⟨between, read, _rest⟩ := andThen_eq_some_iff.mp found
  have filled : expected ≠ [] := by
    intro empty
    rw [empty] at begins
    cases begins
  rw [literal_eq_some_iff.mp read, Text.startsWord_append filled]
  exact begins

end Scan

namespace Pattern

open Text (startsWord endsWord tokens words spell Lexed)

/-- No match begins or ends inside a word. -/
structure Apart (pattern : Pattern) : Prop where
  sound : pattern.Sound
  opens {before : Option Char} {text : Text} {length : Nat} :
    pattern before text = some length → before.any isWord = true → startsWord text = false
  closes {before : Option Char} {stretch rest : Text} :
    pattern before (stretch ++ rest) = some stretch.length →
      endsWord stretch = true → startsWord rest = false

theorem apart_atWordStart {scan : Scan} (consumes : scan.Consumes)
    (closes : ∀ stretch rest, scan (stretch ++ rest) = some rest → endsWord stretch = true →
      startsWord rest = false) : scan.atWordStart.Apart where
  sound := sound_notAfter isWord consumes
  opens found inside := by
    rw [(notAfter_eq_some_iff.mp found).1] at inside
    cases inside
  closes found ends :=
    closes _ _ ((notAfter_append_eq_some_iff consumes.sound).mp found).2 ends

/-- The parts of a text behind a character: no match begins with a token that is left, and what is
found is a match. -/
inductive Parted (pattern : Pattern) : Option Char → List Part → Prop where
  | nil {before : Option Char} : pattern before [] = none → Parted pattern before []
  | kept {before : Option Char} {token : Token} {parts : List Part} :
      pattern before (token.text ++ parts.flatMap Part.text) = none →
        Parted pattern (token.text.getLast?.or before) parts →
          Parted pattern before (.kept token :: parts)
  | found {before : Option Char} {stretch : Text} {parts : List Part} :
      stretch ≠ [] → pattern before (stretch ++ parts.flatMap Part.text) = some stretch.length →
        Parted pattern stretch.getLast? parts → Parted pattern before (.found stretch :: parts)

variable {pattern : Pattern}

theorem Parted.matched {before : Option Char} {parts : List Part} {stretch : Text}
    (parted : Parted pattern before parts) (member : .found stretch ∈ parts) :
    ∃ last rest, pattern last (stretch ++ rest) = some stretch.length := by
  induction parted with
  | nil _none => cases member
  | kept _none _parted ih => exact ih ((List.mem_cons.mp member).resolve_left nofun)
  | found _filled found _parted ih =>
      rcases List.mem_cons.mp member with same | later
      · cases same
        exact ⟨_, _, found⟩
      · exact ih later

private theorem any_or_getLast? {word : Text} (before : Option Char) (filled : word ≠ []) :
    (word.getLast?.or before).any isWord = endsWord word := by
  unfold endsWord
  rw [List.getLast?_eq_some_getLast filled]
  rfl

private theorem piecesFrom_inside (apart : pattern.Apart) {before : Option Char} {word : Text}
    (inside : before.any isWord = true) (letters : ∀ char ∈ word, isWord char = true)
    (rest : Text) :
    pattern.piecesFrom 0 before (word ++ rest) =
      word.map .kept ++ pattern.piecesFrom 0 (word.getLast?.or before) rest := by
  induction word generalizing before with
  | nil => rfl
  | cons char word ih =>
      have letter := letters char List.mem_cons_self
      have none : pattern before (char :: (word ++ rest)) = none := by
        refine Option.eq_none_iff_forall_ne_some.mpr ?_
        intro length found
        have begins := apart.opens found inside
        rw [Text.startsWord_cons, letter] at begins
        cases begins
      have letter' : (some char).any isWord = true := letter
      rw [List.cons_append, piecesFrom_kept none,
        ih letter' fun other later => letters other (List.mem_cons_of_mem _ later),
        List.getLast?_cons]
      cases word.getLast? <;> rfl

private theorem piecesFrom_token (apart : pattern.Apart) {before : Option Char} {token : Token}
    {rest : Text} (lexed : Lexed [token]) (none : pattern before (token.text ++ rest) = none) :
    pattern.piecesFrom 0 before (token.text ++ rest) =
      token.text.map .kept ++ pattern.piecesFrom 0 (token.text.getLast?.or before) rest := by
  cases lexed with
  | mark _mark _rest => exact piecesFrom_kept none
  | @word word _ one _apart _rest =>
      obtain ⟨filled, letters⟩ := one
      cases word with
      | nil => exact absurd rfl filled
      | cons char word =>
          have letter : (some char).any isWord = true := letters char List.mem_cons_self
          rw [Token.text, List.cons_append] at none ⊢
          rw [piecesFrom_kept none, piecesFrom_inside apart letter
            (fun other later => letters other (List.mem_cons_of_mem _ later)), List.getLast?_cons]
          cases word.getLast? <;> rfl

theorem exists_parted (apart : pattern.Apart) (before : Option Char) (text : Text)
    (cut : before.any isWord = true → startsWord text = false) :
    ∃ parts, Parted pattern before parts ∧ parts.flatMap Part.text = text ∧
      parts.flatMap Part.tokens = tokens text ∧
      parts.flatMap Part.pieces = pattern.piecesFrom 0 before text := by
  induction size : text.length using Nat.strongRecOn generalizing before text with
  | ind bound ih =>
      cases here : pattern before text with
      | some length =>
          obtain ⟨stretch, rest, filled, rfl, rfl⟩ := apart.sound.split here
          have positive := List.length_pos_iff.mpr filled
          have ends : stretch.getLast?.any isWord = true → startsWord rest = false :=
            apart.closes here
          obtain ⟨parts, parted, texts, lexed, cuts⟩ := ih rest.length
            (by rw [← size, List.length_append]; omega) stretch.getLast? rest ends rfl
          refine ⟨.found stretch :: parts, .found filled (by rw [texts, here]) parted, ?_, ?_, ?_⟩
          · rw [List.flatMap_cons, texts, Part.text]
          · rw [List.flatMap_cons, lexed, Text.tokens_append ends]
            rfl
          · rw [List.flatMap_cons, cuts, piecesFrom_found filled here]
            rfl
      | none =>
          have lexed := Text.lexed_tokens text
          have spelled := Text.spell_tokens text
          -- Where no match begins, a whole token is kept, since none begins inside a word.
          cases found : tokens text with
          | nil =>
              rw [found] at spelled
              have empty : text = [] := spelled.symm
              subst empty
              refine ⟨[], .nil here, rfl, rfl, ?_⟩
              rw [piecesFrom, here]
              rfl
          | cons token others =>
              rw [found] at lexed spelled
              obtain ⟨alone, later, met⟩ := lexed.split_cons
              rw [Text.spell_cons] at spelled
              have filled : token.text ≠ [] := by
                have some := alone.spell_ne_nil (List.cons_ne_nil _ _)
                rwa [Text.spell_cons, Text.spell_nil, List.append_nil] at some
              have ends : (token.text.getLast?.or before).any isWord = true →
                  startsWord (spell others) = false := by
                rw [any_or_getLast? before filled]
                exact met
              have shorter : (spell others).length < bound := by
                have positive := List.length_pos_iff.mpr filled
                rw [← size, ← spelled, List.length_append]
                omega
              obtain ⟨parts, parted, texts, rest, cuts⟩ :=
                ih (spell others).length shorter _ _ ends rfl
              refine ⟨.kept token :: parts, .kept (by rw [texts, spelled, here]) parted, ?_, ?_,
                ?_⟩
              · rw [List.flatMap_cons, texts]
                exact spelled
              · rw [List.flatMap_cons, rest, Text.tokens_spell later]
                rfl
              · rw [List.flatMap_cons, cuts, ← spelled,
                  piecesFrom_token apart alone (by rw [spelled, here])]
                rfl

/-- A replacement that begins with a word, given what follows it, stands for a match that does. -/
def KeepsStart (pattern : Pattern) (new : Text → Text) : Prop :=
  ∀ before stretch rest, pattern before (stretch ++ rest) = some stretch.length →
    startsWord (new stretch ++ rest) = true → startsWord (stretch ++ rest) = true

/-- A replacement in a text that does not run into the words around a match, given what follows
it. -/
structure Respects (pattern : Pattern) (new : Text → Text) (text : Text) : Prop where
  starts : pattern.KeepsStart new
  ends {before : Option Char} {stretch rest : Text} : stretch ++ rest <:+ text →
    pattern before (stretch ++ rest) = some stretch.length → endsWord (new stretch) = true →
      startsWord rest = false

theorem spell_partTokens (parts : List Part) :
    spell (parts.flatMap Part.tokens) = parts.flatMap Part.text := by
  induction parts with
  | nil => rfl
  | cons part parts ih =>
      rw [List.flatMap_cons, List.flatMap_cons, Text.spell_append, ih]
      cases part with
      | kept token => rw [Part.tokens, Text.spell_cons, Text.spell_nil, List.append_nil, Part.text]
      | found text => rw [Part.tokens, Text.spell_tokens, Part.text]

theorem flatMap_replaced (new : Text → Text) (parts : List Part) :
    (parts.flatMap Part.pieces).flatMap (Piece.replaced new) =
      spell (parts.flatMap (Part.newTokens new)) := by
  induction parts with
  | nil => rfl
  | cons part parts ih =>
      rw [List.flatMap_cons, List.flatMap_cons, List.flatMap_append, Text.spell_append, ih]
      cases part with
      | kept token =>
          rw [Part.pieces, Part.newTokens, Text.spell_cons, Text.spell_nil, List.append_nil,
            List.flatMap_map]
          exact congrArg (· ++ _) (List.flatMap_singleton' token.text)
      | found text =>
          rw [Part.pieces, Part.newTokens, Text.spell_tokens, List.flatMap_singleton]
          rfl

theorem keepsStart_atWordStart {scan : Scan} (sound : scan.Sound)
    (opens : ∀ text rest, scan text = some rest → startsWord text = true) (new : Text → Text) :
    scan.atWordStart.KeepsStart new :=
  fun _before stretch rest found _starts =>
    opens (stretch ++ rest) rest ((notAfter_append_eq_some_iff sound).mp found).2

private theorem startsWord_newTokens {new : Text → Text} (keeps : pattern.KeepsStart new)
    {before : Option Char} {parts : List Part} (parted : Parted pattern before parts) :
    startsWord (spell (parts.flatMap (Part.newTokens new))) = true →
      startsWord (parts.flatMap Part.text) = true := by
  induction parted with
  | nil _none => exact id
  | @kept before token parts _none _parted ih =>
      rw [List.flatMap_cons, List.flatMap_cons]
      change startsWord (token.text ++ _) = true → startsWord (token.text ++ _) = true
      cases filled : token.text with
      | nil => exact ih
      | cons char text => exact id
  | @found before stretch parts _filled found _parted ih =>
      rw [List.flatMap_cons, List.flatMap_cons, Text.spell_append]
      change startsWord (spell (tokens (new stretch)) ++ _) = true → _
      rw [Text.spell_tokens]
      intro begins
      refine keeps before stretch _ found ?_
      cases filled : new stretch with
      | nil =>
          rw [filled] at begins
          exact ih begins
      | cons char text =>
          rw [filled] at begins
          exact begins

private theorem lexed_newTokens {new : Text → Text} {before : Option Char} {parts : List Part}
    (respects : pattern.Respects new (parts.flatMap Part.text)) (parted : Parted pattern before parts)
    (lexed : Lexed (parts.flatMap Part.tokens)) :
    Lexed (parts.flatMap (Part.newTokens new)) := by
  induction parted with
  | nil _none => exact .nil
  | @kept before token parts _none parted ih =>
      rw [List.flatMap_cons] at lexed respects ⊢
      obtain ⟨alone, later, met⟩ := Lexed.split lexed
      have inner := ih ⟨respects.starts, fun inside =>
        respects.ends (inside.trans (List.suffix_append _ _))⟩ later
      refine Lexed.append alone inner fun ends => Bool.eq_false_iff.mpr fun begins => ?_
      have source := startsWord_newTokens respects.starts parted begins
      rw [← spell_partTokens, met ends] at source
      cases source
  | @found before stretch parts _filled found parted ih =>
      rw [List.flatMap_cons] at lexed respects ⊢
      obtain ⟨_alone, later, _met⟩ := Lexed.split lexed
      have inner := ih ⟨respects.starts, fun inside =>
        respects.ends (inside.trans (List.suffix_append _ _))⟩ later
      refine Lexed.append (Text.lexed_tokens _) inner fun ends =>
        Bool.eq_false_iff.mpr fun begins => ?_
      change endsWord (spell (tokens (new stretch))) = true at ends
      rw [Text.spell_tokens] at ends
      have source := startsWord_newTokens respects.starts parted begins
      rw [respects.ends (List.suffix_refl _) found ends] at source
      cases source

/-- The tokens of the new text are those of the old one with the matches exchanged. -/
theorem tokens_replace {new : Text → Text} {text : Text} (respects : pattern.Respects new text)
    (apart : pattern.Apart) :
    ∃ parts, Parted pattern none parts ∧ parts.flatMap Part.tokens = tokens text ∧
      parts.flatMap (Part.newTokens new) = tokens (pattern.replace new text) ∧
      parts.flatMap Part.pieces = pattern.pieces text := by
  obtain ⟨parts, parted, texts, lexed, cuts⟩ := exists_parted apart none text nofun
  refine ⟨parts, parted, lexed, ?_, cuts⟩
  have source : Lexed (parts.flatMap Part.tokens) := by
    rw [lexed]
    exact Text.lexed_tokens text
  have same : pattern.replace new text = spell (parts.flatMap (Part.newTokens new)) := by
    rw [replace_eq, ← flatMap_replaced, cuts]
    rfl
  rw [same, Text.tokens_spell (lexed_newTokens (texts ▸ respects) parted source)]

private theorem meets_of_newTokens {new : Text → Text} {mark : Char}
    (keeps : pattern.KeepsStart new)
    (absent : ∀ before stretch rest, pattern before (stretch ++ rest) = some stretch.length →
      mark ∉ new stretch)
    {before : Option Char} {parts : List Part} (parted : Parted pattern before parts)
    {first rest : List Token}
    (split : parts.flatMap (Part.newTokens new) = first ++ .mark mark :: rest)
    (begins : startsWord (spell rest) = true) :
    ∃ front behind, parts.flatMap Part.tokens = front ++ .mark mark :: behind ∧
      startsWord (spell behind) = true := by
  induction parted generalizing first with
  | nil _none => exact absurd (congrArg List.length split) (by simp)
  | @kept before token parts _none parted ih =>
      rw [List.flatMap_cons, Part.newTokens, List.singleton_append] at split
      rw [List.flatMap_cons, Part.tokens, List.singleton_append]
      cases first with
      | nil =>
          obtain ⟨rfl, rfl⟩ := List.cons.inj split
          refine ⟨[], _, rfl, ?_⟩
          rw [spell_partTokens]
          exact startsWord_newTokens keeps parted begins
      | cons other first =>
          obtain ⟨rfl, later⟩ := List.cons.inj split
          obtain ⟨front, behind, same, starts⟩ := ih later
          exact ⟨token :: front, behind, congrArg (token :: ·) same, starts⟩
  | @found before stretch parts _filled found _parted ih =>
      rw [List.flatMap_cons, Part.newTokens] at split
      rw [List.flatMap_cons, Part.tokens]
      have fresh : .mark mark ∉ tokens (new stretch) := by
        intro member
        have inside : mark ∈ spell (tokens (new stretch)) :=
          List.mem_flatMap.mpr ⟨_, member, List.mem_singleton.mpr rfl⟩
        rw [Text.spell_tokens] at inside
        exact absent before stretch _ found inside
      have deeper : ∀ {middle : List Token},
          parts.flatMap (Part.newTokens new) = middle ++ .mark mark :: rest →
            ∃ front behind, tokens stretch ++ parts.flatMap Part.tokens =
              front ++ .mark mark :: behind ∧ startsWord (spell behind) = true := by
        intro middle later
        obtain ⟨front, behind, same, starts⟩ := ih later
        exact ⟨tokens stretch ++ front, behind, by rw [same, List.append_assoc], starts⟩
      rcases List.append_eq_append_iff.mp split with ⟨middle, _early, later⟩ | ⟨middle, inside, same⟩
      · exact deeper later
      · cases middle with
        | nil => exact deeper (show _ = [] ++ _ from same.symm)
        | cons token middle =>
            obtain ⟨rfl, _rest⟩ := List.cons.inj same
            refine absurd ?_ fresh
            rw [inside]
            exact List.mem_append_right _ List.mem_cons_self

theorem meetsWord_of_replace {new : Text → Text} {text : Text} {mark : Char}
    (respects : pattern.Respects new text) (apart : pattern.Apart)
    (absent : ∀ before stretch rest, pattern before (stretch ++ rest) = some stretch.length →
      mark ∉ new stretch) (meets : Text.MeetsWord mark (pattern.replace new text)) :
    Text.MeetsWord mark text := by
  obtain ⟨parts, parted, lexed, changed, _cuts⟩ := tokens_replace respects apart
  obtain ⟨first, rest, split, begins⟩ := meets
  rw [← changed] at split
  unfold Text.MeetsWord
  rw [← lexed]
  exact meets_of_newTokens respects.starts absent parted split begins

def Spares (pattern : Pattern) (word text : Text) : Prop :=
  ∃ first later, tokens text = first ++ .word word :: later ∧
    pattern (spell first).getLast? (word ++ spell later) = none

private theorem Parted.behind {before : Option Char} {first rest : List Part}
    (parted : Parted pattern before (first ++ rest)) :
    Parted pattern ((first.flatMap Part.text).getLast?.or before) rest := by
  induction first generalizing before with
  | nil => exact parted
  | cons part first ih =>
      rw [List.flatMap_cons, List.getLast?_append, Option.or_assoc]
      cases parted with
      | kept _none parted => exact ih parted
      | @found _ stretch _ filled _found parted =>
          have inner := ih parted
          rwa [Part.text, List.getLast?_eq_some_getLast filled, Option.some_or,
            ← List.getLast?_eq_some_getLast filled]

/-- A word at which no match begins is kept, unless a match that begins before it holds it. -/
private theorem Parted.kept_of_tokens {before : Option Char} {parts : List Part}
    {first later : List Token} {word : Text} (parted : Parted pattern before parts)
    (inner : ∀ stretch, .found stretch ∈ parts → .word word ∉ (tokens stretch).tail)
    (split : parts.flatMap Part.tokens = first ++ .word word :: later)
    (none : pattern ((spell first).getLast?.or before) (word ++ spell later) = none) :
    .kept (.word word) ∈ parts := by
  induction parted generalizing first with
  | nil _none => exact absurd (congrArg List.length split) (by simp)
  | @kept before token parts _none _parted ih =>
      rw [List.flatMap_cons, Part.tokens, List.singleton_append] at split
      cases first with
      | nil =>
          rw [(List.cons.inj split).1]
          exact List.mem_cons_self
      | cons other first =>
          obtain ⟨rfl, rest⟩ := List.cons.inj split
          rw [Text.spell_cons, List.getLast?_append, Option.or_assoc] at none
          exact List.mem_cons_of_mem _
            (ih (fun stretch member => inner stretch (List.mem_cons_of_mem _ member)) rest none)
  | @found before stretch parts filled found _parted ih =>
      have deeper : ∀ {middle : List Token}, first = tokens stretch ++ middle →
          parts.flatMap Part.tokens = middle ++ .word word :: later →
            .kept (.word word) ∈ Part.found stretch :: parts := by
        intro middle early rest
        rw [early, Text.spell_append, Text.spell_tokens, List.getLast?_append, Option.or_assoc,
          List.getLast?_eq_some_getLast filled, Option.some_or,
          ← List.getLast?_eq_some_getLast filled] at none
        exact List.mem_cons_of_mem _
          (ih (fun other member => inner other (List.mem_cons_of_mem _ member)) rest none)
      have whole := congrArg spell split
      rw [spell_partTokens, List.flatMap_cons, Part.text] at whole
      rw [List.flatMap_cons, Part.tokens] at split
      rcases List.append_eq_append_iff.mp split with ⟨middle, early, rest⟩ | ⟨middle, inside, same⟩
      · exact deeper early rest
      · cases middle with
        | nil =>
            rw [List.append_nil] at inside
            exact deeper (by rw [inside, List.append_nil]) (show _ = [] ++ _ from same.symm)
        | cons token middle =>
            obtain ⟨rfl, _rest⟩ := List.cons.inj same
            cases first with
            | nil =>
                rw [whole] at found
                exact absurd (none.symm.trans found) nofun
            | cons other first =>
                refine absurd ?_ (inner stretch List.mem_cons_self)
                rw [inside]
                exact List.mem_append_right _ List.mem_cons_self

section
variable {new : Text → Text} (apart : pattern.Apart)
include apart

/-- A word that no match holds behind its start, and that no replacement brings in, is in the new text
when it stood where no match begins. -/
theorem mem_words_replace_iff {word text : Text} (respects : pattern.Respects new text)
    (inner : ∀ before stretch rest, pattern before (stretch ++ rest) = some stretch.length →
      .word word ∉ (tokens stretch).tail ∧ word ∉ words (new stretch)) :
    word ∈ words (pattern.replace new text) ↔ pattern.Spares word text := by
  obtain ⟨parts, parted, lexed, changed, _cuts⟩ := tokens_replace respects apart
  have matched : ∀ stretch, .found stretch ∈ parts →
      .word word ∉ (tokens stretch).tail ∧ word ∉ words (new stretch) := by
    intro stretch member
    obtain ⟨last, rest, found⟩ := parted.matched member
    exact inner last stretch rest found
  rw [Text.mem_words, ← changed, List.mem_flatMap]
  constructor
  · intro held
    obtain ⟨part, member, inside⟩ := held
    cases part with
    | found stretch => exact absurd (Text.mem_words.mpr inside) (matched stretch member).2
    | kept token =>
        cases List.mem_singleton.mp inside
        obtain ⟨first, later, rfl⟩ := List.append_of_mem member
        have behind := parted.behind
        cases behind with
        | kept none _parted =>
            rw [List.flatMap_append, List.flatMap_cons, Part.tokens, List.singleton_append] at lexed
            rw [Option.or_none, ← spell_partTokens first, ← spell_partTokens later] at none
            exact ⟨_, _, lexed.symm, none⟩
  · intro spared
    obtain ⟨first, later, split, none⟩ := spared
    rw [← lexed] at split
    rw [← @Option.or_none _ (spell first).getLast?] at none
    exact ⟨_, parted.kept_of_tokens (fun stretch member => (matched stretch member).1) split none,
      List.mem_singleton.mpr rfl⟩

theorem mem_words_replace_of_outside {word text : Text} (respects : pattern.Respects new text)
    (outside : ∀ before stretch rest, pattern before (stretch ++ rest) = some stretch.length →
      word ∉ words stretch ∧ word ∉ words (new stretch)) :
    word ∈ words (pattern.replace new text) ↔ word ∈ words text := by
  obtain ⟨parts, parted, lexed, changed, _cuts⟩ := tokens_replace respects apart
  rw [Text.mem_words, ← changed, Text.mem_words, ← lexed, List.mem_flatMap, List.mem_flatMap]
  refine exists_congr fun part => and_congr_right fun member => ?_
  cases part with
  | kept token => exact Iff.rfl
  | found stretch =>
      obtain ⟨last, rest, found⟩ := parted.matched member
      obtain ⟨before, after⟩ := outside last stretch rest found
      exact iff_of_false (mt Text.mem_words.mpr after) (mt Text.mem_words.mpr before)

private theorem words_newTokens_oneWord {one word : Text} (whole : Text.IsOneWord one)
    (keeps : pattern.KeepsStart fun _stretch => one) {before : Option Char} {parts : List Part}
    (parted : Parted pattern before parts) (lexed : Lexed (parts.flatMap Part.tokens))
    (member : word ∈ words (spell (parts.flatMap (Part.newTokens fun _stretch => one)))) :
    one <+: word ∨ word ∈ words (parts.flatMap Part.text) := by
  induction parted with
  | nil _none => cases member
  | @kept before token parts _none parted ih =>
      rw [List.flatMap_cons, Part.newTokens, List.singleton_append, Text.spell_cons] at member
      rw [List.flatMap_cons, Part.tokens, List.singleton_append] at lexed
      obtain ⟨_alone, later, met⟩ := lexed.split_cons
      rw [spell_partTokens] at met
      rw [List.flatMap_cons, Part.text, Text.words_append met]
      rw [Text.words_append fun ends => Bool.eq_false_iff.mpr fun begins =>
        absurd ((met ends).symm.trans (startsWord_newTokens keeps parted begins)) nofun] at member
      rcases List.mem_append.mp member with early | behind
      · exact .inr (List.mem_append_left _ early)
      · exact (ih later behind).imp_right (List.mem_append_right _)
  | @found before stretch parts _filled found _parted ih =>
      rw [List.flatMap_cons, Part.newTokens, Text.spell_append, Text.spell_tokens] at member
      rw [List.flatMap_cons, Part.tokens] at lexed
      rw [List.flatMap_cons, Part.text, Text.words_append (apart.closes found)]
      rcases Text.words_oneWord_append whole member with begins | behind
      · exact .inl begins
      · exact (ih lexed.split.2.1 behind).imp_right (List.mem_append_right _)

/-- Where matches become a word that may run into the text behind them, every other word was there
before. -/
theorem words_replace_oneWord {one word text : Text} (whole : Text.IsOneWord one)
    (keeps : pattern.KeepsStart fun _stretch => one)
    (member : word ∈ words (pattern.replace (fun _stretch => one) text)) :
    one <+: word ∨ word ∈ words text := by
  obtain ⟨parts, parted, texts, lexed, cuts⟩ := exists_parted apart none text nofun
  have source : Lexed (parts.flatMap Part.tokens) := by
    rw [lexed]
    exact Text.lexed_tokens text
  have same : pattern.replace (fun _stretch => one) text =
      spell (parts.flatMap (Part.newTokens fun _stretch => one)) := by
    rw [replace_eq, ← flatMap_replaced, cuts]
    rfl
  rw [same] at member
  rw [← texts]
  exact words_newTokens_oneWord apart whole keeps parted source member

end

end Pattern
end ShaderBridge
