import ShaderBridge.Code.Directive
import ShaderBridge.Proofs.Code.Identifier
import ShaderBridge.Proofs.Code.Layout
set_option autoImplicit false

/-! Lines that a preprocessor would act on. Whether a line is bookkeeping or opens a guarded group is
told by its lexemes (`isBookkeeping_trim_iff`, `opensGuarded_iff`). A text is plain when no line of
it is one of these: stripping makes a text plain and leaves a plain text alone, and a plain text
stays plain when words are exchanged and when it is laid out. -/

namespace ShaderBridge
namespace Code

open Text (Blank IsOneWord startsWord words lexemes lines)

def Bookkeeping (lexemes : List Token) : Prop :=
  (∃ others, lexemes = .mark '#' :: .word "line" :: others) ∨
    ∃ others, lexemes = .mark '#' :: .word "pragma" :: .word "pack_matrix" :: others

def conditionals : List Text := ["if", "ifdef", "ifndef"]

def OpensGuarded (guards : List Text) (lexemes : List Token) : Prop :=
  ∃ opening others, lexemes = .mark '#' :: .word opening :: others ∧ opening ∈ conditionals ∧
    ∃ guard ∈ guards, .word guard ∈ others

private theorem isWord_hash : isWord '#' = false := by decide

private theorem isBlank_hash : isBlank '#' = false := by decide

private theorem oneWord_of_all {word : Text} (filled : word ≠ [])
    (letters : word.all isWord = true) : IsOneWord word :=
  ⟨filled, List.all_eq_true.mp letters⟩

private theorem blanks_append {blanks rest : Text} (blank : Blank blanks)
    (dark : rest.head?.any isBlank = false) : Scan.blanks (blanks ++ rest) = some rest :=
  Scan.zeroOrMore_eq_some_iff.mpr ⟨blanks, blank, rfl, dark⟩

private theorem directive_eq_some_iff {name text rest : Text} (one : IsOneWord name) :
    directive name text = some rest ↔
      ∃ blanks, Blank blanks ∧ text = '#' :: (blanks ++ (name ++ rest)) := by
  unfold directive
  constructor
  · intro found
    obtain ⟨behind, hash, found⟩ := Scan.andThen_eq_some_iff.mp found
    obtain ⟨between, white, stem⟩ := Scan.andThen_eq_some_iff.mp found
    obtain ⟨blanks, blank, rfl, _dark⟩ := Scan.zeroOrMore_eq_some_iff.mp white
    refine ⟨blanks, blank, ?_⟩
    rw [← Scan.literal_eq_some_iff.mp stem]
    exact Scan.literal_eq_some_iff.mp hash
  · rintro ⟨blanks, blank, rfl⟩
    refine Scan.andThen_eq_some_iff.mpr ⟨_, rfl, ?_⟩
    exact Scan.andThen_eq_some_iff.mpr ⟨_, blanks_append blank (Text.dark_word_append one _),
      Scan.literal_eq_some_iff.mpr rfl⟩

private theorem trimmed_lexemes_eq_mark {text : Text} {char : Char} {others : List Token}
    (same : lexemes text.trim = .mark char :: others) :
    ∃ rest, text.trim = char :: rest ∧ lexemes rest = others := by
  obtain ⟨blanks, rest, blank, split, _mark, _dark, later⟩ := Text.lexemes_eq_mark_iff.mp same
  cases blanks with
  | nil => exact ⟨rest, split, later⟩
  | cons white blanks =>
      have begins := (Text.trimmed_trim text).1
      rw [split] at begins
      exact absurd ((blank white List.mem_cons_self).symm.trans begins) nofun

private theorem oneWord_line : IsOneWord "line" := oneWord_of_all (by decide) (by decide)

private theorem oneWord_pragma : IsOneWord "pragma" := oneWord_of_all (by decide) (by decide)

private theorem oneWord_packing : IsOneWord "pack_matrix" := oneWord_of_all (by decide) (by decide)

/-- A directive whose name begins with a given word. -/
theorem directive_trim_iff {name line : Text} (one : IsOneWord name) :
    (directive name line.trim).isSome = true ↔
      ∃ word others, lexemes line = .mark '#' :: .word word :: others ∧ name <+: word := by
  rw [Option.isSome_iff_exists, ← Text.lexemes_trim line]
  constructor
  · rintro ⟨rest, found⟩
    obtain ⟨blanks, blank, same⟩ := (directive_eq_some_iff one).mp found
    -- the letters behind the given ones belong to the same word
    obtain ⟨letters, members, split, apart⟩ :=
      Scan.zeroOrMore_eq_some_iff.mp (rfl : Scan.zeroOrMore isWord rest = some (rest.dropWhile isWord))
    have whole : IsOneWord (name ++ letters) :=
      ⟨List.append_ne_nil_of_left_ne_nil one.1 letters, List.forall_mem_append.mpr ⟨one.2, members⟩⟩
    rw [split, ← List.append_assoc name] at same
    refine ⟨name ++ letters, lexemes (rest.dropWhile isWord), Text.lexemes_eq_mark_iff.mpr
      ⟨[], _, fun _char => nofun, same, isWord_hash, isBlank_hash, ?_⟩, List.prefix_append name letters⟩
    exact Text.lexemes_eq_word_iff.mpr ⟨blanks, _, blank, rfl, whole, apart, rfl⟩
  · rintro ⟨word, others, same, more, rfl⟩
    obtain ⟨behind, split, later⟩ := trimmed_lexemes_eq_mark same
    obtain ⟨blanks, rest, blank, rfl, _one, _apart, _others⟩ := Text.lexemes_eq_word_iff.mp later
    rw [List.append_assoc] at split
    exact ⟨more ++ rest, (directive_eq_some_iff one).mpr ⟨blanks, blank, split⟩⟩

/-- A directive whose name is a given word. -/
theorem directive_wordEnd_trim_iff {name line : Text} (one : IsOneWord name) :
    ((directive name >=> Scan.wordEnd) line.trim).isSome = true ↔
      ∃ others, lexemes line = .mark '#' :: .word name :: others := by
  rw [Option.isSome_iff_exists, ← Text.lexemes_trim line]
  constructor
  · rintro ⟨rest, found⟩
    obtain ⟨between, named, ends⟩ := Scan.andThen_eq_some_iff.mp found
    obtain ⟨rfl, apart⟩ := Scan.endOf_eq_some_iff.mp ends
    obtain ⟨blanks, blank, same⟩ := (directive_eq_some_iff one).mp named
    refine ⟨lexemes rest, Text.lexemes_eq_mark_iff.mpr
      ⟨[], _, fun _char => nofun, same, isWord_hash, isBlank_hash, ?_⟩⟩
    exact Text.lexemes_eq_word_iff.mpr ⟨blanks, rest, blank, rfl, one, apart, rfl⟩
  · rintro ⟨others, same⟩
    obtain ⟨behind, split, later⟩ := trimmed_lexemes_eq_mark same
    obtain ⟨blanks, rest, blank, rfl, one, apart, _others⟩ := Text.lexemes_eq_word_iff.mp later
    exact ⟨rest, Scan.andThen_eq_some_iff.mpr
      ⟨rest, (directive_eq_some_iff one).mpr ⟨blanks, blank, split⟩,
        Scan.endOf_eq_some_iff.mpr ⟨rfl, apart⟩⟩⟩

private theorem isPacking_iff {line : Text} :
    ((directive "pragma" >=> Scan.someBlanks >=> Scan.literal "pack_matrix" >=> Scan.wordEnd)
      line.trim).isSome = true ↔
      ∃ others, lexemes line.trim = .mark '#' :: .word "pragma" :: .word "pack_matrix" :: others := by
  rw [Option.isSome_iff_exists]
  constructor
  · rintro ⟨rest, found⟩
    obtain ⟨between, named, found⟩ := Scan.andThen_eq_some_iff.mp found
    obtain ⟨after, gap, found⟩ := Scan.andThen_eq_some_iff.mp found
    obtain ⟨rfl, apart⟩ := Scan.wholeName_eq_some_iff.mp found
    obtain ⟨blanks, blank, same⟩ := (directive_eq_some_iff oneWord_pragma).mp named
    obtain ⟨white, filled, spaces, rfl, _dark⟩ := Scan.oneOrMore_eq_some_iff.mp gap
    refine ⟨lexemes rest, Text.lexemes_eq_mark_iff.mpr
      ⟨[], _, fun _char => nofun, same, isWord_hash, isBlank_hash, ?_⟩⟩
    refine Text.lexemes_eq_word_iff.mpr ⟨blanks, _, blank, rfl, oneWord_pragma, ?_, ?_⟩
    · rw [Text.startsWord_append filled]
      exact Text.Blank.startsWord spaces
    · exact Text.lexemes_eq_word_iff.mpr ⟨white, rest, spaces, rfl, oneWord_packing, apart, rfl⟩
  · rintro ⟨others, same⟩
    obtain ⟨behind, split, later⟩ := trimmed_lexemes_eq_mark same
    obtain ⟨blanks, middle, blank, rfl, one, apart, later⟩ := Text.lexemes_eq_word_iff.mp later
    obtain ⟨white, rest, spaces, rfl, another, distant, _others⟩ :=
      Text.lexemes_eq_word_iff.mp later
    -- two words next to each other would be one
    have filled : white ≠ [] := by
      rintro rfl
      rw [List.nil_append, Text.startsWord_append another.1, another.startsWord] at apart
      cases apart
    refine ⟨rest, Scan.andThen_eq_some_iff.mpr
      ⟨_, (directive_eq_some_iff one).mpr ⟨blanks, blank, split⟩, ?_⟩⟩
    refine Scan.andThen_eq_some_iff.mpr ⟨_, Scan.oneOrMore_eq_some_iff.mpr
      ⟨white, filled, spaces, rfl, Text.dark_word_append another _⟩, ?_⟩
    exact Scan.wholeName_eq_some_iff.mpr ⟨rfl, distant⟩

theorem isBookkeeping_trim_iff {line : Text} :
    isBookkeeping line.trim = true ↔ Bookkeeping (lexemes line) := by
  unfold isBookkeeping Bookkeeping
  rw [Bool.or_eq_true, directive_wordEnd_trim_iff oneWord_line, isPacking_iff, Text.lexemes_trim]

private theorem literal_of_apart {char : Char} {stem rest : Text} (letter : isWord char = true)
    (apart : startsWord rest = false) : Scan.literal (char :: stem) rest = none := by
  refine Option.eq_none_iff_forall_ne_some.mpr fun left found => ?_
  rw [Scan.literal_eq_some_iff.mp found] at apart
  exact absurd (letter.symm.trans apart) nofun

/-- What may follow the letters of `if` in the opening of a group. -/
private theorem opening_tail_iff {text rest : Text} :
    (Scan.optional (Scan.optional (Scan.literal "n") >=> Scan.literal "def") >=> Scan.wordEnd) text =
        some rest ↔
      startsWord rest = false ∧ ∃ tail ∈ [[], "def".toList, "ndef".toList], text = tail ++ rest := by
  constructor
  · intro found
    obtain ⟨between, read, ends⟩ := Scan.andThen_eq_some_iff.mp found
    obtain ⟨rfl, apart⟩ := Scan.endOf_eq_some_iff.mp ends
    refine ⟨apart, ?_⟩
    cases tail : (Scan.optional (Scan.literal "n") >=> Scan.literal "def") text with
    | none =>
        simp only [Scan.optional, tail, Option.getD_none, Option.some.injEq] at read
        exact ⟨[], by simp, read⟩
    | some left =>
        simp only [Scan.optional, tail, Option.getD_some, Option.some.injEq] at read
        subst read
        obtain ⟨middle, perhaps, stem⟩ := Scan.andThen_eq_some_iff.mp tail
        have define := Scan.literal_eq_some_iff.mp stem
        cases letter : Scan.literal "n" text with
        | none =>
            simp only [Scan.optional, letter, Option.getD_none, Option.some.injEq] at perhaps
            exact ⟨"def", by simp, by rw [perhaps, define]⟩
        | some behind =>
            simp only [Scan.optional, letter, Option.getD_some, Option.some.injEq] at perhaps
            refine ⟨"ndef", by simp, ?_⟩
            rw [Scan.literal_eq_some_iff.mp letter, perhaps, define]
            rfl
  · rintro ⟨apart, tail, member, rfl⟩
    have ends : Scan.wordEnd rest = some rest := Scan.endOf_eq_some_iff.mpr ⟨rfl, apart⟩
    refine Scan.andThen_eq_some_iff.mpr ⟨rest, ?_, ends⟩
    simp only [List.mem_cons, List.not_mem_nil, or_false] at member
    rcases member with rfl | rfl | rfl
    · have first : Scan.literal "n" rest = none := literal_of_apart (by decide) apart
      have second : Scan.literal "def" rest = none := literal_of_apart (by decide) apart
      change some (((some ((Scan.literal "n" rest).getD rest)).bind (Scan.literal "def")).getD rest) =
        some rest
      rw [first, Option.getD_none, Option.bind_some, second]
      rfl
    · rfl
    · rfl

private theorem conditional_eq_some_iff {line rest : Text} :
    conditional line = some rest ↔
      startsWord rest = false ∧ ∃ opening ∈ conditionals, ∃ margin blanks, Blank margin ∧
        Blank blanks ∧ line = margin ++ '#' :: (blanks ++ (opening ++ rest)) := by
  have stem : IsOneWord "if" := oneWord_of_all (by decide) (by decide)
  constructor
  · intro found
    obtain ⟨behind, white, opened⟩ := Scan.andThen_eq_some_iff.mp found
    obtain ⟨between, named, closed⟩ := Scan.andThen_eq_some_iff.mp opened
    obtain ⟨margin, blank, rfl, _dark⟩ := Scan.zeroOrMore_eq_some_iff.mp white
    obtain ⟨blanks, spaces, rfl⟩ := (directive_eq_some_iff stem).mp named
    obtain ⟨apart, tail, member, rfl⟩ := opening_tail_iff.mp closed
    have opens : ∀ tail ∈ [[], "def".toList, "ndef".toList], "if" ++ tail ∈ conditionals := by
      decide
    exact ⟨apart, "if" ++ tail, opens tail member, margin, blanks, blank, spaces, by simp⟩
  · rintro ⟨apart, opening, member, margin, blanks, blank, spaces, rfl⟩
    have split : ∃ tail ∈ [[], "def".toList, "ndef".toList], opening = "if" ++ tail := by
      revert opening
      decide
    obtain ⟨tail, allowed, rfl⟩ := split
    refine Scan.andThen_eq_some_iff.mpr ⟨_, blanks_append blank isBlank_hash, ?_⟩
    refine Scan.andThen_eq_some_iff.mpr ⟨tail ++ rest, ?_, ?_⟩
    · exact (directive_eq_some_iff stem).mpr ⟨blanks, spaces, by simp⟩
    · exact opening_tail_iff.mpr ⟨apart, tail, allowed, rfl⟩

private theorem oneWord_conditional {opening : Text} (member : opening ∈ conditionals) :
    IsOneWord opening := by
  have each : ∀ opening ∈ conditionals, opening ≠ [] ∧ opening.all isWord = true := by decide
  exact oneWord_of_all (each opening member).1 (each opening member).2

section
variable {guards : List Text} (ones : ∀ guard ∈ guards, IsOneWord guard)
include ones

private theorem boundedNames_eq : boundedNames guards = (Scan.oneOf guards).atWordStart := by
  funext before text
  obtain ⟨pick, listed, missed, met⟩ : ∃ pick : Text → Option Nat,
      boundedNames guards before text = guards.findSome? pick ∧
      (∀ name, Scan.literal name text = none → pick name = none) ∧
      ∀ name rest, Scan.literal name text = some rest → pick name =
        if isWordBoundary before text.head? &&
            isWordBoundary (if name.isEmpty then before else name.getLast?) rest.head? then
          some name.length
        else none :=
    ⟨_, rfl, fun _name read => by simp only [read], fun _name _rest read => by simp only [read]⟩
  have single : ∀ name ∈ guards, pick name =
        if before.any isWord then none
        else ((Scan.literal name >=> Scan.wordEnd) text).map fun rest =>
          text.length - rest.length := by
    intro name member
    have one := ones name member
    cases read : Scan.literal name text with
    | none =>
        have absent : (Scan.literal name >=> Scan.wordEnd) text = none := by
          refine Option.eq_none_iff_forall_ne_some.mpr fun rest found => ?_
          obtain ⟨between, stem, _ends⟩ := Scan.andThen_eq_some_iff.mp found
          rw [read] at stem
          cases stem
        rw [missed name read, absent, Option.map_none, ite_self]
    | some rest =>
        rw [met name rest read]
        have begins : (name ++ rest).head?.any isWord = true :=
          (Text.startsWord_append one.1 rest).trans one.startsWord
        have final : name.getLast?.any isWord = true := one.endsWord
        obtain rfl := Scan.literal_eq_some_iff.mp read
        have ends : (Scan.literal name >=> Scan.wordEnd) (name ++ rest) =
            if startsWord rest then none else some rest := by
          cases apart : startsWord rest with
          | false => exact Scan.wholeName_eq_some_iff.mpr ⟨rfl, apart⟩
          | true =>
              refine Option.eq_none_iff_forall_ne_some.mpr fun left found => ?_
              obtain ⟨same, distant⟩ := Scan.wholeName_eq_some_iff.mp found
              rw [← List.append_cancel_left same, apart] at distant
              cases distant
        have inside : rest.head?.any isWord = startsWord rest := rfl
        simp only [isWordBoundary, begins, List.isEmpty_eq_false_iff.mpr one.1, final, inside,
          Bool.false_eq_true, if_false, ends]
        cases before.any isWord <;> cases startsWord rest <;> simp
  unfold Scan.atWordStart Scan.notAfter Scan.anywhere Scan.oneOf
  rw [listed, ← List.head?_filterMap]
  refine (congrArg List.head? (List.filterMap_congr single)).trans ?_
  rw [List.head?_filterMap]
  cases before.any isWord with
  | true => exact List.findSome?_eq_none_iff.mpr fun _name _member => rfl
  | false => exact List.map_findSome?.symm

theorem opensGuarded_iff {line : Text} :
    opensGuarded guards line = true ↔ OpensGuarded guards (lexemes line) := by
  obtain ⟨reads, accepted⟩ := Scan.readsWord_oneOf ones
  have named : ∀ {rest : Text}, startsWord rest = false →
      ((boundedNames guards).occursAfter (some 'f') rest = true ↔
        ∃ guard ∈ guards, .word guard ∈ lexemes rest) := by
    intro rest apart
    rw [boundedNames_eq ones, occursAfter_of_readsWord reads fun _inside => apart]
    constructor
    · rintro ⟨word, member, read⟩
      exact ⟨word, (accepted word).mp read, Text.word_mem_lexemes.mpr member⟩
    · rintro ⟨guard, member, held⟩
      exact ⟨guard, Text.word_mem_lexemes.mp held, (accepted guard).mpr member⟩
  constructor
  · intro opens
    unfold opensGuarded at opens
    cases found : conditional line with
    | none =>
        rw [found] at opens
        cases opens
    | some rest =>
        rw [found] at opens
        obtain ⟨apart, opening, member, margin, blanks, blank, spaces, rfl⟩ :=
          conditional_eq_some_iff.mp found
        refine ⟨opening, lexemes rest, ?_, member, (named apart).mp opens⟩
        refine Text.lexemes_eq_mark_iff.mpr
          ⟨margin, _, blank, rfl, isWord_hash, isBlank_hash, ?_⟩
        exact Text.lexemes_eq_word_iff.mpr
          ⟨blanks, rest, spaces, rfl, oneWord_conditional member, apart, rfl⟩
  · rintro ⟨opening, others, same, member, guarded⟩
    obtain ⟨margin, behind, blank, rfl, _mark, _dark, later⟩ := Text.lexemes_eq_mark_iff.mp same
    obtain ⟨blanks, rest, spaces, rfl, _one, apart, rfl⟩ := Text.lexemes_eq_word_iff.mp later
    have found := conditional_eq_some_iff.mpr
      ⟨apart, opening, member, margin, blanks, blank, spaces, rfl⟩
    unfold opensGuarded
    rw [found]
    exact (named apart).mpr guarded

end

def PlainLines (guards : List Text) (text : Text) : Prop :=
  ∀ line ∈ lines text, ¬ OpensGuarded guards (lexemes line) ∧ ¬ Bookkeeping (lexemes line)

private theorem nothing_acts (guards : List Text) :
    ¬ OpensGuarded guards [] ∧ ¬ Bookkeeping [] := by
  refine ⟨?_, ?_⟩
  · rintro ⟨_opening, _others, impossible, _member⟩
    cases impossible
  · rintro (⟨_others, impossible⟩ | ⟨_others, impossible⟩)
    · cases impossible
    · cases impossible

private theorem keptLines_cons (guards : List Text) (line : Text) (source : List Text) :
    keptLines guards 0 (line :: source) =
      if opensGuarded guards line then keptLines guards 1 source
      else if isBookkeeping line.trim then keptLines guards 0 source
      else line :: keptLines guards 0 source := rfl

private theorem mem_keptLines {guards : List Text} {depth : Nat} {source : List Text} {line : Text}
    (member : line ∈ keptLines guards depth source) :
    line ∈ source ∧ opensGuarded guards line = false ∧ isBookkeeping line.trim = false := by
  induction source generalizing depth with
  | nil =>
      cases depth <;> cases member
  | cons first source ih =>
      cases depth with
      | zero =>
          rw [keptLines_cons] at member
          split at member
          · exact (ih member).imp_left (List.mem_cons_of_mem _)
          · split at member
            · exact (ih member).imp_left (List.mem_cons_of_mem _)
            · next closed other =>
                rcases List.mem_cons.mp member with rfl | later
                · exact ⟨List.mem_cons_self, Bool.eq_false_iff.mpr closed,
                    Bool.eq_false_iff.mpr other⟩
                · exact (ih later).imp_left (List.mem_cons_of_mem _)
      | succ depth =>
          simp only [keptLines] at member
          split at member
          · exact (ih member).imp_left (List.mem_cons_of_mem _)
          · split at member
            · exact (ih member).imp_left (List.mem_cons_of_mem _)
            · exact (ih member).imp_left (List.mem_cons_of_mem _)

private theorem keptLines_sublist (guards : List Text) (depth : Nat) (source : List Text) :
    (keptLines guards depth source).Sublist source := by
  induction source generalizing depth with
  | nil => cases depth <;> exact List.Sublist.slnil
  | cons line source ih =>
      cases depth with
      | zero =>
          rw [keptLines_cons]
          split
          · exact (ih _).cons line
          · split
            · exact (ih _).cons line
            · exact (ih _).cons_cons line
      | succ depth =>
          simp only [keptLines]
          split
          · exact (ih _).cons line
          · split
            · exact (ih _).cons line
            · exact (ih _).cons line

theorem count_stripBookkeeping_le {char : Char} (other : char ≠ '\n') (guards : List Text)
    (text : Text) : (stripBookkeeping guards text).count char ≤ text.count char := by
  have whole := congrArg (List.count char) (Text.unlines_lines text)
  rw [Text.count_unlines other] at whole
  unfold stripBookkeeping
  rw [Text.count_unlines other, ← whole]
  exact ((keptLines_sublist guards 0 text.lines).map _).sum_le_sum (fun _ _ => Nat.zero_le _)

private theorem keptLines_eq_self {guards : List Text} {source : List Text}
    (stay : ∀ line ∈ source, opensGuarded guards line = false ∧ isBookkeeping line.trim = false) :
    keptLines guards 0 source = source := by
  induction source with
  | nil => rfl
  | cons line source ih =>
      obtain ⟨⟨closed, other⟩, rest⟩ := List.forall_mem_cons.mp stay
      rw [keptLines_cons, closed, other, if_neg Bool.false_ne_true, if_neg Bool.false_ne_true, ih rest]

section
variable {guards : List Text} (ones : ∀ guard ∈ guards, IsOneWord guard)
include ones

theorem plainLines_stripBookkeeping (text : Text) :
    PlainLines guards (stripBookkeeping guards text) := by
  have kept : ∀ line ∈ keptLines guards 0 text.lines,
      ¬ OpensGuarded guards (lexemes line) ∧ ¬ Bookkeeping (lexemes line) := by
    intro line member
    obtain ⟨_source, closed, other⟩ := mem_keptLines member
    exact ⟨mt (opensGuarded_iff ones).mpr (Bool.eq_false_iff.mp closed),
      mt isBookkeeping_trim_iff.mpr (Bool.eq_false_iff.mp other)⟩
  intro line member
  unfold stripBookkeeping at member
  cases filled : keptLines guards 0 text.lines with
  | nil =>
      rw [filled] at member
      rw [List.mem_singleton.mp member]
      exact nothing_acts guards
  | cons first rest =>
      rw [Text.lines_unlines _ (by rw [filled]; exact List.cons_ne_nil _ _)] at member
      · exact kept line member
      · intro part found
        exact Text.line_feed_not_mem (mem_keptLines found).1

theorem PlainLines.stripBookkeeping_eq_self {text : Text} (plain : PlainLines guards text) :
    stripBookkeeping guards text = text := by
  unfold stripBookkeeping
  rw [keptLines_eq_self, Text.unlines_lines]
  intro line member
  obtain ⟨closed, other⟩ := plain line member
  exact ⟨Bool.eq_false_iff.mpr (mt (opensGuarded_iff ones).mp closed),
    Bool.eq_false_iff.mpr (mt isBookkeeping_trim_iff.mp other)⟩

private theorem stay_of_count_hash {source : List Text}
    (kept : (source.map (List.count '#')).sum ≤
      ((keptLines guards 0 source).map (List.count '#')).sum) :
    ∀ line ∈ source, opensGuarded guards line = false ∧ isBookkeeping line.trim = false := by
  have hashed : ∀ {line : Text} {others : List Token}, lexemes line = .mark '#' :: others →
      0 < line.count '#' := by
    intro line others same
    obtain ⟨_blanks, _rest, _blank, split, _mark, _dark, _later⟩ := Text.lexemes_eq_mark_iff.mp same
    rw [split]
    exact List.count_pos_iff.mpr (by simp)
  have fewer : ∀ depth (lines : List Text), ((keptLines guards depth lines).map
      (List.count '#')).sum ≤ (lines.map (List.count '#')).sum := by
    intro depth lines
    exact ((keptLines_sublist guards depth lines).map _).sum_le_sum fun _ _ => Nat.zero_le _
  induction source with
  | nil => exact nofun
  | cons line source ih =>
      rw [keptLines_cons, List.map_cons, List.sum_cons] at kept
      split at kept
      · next opens =>
          obtain ⟨_opening, _others, same, _rest⟩ := (opensGuarded_iff ones).mp opens
          have here := hashed same
          have later := fewer 1 source
          omega
      · next closed =>
          split at kept
          · next marked =>
              have here : 0 < line.count '#' := by
                rcases isBookkeeping_trim_iff.mp marked with ⟨_others, same⟩ | ⟨_others, same⟩
                · exact hashed same
                · exact hashed same
              have later := fewer 0 source
              omega
          · next other =>
              rw [List.map_cons, List.sum_cons] at kept
              exact List.forall_mem_cons.mpr ⟨⟨Bool.eq_false_iff.mpr closed,
                Bool.eq_false_iff.mpr other⟩, ih (by omega)⟩

theorem plainLines_of_count_hash {text : Text}
    (kept : text.count '#' ≤ (stripBookkeeping guards text).count '#') : PlainLines guards text := by
  have feed : '#' ≠ '\n' := by decide
  have whole := congrArg (List.count '#') (Text.unlines_lines text)
  rw [Text.count_unlines feed] at whole
  unfold stripBookkeeping at kept
  rw [Text.count_unlines feed, ← whole] at kept
  intro line member
  obtain ⟨closed, other⟩ := stay_of_count_hash ones kept line member
  exact ⟨mt (opensGuarded_iff ones).mpr (Bool.eq_false_iff.mp closed),
    mt isBookkeeping_trim_iff.mpr (Bool.eq_false_iff.mp other)⟩

end

def directiveWords (guards : List Text) : List Text :=
  ["line".toList, "pragma".toList, "pack_matrix".toList] ++ conditionals ++ guards

section
variable {change : Text → Text}

private theorem bookkeeping_of_map {lexemes : List Token}
    (fixed : ∀ word ∈ ["line".toList, "pragma".toList, "pack_matrix".toList],
      ∀ source, change source = word → source = word)
    (found : Bookkeeping (lexemes.map (Token.map change))) : Bookkeeping lexemes := by
  rcases found with ⟨others, same⟩ | ⟨others, same⟩
  · obtain ⟨hash, behind, rfl, mark, same⟩ := List.map_eq_cons_iff.mp same
    obtain ⟨name, rest, rfl, word, _rest⟩ := List.map_eq_cons_iff.mp same
    rw [Token.eq_mark_of_map mark, Token.eq_word_of_map (fixed _ (by simp)) word]
    exact .inl ⟨rest, rfl⟩
  · obtain ⟨hash, behind, rfl, mark, same⟩ := List.map_eq_cons_iff.mp same
    obtain ⟨name, behind, rfl, word, same⟩ := List.map_eq_cons_iff.mp same
    obtain ⟨setting, rest, rfl, packing, _rest⟩ := List.map_eq_cons_iff.mp same
    rw [Token.eq_mark_of_map mark, Token.eq_word_of_map (fixed _ (by simp)) word,
      Token.eq_word_of_map (fixed _ (by simp)) packing]
    exact .inr ⟨rest, rfl⟩

private theorem opensGuarded_of_map {guards : List Text} {lexemes : List Token}
    (fixed : ∀ word ∈ conditionals ++ guards, ∀ source, change source = word → source = word)
    (found : OpensGuarded guards (lexemes.map (Token.map change))) :
    OpensGuarded guards lexemes := by
  obtain ⟨opening, others, same, member, guard, known, held⟩ := found
  obtain ⟨hash, behind, rfl, mark, same⟩ := List.map_eq_cons_iff.mp same
  obtain ⟨name, rest, rfl, word, rfl⟩ := List.map_eq_cons_iff.mp same
  obtain ⟨token, source, named⟩ := List.mem_map.mp held
  rw [Token.eq_mark_of_map mark, Token.eq_word_of_map (fixed _ (List.mem_append_left _ member)) word]
  refine ⟨opening, rest, rfl, member, guard, known, ?_⟩
  rwa [Token.eq_word_of_map (fixed _ (List.mem_append_right _ known)) named] at source

/-- A change of words that makes no directive keeps a text plain. -/
theorem PlainLines.of_tokens_map {guards : List Text} {text other : Text}
    (plain : PlainLines guards text)
    (same : Text.tokens other = (Text.tokens text).map (Token.map change))
    (fixed : ∀ word ∈ directiveWords guards, ∀ source, change source = word → source = word) :
    PlainLines guards other := by
  intro line member
  have lined := Text.lines_of_tokens_map same
  obtain ⟨source, found, changed⟩ :=
    List.mem_map.mp (lined ▸ List.mem_map.mpr ⟨line, member, rfl⟩)
  obtain ⟨closed, quiet⟩ := plain source found
  rw [Text.lexemes_of_tokens_map changed.symm]
  unfold directiveWords at fixed
  refine ⟨mt (opensGuarded_of_map fun word allowed => fixed word ?_) closed,
    mt (bookkeeping_of_map fun word allowed => fixed word ?_) quiet⟩
  · rw [List.append_assoc]
    exact List.mem_append_right _ allowed
  · rw [List.append_assoc]
    exact List.mem_append_left _ allowed

end

theorem PlainLines.finish {guards : List Text} {text : Text} (plain : PlainLines guards text) :
    PlainLines guards (finish text) := by
  intro line member
  rw [← Text.lexemes_trim line]
  rcases trim_of_mem_finish member with empty | ⟨source, found, same⟩
  · rw [empty]
    exact nothing_acts guards
  · rw [same, Text.lexemes_trim]
    exact plain source found

end Code
end ShaderBridge
