import ShaderBridge.Export
import ShaderBridge.Proofs.Code.Directive
import ShaderBridge.Proofs.Code.Rename
set_option autoImplicit false

/-! Exporting an export changes nothing where declared names are given back: the WGSL, Metal and HLSL
exports are idempotent. After the first run each pass finds nothing to do. No line is one that is
stripped, every name that could be renamed has its new name in use, and the layout is tidy; and
none of these is undone by the passes that come later. -/

namespace ShaderBridge
namespace Export

open Code
open Text (Blank IsOneWord startsWord tokens words lines)

def Mangled (mode : ExecutionMode) (old new : Text) : Prop := (old, new) ∈ mangledNames mode

/-- The name of a block member and the symbol that it stands for. -/
def Flattened (mode : ExecutionMode) (old new : Text) : Prop :=
  ∃ symbol ∈ modeSymbols mode, ∃ digits, IsNumber digits ∧
    old = '_' :: (digits ++ '_' :: symbol.name) ∧ new = symbol.name

private theorem mangledNames_checked (mode : ExecutionMode) :
    ∀ entry ∈ mangledNames mode,
      (entry.1 ≠ [] ∧ entry.1.all isWord = true) ∧ isIdentifier entry.2 = true ∧
        (∀ other ∈ mangledNames mode, entry.2 ≠ other.1) ∧ entry.1.head? ≠ some 't' ∧
          entry.2.head? ≠ some '_' ∧ entry.2 ∉ directiveWords platformGuards := by
  cases mode <;> decide +kernel

private theorem modeSymbols_checked (mode : ExecutionMode) :
    ∀ symbol ∈ modeSymbols mode, isIdentifier symbol.name = true ∧
      symbol.name.head? ≠ some '_' ∧ symbol.name ∉ directiveWords platformGuards ∧
        ∀ entry ∈ mangledNames mode, symbol.name ≠ entry.1 := by
  cases mode <;> decide +kernel

private theorem directiveWords_checked :
    ∀ word ∈ directiveWords platformGuards, word.head? ≠ some 't' := by
  decide +kernel

theorem oneWord_guard : ∀ guard ∈ platformGuards, IsOneWord guard := by
  have each : ∀ guard ∈ platformGuards, guard ≠ [] ∧ guard.all isWord = true := by decide
  exact fun guard member => ⟨(each guard member).1, List.all_eq_true.mp (each guard member).2⟩

theorem isRenaming_mangled (mode : ExecutionMode) : IsRenaming (Mangled mode) where
  oneWord renamed := by
    obtain ⟨⟨filled, letters⟩, _rest⟩ := mangledNames_checked mode _ renamed
    exact ⟨filled, List.all_eq_true.mp letters⟩
  identifier renamed := (mangledNames_checked mode _ renamed).2.1
  fresh renamed other := (mangledNames_checked mode _ renamed).2.2.1 _ other

theorem covers_mangled (mode : ExecutionMode) (text : Text) :
    (mangledNames mode).Covers (Mangled mode) text :=
  ⟨id, fun renamed _member => renamed⟩

private theorem flattened_letters {mode : ExecutionMode} {symbol : HeaderSymbol}
    (member : symbol ∈ modeSymbols mode) : ∀ char ∈ symbol.name, isWord char = true :=
  (isIdentifier_iff.mp (modeSymbols_checked mode symbol member).1).1.2

theorem isRenaming_flattened (mode : ExecutionMode) : IsRenaming (Flattened mode) where
  oneWord renamed := by
    obtain ⟨symbol, member, digits, ⟨_filled, each⟩, rfl, _same⟩ := renamed
    have low : isWord '_' = true := by decide
    refine ⟨List.cons_ne_nil _ _, List.forall_mem_cons.mpr ⟨low, ?_⟩⟩
    intro char inside
    rcases List.mem_append.mp inside with digit | later
    · exact isWord_of_isDecimalDigit (each char digit)
    · rcases List.mem_cons.mp later with rfl | letter
      · exact low
      · exact flattened_letters member char letter
  identifier renamed := by
    obtain ⟨symbol, member, _digits, _number, _old, rfl⟩ := renamed
    exact (modeSymbols_checked mode symbol member).1
  fresh renamed other := by
    obtain ⟨symbol, member, _digits, _number, _old, rfl⟩ := renamed
    obtain ⟨_symbol, _member, _digits, _number, rfl, _same⟩ := other
    intro same
    have plain := (modeSymbols_checked mode symbol member).2.1
    rw [same] at plain
    exact plain rfl

theorem Flattened.unique {mode : ExecutionMode} {old new other : Text}
    (first : Flattened mode old new) (second : Flattened mode old other) : new = other := by
  obtain ⟨symbol, _member, digits, ⟨_filled, each⟩, rfl, rfl⟩ := first
  obtain ⟨another, _known, numbers, ⟨_some, all⟩, same, rfl⟩ := second
  have low : ∀ {digits : Text}, (∀ digit ∈ digits, isDecimalDigit digit = true) → '_' ∉ digits :=
    fun each inside => absurd (each '_' inside) (by decide)
  have tails := (List.cons.inj same).2
  have cut := congrArg (List.splitOn '_') tails
  rw [List.splitOn_append_cons_self_of_not_mem (low each),
    List.splitOn_append_cons_self_of_not_mem (low all)] at cut
  rw [(List.cons.inj cut).1] at tails
  exact (List.cons.inj (List.append_cancel_left tails)).2

theorem mem_flattened {name : Text} (letters : ∀ char ∈ name, isWord char = true)
    {text word : Text} :
    word ∈ (flattened name).occurrences text ↔
      word ∈ words text ∧ ∃ digits, IsNumber digits ∧ word = '_' :: (digits ++ '_' :: name) := by
  have ends : ∀ text rest,
      (Scan.literal "_" >=> Scan.literal name >=> Scan.wordEnd) text = some rest ↔
        text = '_' :: name ++ rest ∧ startsWord rest = false := by
    intro text rest
    constructor
    · intro found
      obtain ⟨between, low, named⟩ := Scan.andThen_eq_some_iff.mp found
      obtain ⟨rfl, apart⟩ := Scan.wholeName_eq_some_iff.mp named
      have same := Scan.literal_eq_some_iff.mp low
      exact ⟨same, apart⟩
    · rintro ⟨rfl, apart⟩
      exact Scan.andThen_eq_some_iff.mpr
        ⟨name ++ rest, rfl, Scan.wholeName_eq_some_iff.mpr ⟨rfl, apart⟩⟩
  have low : isWord '_' = true := by decide
  have whole : ∀ char ∈ "_".toList ++ '_' :: name, isWord char = true :=
    List.forall_mem_cons.mpr ⟨low, List.forall_mem_cons.mpr ⟨low, letters⟩⟩
  have digit : isDecimalDigit '_' = false := by decide
  obtain ⟨reads, accepted⟩ := Scan.readsWord_numbered whole digit ends
  unfold flattened
  rw [occurrences_of_readsWord reads, List.mem_filter, accepted]
  rfl

theorem covers_flattenedNames (mode : ExecutionMode) (text : Text) :
    (flattenedNames mode text).Covers (Flattened mode) text := by
  let entries := (modeSymbols mode).flatMap fun symbol =>
    ((flattened symbol.name).occurrences text).map fun member => (member, symbol.name)
  have collected : flattenedNames mode text = Renames.collect Prod.fst Prod.snd entries [] := by
    unfold flattenedNames Renames.collect
    rw [List.foldl_flatMap]
    simp only [List.foldl_map]
  have held : ∀ {old new : Text}, (old, new) ∈ entries ↔
      Flattened mode old new ∧ old ∈ words text := by
    intro old new
    rw [List.mem_flatMap]
    constructor
    · rintro ⟨symbol, member, found⟩
      obtain ⟨word, occurs, same⟩ := List.mem_map.mp found
      obtain ⟨inside, digits, number, rfl⟩ := (mem_flattened (flattened_letters member)).mp occurs
      cases same
      exact ⟨⟨symbol, member, digits, number, rfl, rfl⟩, inside⟩
    · rintro ⟨⟨symbol, member, digits, number, rfl, rfl⟩, inside⟩
      refine ⟨symbol, member, List.mem_map.mpr ⟨_, ?_, rfl⟩⟩
      exact (mem_flattened (flattened_letters member)).mpr ⟨inside, digits, number, rfl⟩
  rw [collected]
  have within : ∀ {old new : Text}, (old, new) ∈ Renames.collect Prod.fst Prod.snd entries [] →
      Flattened mode old new := by
    intro old new member
    rcases Renames.mem_collect member with ⟨entry, found, same⟩ | impossible
    · exact (held.mp (same ▸ found)).1
    · cases impossible
  refine ⟨within, ?_⟩
  intro old new renamed inside
  have key : old ∈ (Renames.collect Prod.fst Prod.snd entries []).keys :=
    Renames.mem_keys_collect (held.mpr ⟨renamed, inside⟩) []
  obtain ⟨value, entry⟩ := Renames.mem_keys.mp key
  rw [renamed.unique (within entry)]
  exact entry

private theorem apart_mangled_temporary (mode : ExecutionMode) {old new name value : Text}
    (mangled : Mangled mode old new) (temporary : Temporary name value) :
    value ≠ old ∧ new ≠ name := by
  obtain ⟨_word, _identifier, _fresh, start, plain, _silent⟩ := mangledNames_checked mode _ mangled
  obtain ⟨digits, _number, rfl, rfl⟩ := temporary
  refine ⟨?_, ?_⟩
  · rintro rfl
    exact start rfl
  · rintro rfl
    exact plain rfl

theorem apart_mangled_flattened (mode : ExecutionMode) {old new name value : Text}
    (mangled : Mangled mode old new) (flattened : Flattened mode name value) :
    value ≠ old ∧ new ≠ name := by
  obtain ⟨_word, _identifier, _fresh, _start, plain, _silent⟩ := mangledNames_checked mode _ mangled
  obtain ⟨symbol, member, digits, _number, rfl, rfl⟩ := flattened
  refine ⟨(modeSymbols_checked mode symbol member).2.2.2 _ mangled, ?_⟩
  rintro rfl
  exact plain rfl

private theorem apart_flattened_temporary (mode : ExecutionMode) {old new name value : Text}
    (flattened : Flattened mode old new) (temporary : Temporary name value) :
    value ≠ old ∧ new ≠ name := by
  obtain ⟨symbol, member, _digits, _number, rfl, rfl⟩ := flattened
  obtain ⟨_digits, _number, rfl, rfl⟩ := temporary
  refine ⟨fun same => absurd (List.cons.inj same).1 (by decide), ?_⟩
  intro same
  have plain := (modeSymbols_checked mode symbol member).2.1
  rw [same] at plain
  exact plain rfl

def Silent (Renamed : Text → Text → Prop) : Prop :=
  ∀ old new, Renamed old new → new ∉ directiveWords platformGuards

theorem silent_mangled (mode : ExecutionMode) : Silent (Mangled mode) := by
  intro old new renamed
  exact (mangledNames_checked mode _ renamed).2.2.2.2.2

theorem silent_flattened (mode : ExecutionMode) : Silent (Flattened mode) := by
  rintro old new ⟨symbol, member, _digits, _number, _old, rfl⟩
  exact (modeSymbols_checked mode symbol member).2.2.1

theorem silent_temporary : Silent Temporary := by
  rintro old new ⟨digits, _number, _old, rfl⟩ member
  exact directiveWords_checked _ member rfl

section
variable {Renamed : Text → Text → Prop} {text other : Text}

theorem Silent.fixed (silent : Silent Renamed) {change : Text → Text}
    (changes : ∀ word, change word = word ∨ Renamed word (change word)) :
    ∀ word ∈ directiveWords platformGuards, ∀ source, change source = word → source = word := by
  intro word member source equal
  rcases changes source with stays | renamed
  · exact stays.symm.trans equal
  · rw [equal] at renamed
    exact absurd member (silent _ _ renamed)

theorem plainLines_reworded (silent : Silent Renamed) (reworded : Reworded Renamed text other)
    (plain : PlainLines platformGuards text) : PlainLines platformGuards other := by
  obtain ⟨change, same, changes⟩ := reworded
  exact plain.of_tokens_map same (silent.fixed changes)

theorem mem_of_reworded (reworded : Reworded Renamed text other) {char : Char}
    (mark : isWord char = false) (member : char ∈ other) : char ∈ text := by
  obtain ⟨_change, same, _changes⟩ := reworded
  exact Text.mem_of_tokens_map same mark member

end

def LineFed (text : Text) : Prop := '\r' ∉ text

theorem LineFed.reworded {Renamed : Text → Text → Prop} {text other : Text} (fed : LineFed text)
    (reworded : Reworded Renamed text other) : LineFed other :=
  fun member => fed (mem_of_reworded reworded (by decide) member)

theorem LineFed.finish {text : Text} (fed : LineFed text) : LineFed (finish text) :=
  fun member => (mem_of_mem_finish member).elim fed (by decide)

theorem LineFed.stripBookkeeping {text : Text} (fed : LineFed text) (guards : List Text) :
    LineFed (stripBookkeeping guards text) := by
  have fewer := count_stripBookkeeping_le (by decide : '\r' ≠ '\n') guards text
  rw [List.count_eq_zero.mpr fed] at fewer
  exact List.count_eq_zero.mp (Nat.le_zero.mp fewer)

def Marked (line : Text) : Prop :=
  ∃ blanks rest, Blank blanks ∧ line = blanks ++ ("#line" ++ rest) ∧ startsWord rest = false

def Unmarked (text : Text) : Prop := ∀ line ∈ lines text, ¬ Marked line

private theorem not_marked_nil : ¬ Marked [] := by
  rintro ⟨blanks, rest, _blank, same, _apart⟩
  cases blanks <;> cases same

private theorem Marked.trim {line : Text} (marked : Marked line) : Marked line.trim := by
  obtain ⟨blanks, rest, blank, rfl, apart⟩ := marked
  rw [Text.trim_blank_append blank]
  obtain ⟨before, after, left, right, same⟩ := Text.exists_trim ("#line" ++ rest)
  have empty : before = [] := by
    cases before with
    | nil => rfl
    | cons char before =>
        have hash := (List.cons.inj same).1
        exact absurd (left char List.mem_cons_self) (by rw [← hash]; decide)
  rw [empty, List.nil_append] at same
  rcases List.append_eq_append_iff.mp same with ⟨more, whole, split⟩ | ⟨tail, whole, split⟩
  · refine ⟨[], more, fun _char => nofun, whole, ?_⟩
    cases more with
    | nil => rfl
    | cons char more =>
        rw [split] at apart
        exact apart
  · -- white space cannot take letters off the directive
    have none : tail = [] := by
      by_contra filled
      have final := congrArg List.getLast? whole
      rw [List.getLast?_append_of_ne_nil _ filled, List.getLast?_eq_some_getLast filled] at final
      have letter : tail.getLast filled = 'e' := (Option.some.inj final).symm
      have white := right _ (split ▸ List.mem_append_left rest (List.getLast_mem filled))
      rw [letter] at white
      exact absurd white (by decide)
    rw [none, List.append_nil] at whole
    exact ⟨[], [], fun _char => nofun, by rw [← whole]; rfl, rfl⟩

private theorem Marked.of_trim {line : Text} (marked : Marked line.trim) : Marked line := by
  obtain ⟨blanks, rest, blank, same, apart⟩ := marked
  obtain ⟨before, after, left, right, split⟩ := Text.exists_trim line
  refine ⟨before ++ blanks, rest ++ after, left.append blank, ?_, ?_⟩
  · rw [split, same]
    simp only [List.append_assoc]
  · cases rest with
    | nil => exact right.startsWord
    | cons char rest => exact apart

theorem Unmarked.finish {text : Text} (unmarked : Unmarked text) : Unmarked (finish text) := by
  intro line member marked
  rcases trim_of_mem_finish member with empty | ⟨source, found, same⟩
  · have impossible := marked.trim
    rw [empty] at impossible
    exact not_marked_nil impossible
  · have carried := marked.trim
    rw [same] at carried
    exact unmarked source found carried.of_trim

private theorem marked_iff {line : Text} :
    Marked line ↔ ∃ white others, (∀ token ∈ white, token.isWhite = true) ∧
      tokens line = white ++ .mark '#' :: .word "line" :: others := by
  have stem : IsOneWord "line" := by
    refine ⟨List.cons_ne_nil _ _, ?_⟩
    decide
  constructor
  · rintro ⟨blanks, rest, blank, rfl, apart⟩
    refine ⟨tokens blanks, tokens rest, fun token => blank.isWhite, ?_⟩
    change tokens (blanks ++ '#' :: ("line" ++ rest)) = _
    rw [Text.tokens_append_mark (by decide), Text.tokens_append fun _ends => apart,
      Text.tokens_of_oneWord stem]
    rfl
  · rintro ⟨white, others, whites, same⟩
    have spelled := Text.spell_tokens line
    have lexed := Text.lexed_tokens line
    rw [same] at spelled lexed
    obtain ⟨_mark, named, _apart⟩ := lexed.split.2.1.split_cons
    refine ⟨Text.spell white, Text.spell others, Text.blank_spell whites, ?_, ?_⟩
    · rw [← spelled, Text.spell_append, Text.spell_cons, Text.spell_cons]
      rfl
    · exact named.split_cons.2.2 stem.endsWord

theorem Unmarked.reworded {Renamed : Text → Text → Prop} {text other : Text}
    (unmarked : Unmarked text) (silent : Silent Renamed) (reworded : Reworded Renamed text other) :
    Unmarked other := by
  obtain ⟨change, same, changes⟩ := reworded
  intro line member marked
  have lined := Text.lines_of_tokens_map same
  obtain ⟨source, found, changed⟩ :=
    List.mem_map.mp (lined ▸ List.mem_map.mpr ⟨line, member, rfl⟩)
  obtain ⟨white, others, whites, split⟩ := marked_iff.mp marked
  rw [← changed] at split
  obtain ⟨blanks, behind, cut, left, right⟩ := List.map_eq_append_iff.mp split
  obtain ⟨hash, later, rfl, mark, right⟩ := List.map_eq_cons_iff.mp right
  obtain ⟨name, rest, rfl, word, _rest⟩ := List.map_eq_cons_iff.mp right
  have fixed := silent.fixed changes "line" (by decide +kernel)
  rw [Token.eq_mark_of_map mark, Token.eq_word_of_map fixed word] at cut
  refine unmarked source found (marked_iff.mpr ⟨blanks, rest, ?_, cut⟩)
  intro token inside
  have kept := whites _ (left ▸ List.mem_map.mpr ⟨token, inside, rfl⟩)
  cases token with
  | word word => cases kept
  | mark char => exact kept

private theorem markerScan_iff {text rest : Text} :
    (Scan.blanks >=> Scan.literal "#line" >=> Scan.wordEnd >=> Scan.restOfLine) text = some rest ↔
      ∃ blanks more, Blank blanks ∧ text = blanks ++ ("#line" ++ (more ++ rest)) ∧
        startsWord (more ++ rest) = false ∧ '\n' ∉ more ∧ EndsLine rest := by
  constructor
  · intro found
    obtain ⟨behind, white, marked⟩ := Scan.andThen_eq_some_iff.mp found
    obtain ⟨between, stem, ended⟩ := Scan.andThen_eq_some_iff.mp marked
    obtain ⟨after, wordEnd, line⟩ := Scan.andThen_eq_some_iff.mp ended
    obtain ⟨rfl, apart⟩ := Scan.endOf_eq_some_iff.mp wordEnd
    obtain ⟨blanks, blank, rfl, _dark⟩ := Scan.zeroOrMore_eq_some_iff.mp white
    obtain ⟨more, flat, rfl, ends⟩ := Scan.zeroOrMore_eq_some_iff.mp line
    refine ⟨blanks, more, blank, by rw [Scan.literal_eq_some_iff.mp stem], apart, ?_, ends⟩
    exact fun inside => absurd (flat '\n' inside) (by decide)
  · rintro ⟨blanks, more, blank, rfl, apart, flat, ends⟩
    have hash : isBlank '#' = false := by decide
    refine Scan.andThen_eq_some_iff.mpr
      ⟨_, Scan.zeroOrMore_eq_some_iff.mpr ⟨blanks, blank, rfl, hash⟩, ?_⟩
    refine Scan.andThen_eq_some_iff.mpr ⟨_, Scan.literal_eq_some_iff.mpr rfl, ?_⟩
    refine Scan.andThen_eq_some_iff.mpr ⟨_, Scan.endOf_eq_some_iff.mpr ⟨rfl, apart⟩, ?_⟩
    refine Scan.zeroOrMore_eq_some_iff.mpr ⟨more, fun char inside => ?_, rfl, ends⟩
    exact bne_iff_ne.mpr fun same => flat (same ▸ inside)

private theorem consumes_marker :
    Scan.Consumes (Scan.blanks >=> Scan.literal "#line" >=> Scan.wordEnd >=> Scan.restOfLine) :=
  Scan.sound_blanks.andThen_consumes ((Scan.consumes_literal (by decide)).andThen
    (Scan.sound_wordEnd.andThen Scan.sound_restOfLine))

theorem sound_markerLine : markerLine.Sound := Pattern.sound_notAfter _ consumes_marker

private theorem markerLine_of_marked {line behind : Text} {before : Option Char}
    (marked : Marked line) (flat : '\n' ∉ line) (ends : EndsLine behind)
    (start : before.any (· != '\n') = false) : markerLine before (line ++ behind) ≠ none := by
  obtain ⟨blanks, rest, blank, rfl, apart⟩ := marked
  have silent : startsWord (rest ++ behind) = false := by
    cases rest with
    | cons char rest => exact apart
    | nil =>
        rcases ends.cases with rfl | ⟨more, rfl⟩
        · rfl
        · exact Text.isWord_line_feed
  have read := markerScan_iff.mpr ⟨blanks, rest, blank, rfl, silent,
    fun inside => flat (by simp [inside]), ends⟩
  intro none
  have found := Pattern.notAfter_eq_some_iff.mpr ⟨start, behind, read, rfl⟩
  rw [List.append_assoc, List.append_assoc] at none
  exact absurd (none.symm.trans found) nofun

private theorem exists_first_line (text : Text) :
    ∃ line behind others, text = line ++ behind ∧ '\n' ∉ line ∧ EndsLine behind ∧
      lines text = line :: others := by
  induction text using Text.lines_induction with
  | last line flat =>
      exact ⟨line, [], [], (List.append_nil line).symm, flat, rfl, Text.lines_of_flat flat⟩
  | first line rest flat _ih =>
      exact ⟨line, '\n' :: rest, lines rest, rfl, flat, rfl, Text.lines_of_flat_append flat rest⟩

private theorem lines_head_of_endsLine {text : Text} (ends : EndsLine text) :
    (lines text).head? = some [] := by
  rcases ends.cases with rfl | ⟨rest, rfl⟩
  · rfl
  · rw [← List.nil_append ('\n' :: rest), Text.lines_append_line_feed]
    rfl

/-- What is left of a text when its line markers are removed: no line marker, and the rest of a line
that was begun before. -/
private theorem unmarked_pieces {before : Option Char} {text : Text} {pieces : List Piece}
    (cut : markerLine.Cut before text pieces) :
    let left := pieces.flatMap (Piece.replaced fun _ => [])
    ∃ head tail, lines left = head :: tail ∧ (∀ line ∈ tail, ¬ Marked line) ∧
      (before.any (· != '\n') = false → ¬ Marked head) ∧
        (before.any (· != '\n') = true → (lines text).head? = some head) := by
  induction cut with
  | done _none =>
      exact ⟨[], [], rfl, List.forall_mem_nil _, fun _start => not_marked_nil, fun _inside => rfl⟩
  | @kept before char text pieces none _cut ih =>
      obtain ⟨head, tail, split, others, started, begun⟩ := ih
      rw [List.flatMap_cons, Piece.replaced, List.singleton_append]
      by_cases feed : char = '\n'
      · subst feed
        have parts : ∀ text : Text, lines ('\n' :: text) = [] :: lines text :=
          Text.lines_append_line_feed []
        refine ⟨[], head :: tail, by rw [parts, split], ?_, fun _start => not_marked_nil, ?_⟩
        · exact List.forall_mem_cons.mpr ⟨started rfl, others⟩
        · intro _inside
          rw [parts]
          rfl
      · have inside : (some char).any (· != '\n') = true := bne_iff_ne.mpr feed
        have whole : (lines (char :: text)).head? = some (char :: head) := by
          rw [Text.lines_cons feed, List.head?_modifyHead, begun inside]
          rfl
        refine ⟨char :: head, tail, by rw [Text.lines_cons feed, split]; rfl, others, ?_,
          fun _inside => whole⟩
        intro start marked
        obtain ⟨line, behind, _others, same, flat, ends, first⟩ := exists_first_line (char :: text)
        rw [first] at whole
        rw [← Option.some.inj whole] at marked
        rw [same] at none
        exact markerLine_of_marked marked flat ends start none
  | @found before stretch rest pieces _filled found _cut ih =>
      obtain ⟨head, tail, split, others, _started, begun⟩ := ih
      obtain ⟨start, read⟩ := (Pattern.notAfter_append_eq_some_iff consumes_marker.sound).mp found
      obtain ⟨blanks, more, _blank, same, _apart, flat, ends⟩ := markerScan_iff.mp read
      rw [← List.append_assoc, ← List.append_assoc] at same
      have inside : stretch.getLast?.any (· != '\n') = true := by
        rw [List.append_cancel_right same]
        cases final : more.getLast? with
        | none =>
            rw [List.getLast?_eq_none_iff.mp final, List.append_nil,
              List.getLast?_append_of_ne_nil _ (by decide)]
            decide
        | some char =>
            rw [List.getLast?_append, final]
            exact bne_iff_ne.mpr fun equal => flat (equal ▸ List.mem_of_getLast? final)
      have empty := begun inside
      rw [lines_head_of_endsLine ends] at empty
      obtain rfl := Option.some.inj empty
      rw [List.flatMap_cons, Piece.replaced, List.nil_append]
      refine ⟨[], tail, split, others, fun _start => not_marked_nil, fun impossible => ?_⟩
      exact absurd (start.symm.trans impossible) Bool.false_ne_true

theorem unmarked_remove (text : Text) : Unmarked (markerLine.remove text) := by
  obtain ⟨head, tail, split, others, started, _begun⟩ :=
    unmarked_pieces (Pattern.cut_pieces sound_markerLine text)
  intro line member
  unfold Pattern.remove at member
  rw [Pattern.replace_eq, split] at member
  rcases List.mem_cons.mp member with rfl | later
  · exact started rfl
  · exact others line later

private theorem exists_marked {blanks more rest : Text} (blank : Blank blanks)
    (apart : startsWord (more ++ rest) = false) (flat : '\n' ∉ more) (ends : EndsLine rest) :
    ∃ line ∈ lines (blanks ++ ("#line" ++ (more ++ rest))), Marked line := by
  induction blanks using Text.lines_induction with
  | last blanks level =>
      have whole : '\n' ∉ blanks ++ ("#line" ++ more) := by
        simp only [List.mem_append, not_or]
        exact ⟨level, by decide, flat⟩
      have silent : startsWord more = false := by
        cases more with
        | nil => rfl
        | cons char more => exact apart
      refine ⟨_, ?_, blanks, more, blank, rfl, silent⟩
      rw [← List.append_assoc "#line".toList, ← List.append_assoc blanks]
      rcases ends.cases with rfl | ⟨behind, rfl⟩
      · rw [List.append_nil, Text.lines_of_flat whole]
        exact List.mem_cons_self
      · rw [Text.lines_of_flat_append whole]
        exact List.mem_cons_self
  | first front later _level ih =>
      obtain ⟨line, member, marked⟩ := ih fun char inside =>
        blank char (List.mem_append_right _ (List.mem_cons_of_mem _ inside))
      refine ⟨line, ?_, marked⟩
      rw [List.append_assoc, List.cons_append, Text.lines_append_line_feed]
      exact List.mem_append_right _ member

theorem Unmarked.remove_eq_self {text : Text} (unmarked : Unmarked text) :
    markerLine.remove text = text := by
  refine Pattern.replace_eq_self_of_absent ?_ _
  rintro front back rfl
  refine Option.eq_none_iff_forall_ne_some.mpr fun length found => ?_
  obtain ⟨start, rest, read, _length⟩ := Pattern.notAfter_eq_some_iff.mp found
  obtain ⟨blanks, more, blank, rfl, apart, flat, ends⟩ := markerScan_iff.mp read
  obtain ⟨line, member, marked⟩ := exists_marked blank apart flat ends
  refine unmarked line ?_ marked
  rw [Option.or_none] at start
  cases final : front.getLast? with
  | none =>
      rw [List.getLast?_eq_none_iff.mp final]
      exact member
  | some char =>
      rw [final] at start
      obtain ⟨earlier, rfl⟩ := List.getLast?_eq_some_iff.mp final
      have feed : char = '\n' := bne_eq_false_iff_eq.mp start
      rw [feed, List.append_assoc, List.singleton_append, Text.lines_append_line_feed]
      exact List.mem_append_right _ member

/-! ### Exports of exports -/

theorem wgsl_idempotent (mode : ExecutionMode) (artifact : Text) :
    wgsl mode (wgsl mode artifact) = wgsl mode artifact := by
  let given := rename (mangledNames mode) artifact.normalizeNewlines
  let named := renameTemporaries given
  have out : wgsl mode artifact = finish named := rfl
  have changed : Reworded Temporary given named := reworded_renameTemporaries given
  have fed : LineFed (finish named) :=
    (LineFed.reworded (LineFed.reworded (Text.not_mem_normalizeNewlines artifact)
      ((isRenaming_mangled mode).reworded id _)) changed).finish
  have mangled : Settled (Mangled mode) (finish named) :=
    (((covers_mangled mode _).settled (isRenaming_mangled mode)).reworded changed
      (apart_mangled_temporary mode)).of_words (words_finish named)
  have temporary : Settled Temporary (finish named) :=
    (settled_renameTemporaries given).of_words (words_finish named)
  rw [out]
  unfold wgsl
  rw [Text.normalizeNewlines_eq_self fed, mangled.rename_eq_self (isRenaming_mangled mode) id,
    renameTemporaries_eq_self temporary, (tidy_finish named).finish_eq_self]

theorem hlsl_idempotent (mode : ExecutionMode) (artifact : Text) :
    hlsl mode (hlsl mode artifact) = hlsl mode artifact := by
  let stripped := stripBookkeeping platformGuards artifact.normalizeNewlines
  let given := rename (mangledNames mode) stripped
  let flat := rename (flattenedNames mode given) given
  let named := renameTemporaries flat
  have out : hlsl mode artifact = finish named := rfl
  have first : Reworded (Mangled mode) stripped given := (isRenaming_mangled mode).reworded id _
  have second : Reworded (Flattened mode) given flat :=
    (isRenaming_flattened mode).reworded (covers_flattenedNames mode given).within given
  have third : Reworded Temporary flat named := reworded_renameTemporaries flat
  have fed : LineFed (finish named) :=
    ((((LineFed.stripBookkeeping (Text.not_mem_normalizeNewlines artifact) _).reworded
      first).reworded second).reworded third).finish
  have plain : PlainLines platformGuards (finish named) :=
    (plainLines_reworded silent_temporary third (plainLines_reworded (silent_flattened mode) second
      (plainLines_reworded (silent_mangled mode) first
        (plainLines_stripBookkeeping oneWord_guard _)))).finish
  have mangled : Settled (Mangled mode) (finish named) :=
    ((((covers_mangled mode _).settled (isRenaming_mangled mode)).reworded second
      (apart_mangled_flattened mode)).reworded third
        (apart_mangled_temporary mode)).of_words (words_finish named)
  have flattened : Settled (Flattened mode) (finish named) :=
    (((covers_flattenedNames mode given).settled (isRenaming_flattened mode)).reworded third
      (apart_flattened_temporary mode)).of_words (words_finish named)
  have temporary : Settled Temporary (finish named) :=
    (settled_renameTemporaries flat).of_words (words_finish named)
  rw [out]
  unfold hlsl
  simp only
  rw [Text.normalizeNewlines_eq_self fed, plain.stripBookkeeping_eq_self oneWord_guard,
    mangled.rename_eq_self (isRenaming_mangled mode) id,
    flattened.rename_eq_self (isRenaming_flattened mode) (covers_flattenedNames mode _).within,
    renameTemporaries_eq_self temporary, (tidy_finish named).finish_eq_self]

theorem metal_idempotent (mode : ExecutionMode) (artifact : Text) :
    metal mode (metal mode artifact) = metal mode artifact := by
  let stripped := markerLine.remove artifact.normalizeNewlines
  let given := rename (mangledNames mode) stripped
  let named := renameTemporaries given
  have out : metal mode artifact = finish named := rfl
  have first : Reworded (Mangled mode) stripped given := (isRenaming_mangled mode).reworded id _
  have second : Reworded Temporary given named := reworded_renameTemporaries given
  have removed : LineFed stripped := by
    intro member
    rcases Pattern.mem_of_mem_replace member with kept | ⟨_stretch, _found, impossible⟩
    · exact Text.not_mem_normalizeNewlines artifact kept
    · cases impossible
  have fed : LineFed (finish named) := ((removed.reworded first).reworded second).finish
  have unmarked : Unmarked (finish named) :=
    (((unmarked_remove _).reworded (silent_mangled mode) first).reworded
      silent_temporary second).finish
  have mangled : Settled (Mangled mode) (finish named) :=
    (((covers_mangled mode _).settled (isRenaming_mangled mode)).reworded second
      (apart_mangled_temporary mode)).of_words (words_finish named)
  have temporary : Settled Temporary (finish named) :=
    (settled_renameTemporaries given).of_words (words_finish named)
  rw [out]
  unfold metal
  rw [Text.normalizeNewlines_eq_self fed, unmarked.remove_eq_self,
    mangled.rename_eq_self (isRenaming_mangled mode) id, renameTemporaries_eq_self temporary,
    (tidy_finish named).finish_eq_self]

/-- The HLSL, WGSL and Metal exports succeed on every text, and exporting an export gives it back. -/
theorem exportArtifact_idempotent {target : TargetFormat}
    (plain : target = .hlsl ∨ target = .wgsl ∨ target = .metal) (mode : ExecutionMode)
    (artifact : Text) :
    ∃ once, exportArtifact target mode artifact = .ok once ∧
      exportArtifact target mode once = .ok once := by
  rcases plain with rfl | rfl | rfl
  · exact ⟨_, rfl, congrArg Except.ok (hlsl_idempotent mode artifact)⟩
  · exact ⟨_, rfl, congrArg Except.ok (wgsl_idempotent mode artifact)⟩
  · exact ⟨_, rfl, congrArg Except.ok (metal_idempotent mode artifact)⟩

/-- A line marker, a name that is given back, one whose bare name is in use already, and a
temporary. -/
theorem exportArtifact_idempotent_of_mangled_module :
    let artifact : Text := "#line 1 \"a.slang\"\r\nfloat _S12 = uTime_0 + uFrame_0;  \r\n" ++
      "float uFrame = _S12;"
    let exported : Text := "float t12 = uTime + uFrame_0;\nfloat uFrame = t12;\n"
    exportArtifact .hlsl .materialLibrary artifact = .ok exported ∧
      exportArtifact .hlsl .materialLibrary exported = .ok exported := by
  intro artifact exported
  have first : exportArtifact .hlsl .materialLibrary artifact = .ok exported := by
    -- a literal is spelled out once, or it is decoded each time a character of it is compared
    simp only [artifact, exported]
    repeat rw [String.toList_ofList]
    decide +kernel
  obtain ⟨once, same, again⟩ := exportArtifact_idempotent (.inl rfl) .materialLibrary artifact
  obtain rfl := Except.ok.inj (first.symm.trans same)
  exact ⟨first, again⟩

end Export
end ShaderBridge
