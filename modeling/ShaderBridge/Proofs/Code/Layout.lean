import ShaderBridge.Code.Layout
import ShaderBridge.Proofs.Text.Lexeme
import ShaderBridge.Proofs.Text.Pieces
set_option autoImplicit false

/-! What layout changes. Line feeds at the ends of a text make no difference to `dedent`. `finish`
keeps the content of a text, its trimmed lines without the blank ones (`content_finish`), and with
it the words, the lexemes and the dark characters; what it gives is tidy, and a tidy text stays as
it is (`finish_eq_self`). -/

namespace ShaderBridge
namespace Code

open Text (Blank Trimmed isBlankText_iff lines words lexemes)

theorem trimLineFeeds_cons (text : Text) : trimLineFeeds ('\n' :: text) = trimLineFeeds text := by
  unfold trimLineFeeds
  rw [List.dropWhile_cons_of_pos rfl]

theorem trimLineFeeds_concat (text : Text) :
    trimLineFeeds (text ++ ['\n']) = trimLineFeeds text := by
  unfold trimLineFeeds
  rw [List.dropWhile_append]
  cases rest : text.dropWhile (· == '\n') with
  | nil => rfl
  | cons char rest =>
      rw [List.isEmpty_cons, if_neg Bool.false_ne_true, List.reverse_concat,
        List.dropWhile_cons_of_pos rfl]

theorem dedent_of_trimLineFeeds_eq {first second : Text}
    (same : trimLineFeeds first = trimLineFeeds second) : dedent first = dedent second := by
  unfold dedent
  rw [same]

theorem count_trimLineFeeds_le (char : Char) (text : Text) :
    (trimLineFeeds text).count char ≤ text.count char := by
  unfold trimLineFeeds
  rw [List.count_reverse]
  refine ((List.dropWhile_sublist _).count_le char).trans ?_
  rw [List.count_reverse]
  exact (List.dropWhile_sublist _).count_le char

theorem count_dedent_le {char : Char} (other : char ≠ '\n') (body : Text) :
    (dedent body).count char ≤ body.count char := by
  have whole := congrArg (List.count char) (Text.unlines_lines (trimLineFeeds body))
  rw [Text.count_unlines other] at whole
  have trimmed := count_trimLineFeeds_le char body
  unfold dedent
  rw [Text.count_unlines other, List.map_map]
  refine le_trans (List.sum_le_sum fun line _member => ?_) (whole.trans_le trimmed)
  rw [Function.comp_apply]
  split
  · exact Nat.zero_le _
  · exact (List.drop_sublist _ line).count_le char

theorem count_indent_le {char : Char} (other : char ≠ '\n') {margin : Text} (apart : char ∉ margin)
    (text : Text) : (indent margin text).count char ≤ text.count char := by
  have whole := congrArg (List.count char) (Text.unlines_lines text)
  rw [Text.count_unlines other] at whole
  unfold indent
  rw [Text.count_unlines other, List.map_map]
  refine le_trans (List.sum_le_sum fun line _member => ?_) whole.le
  rw [Function.comp_apply]
  split
  · exact Nat.zero_le _
  · rw [List.count_append, List.count_eq_zero.mpr apart, Nat.zero_add]

theorem exists_trimLineFeeds (text : Text) :
    ∃ before after : Text, (∀ char ∈ before, char = '\n') ∧ (∀ char ∈ after, char = '\n') ∧
      text = before ++ trimLineFeeds text ++ after := by
  let inner := text.dropWhile (· == '\n')
  have feeds : ∀ text : Text, ∀ char ∈ text.takeWhile (· == '\n'), char = '\n' := by
    intro text char member
    have feed : (char == '\n') = true := List.mem_takeWhile_imp (p := (· == '\n')) member
    exact eq_of_beq feed
  have right : inner = trimLineFeeds text ++ (inner.reverse.takeWhile (· == '\n')).reverse := by
    have turned := congrArg List.reverse
      (List.takeWhile_append_dropWhile (p := (· == '\n')) (l := inner.reverse))
    rw [List.reverse_append, List.reverse_reverse] at turned
    exact turned.symm
  refine ⟨text.takeWhile (· == '\n'), (inner.reverse.takeWhile (· == '\n')).reverse, feeds text,
    fun char member => feeds inner.reverse char (List.mem_reverse.mp member), ?_⟩
  rw [List.append_assoc, ← right]
  exact List.takeWhile_append_dropWhile.symm

private theorem infix_trimLineFeeds (text : Text) : trimLineFeeds text <:+: text := by
  obtain ⟨before, after, _left, _right, same⟩ := exists_trimLineFeeds text
  exact ⟨before, after, same.symm⟩

def withoutMargin (parts : List Text) (line : Text) : Text :=
  if line.isBlankText then [] else line.drop (commonIndentation parts)

section
variable {parts : List Text} {line : Text}

theorem withoutMargin_of_blank (blank : Blank line) : withoutMargin parts line = [] :=
  if_pos (isBlankText_iff.mpr blank)

theorem withoutMargin_of_dark (dark : ¬ Blank line) :
    withoutMargin parts line = line.drop (commonIndentation parts) :=
  if_neg (mt isBlankText_iff.mp dark)

theorem withoutMargin_suffix (parts : List Text) (line : Text) : withoutMargin parts line <:+ line := by
  unfold withoutMargin
  split
  · exact List.nil_suffix
  · exact List.drop_suffix _ line

theorem commonIndentation_le (member : line ∈ parts) (dark : ¬ Blank line) :
    commonIndentation parts ≤ indentation line := by
  have counted : indentation line ∈ (parts.filter (!·.isBlankText)).map indentation := by
    refine List.mem_map.mpr ⟨line, List.mem_filter.mpr ⟨member, ?_⟩, rfl⟩
    rw [Bool.eq_false_iff.mpr (mt isBlankText_iff.mp dark)]
    rfl
  exact List.min?_getD_le_of_mem counted

theorem blank_take_of_le_indentation {count : Nat} (within : count ≤ indentation line) :
    Blank (line.take count) := by
  intro char early
  rw [← List.takeWhile_append_dropWhile (p := isBlank) (l := line),
    List.take_append_of_le_length within] at early
  exact List.mem_takeWhile_imp (List.mem_of_mem_take early)

end

theorem lines_dedent (body : Text) : lines (dedent body) =
    (lines (trimLineFeeds body)).map (withoutMargin (lines (trimLineFeeds body))) := by
  refine Text.lines_unlines (fun part changed => ?_) (mt List.map_eq_nil_iff.mp (Text.lines_ne_nil _))
  obtain ⟨source, held, rfl⟩ := List.mem_map.mp changed
  exact fun inside => Text.line_feed_not_mem held ((withoutMargin_suffix _ source).mem inside)

theorem infix_of_infix_dedent {needle body : Text} (flat : '\n' ∉ needle)
    (found : needle <:+: dedent body) : needle <:+: body := by
  refine List.IsInfix.trans ?_ (infix_trimLineFeeds body)
  obtain ⟨line, member, inside⟩ := (Text.infix_iff_lines flat).mp found
  rw [lines_dedent] at member
  obtain ⟨source, held, rfl⟩ := List.mem_map.mp member
  exact (Text.infix_iff_lines flat).mpr
    ⟨source, held, inside.trans (withoutMargin_suffix _ source).isInfix⟩

/-- The trimmed lines, without the blank ones. -/
def content (text : Text) : List Text :=
  (text.lines.map Text.trim).filter fun line => !line.isEmpty

theorem content_append_line_feed (first rest : Text) :
    content (first ++ '\n' :: rest) = content first ++ content rest := by
  unfold content
  rw [Text.lines_append_line_feed, List.map_append, List.filter_append]

private theorem content_of_flat {line other : Text} (flat : '\n' ∉ line) (level : '\n' ∉ other)
    (same : line.trim = other.trim) : content line = content other := by
  unfold content
  rw [Text.lines_of_flat flat, Text.lines_of_flat level, List.map_singleton, List.map_singleton,
    same]

private theorem content_cons_blank {char : Char} (white : isBlank char = true) (text : Text) :
    content (char :: text) = content text := by
  have single : Blank [char] := List.forall_mem_singleton.mpr white
  by_cases ends : char = '\n'
  · rw [ends]
    exact content_append_line_feed [] text
  · have inside : ∀ line : Text, '\n' ∉ line → content (char :: line) = content line := by
      intro line flat
      have apart : '\n' ∉ char :: line := fun member =>
        (List.mem_cons.mp member).elim (fun same => ends same.symm) flat
      exact content_of_flat apart flat (Text.trim_blank_append single line)
    induction text using Text.lines_induction with
    | last line flat => exact inside line flat
    | first line rest flat _ih =>
        rw [← List.cons_append, content_append_line_feed, content_append_line_feed,
          inside line flat]

theorem content_blank_append {before : Text} (blank : Blank before) (text : Text) :
    content (before ++ text) = content text := by
  induction before with
  | nil => rfl
  | cons char before ih =>
      obtain ⟨white, rest⟩ := List.forall_mem_cons.mp blank
      exact (content_cons_blank white _).trans (ih rest)

theorem content_of_blank {text : Text} (blank : Blank text) : content text = [] := by
  have same := content_blank_append blank []
  rwa [List.append_nil] at same

private theorem content_concat_blank {char : Char} (text : Text) (white : isBlank char = true) :
    content (text ++ [char]) = content text := by
  have single : Blank [char] := List.forall_mem_singleton.mpr white
  by_cases ends : char = '\n'
  · rw [ends, content_append_line_feed, content_of_blank (fun _char => nofun : Blank []),
      List.append_nil]
  · induction text using Text.lines_induction with
    | last line flat =>
        refine content_of_flat (fun member => ?_) flat (Text.trim_append_blank line single)
        rcases List.mem_append.mp member with inside | last
        · exact flat inside
        · exact ends (List.mem_singleton.mp last).symm
    | first line rest flat ih =>
        rw [List.append_assoc, List.cons_append, content_append_line_feed, ih,
          content_append_line_feed]

theorem content_append_blank {after : Text} (text : Text) (blank : Blank after) :
    content (text ++ after) = content text := by
  induction after generalizing text with
  | nil => rw [List.append_nil]
  | cons char after ih =>
      obtain ⟨white, rest⟩ := List.forall_mem_cons.mp blank
      rw [← List.singleton_append, ← List.append_assoc, ih _ rest, content_concat_blank text white]

@[simp] theorem content_trim (text : Text) : content text.trim = content text := by
  obtain ⟨before, after, left, right, same⟩ := Text.exists_trim text
  have whole := content_append_blank (before ++ text.trim) right
  rw [← same, content_blank_append left] at whole
  exact whole.symm

/-- What is read line by line, whatever the white space around the lines, is read off the
content. -/
theorem eq_flatMap_content {Item : Type} {read : Text → List Item} (none : read [] = [])
    (joined : ∀ first rest, read (first ++ '\n' :: rest) = read first ++ read rest)
    (trimmed : ∀ line : Text, read line.trim = read line) (text : Text) :
    read text = (content text).flatMap read := by
  have inside : ∀ line : Text, '\n' ∉ line → read line = (content line).flatMap read := by
    intro line flat
    unfold content
    rw [Text.lines_of_flat flat, List.map_singleton]
    cases said : line.trim with
    | nil =>
        have same := trimmed line
        rw [said, none] at same
        exact same.symm
    | cons char rest =>
        rw [← trimmed line, said]
        simp
  induction text using Text.lines_induction with
  | last line flat => exact inside line flat
  | first line rest flat ih =>
      rw [joined, content_append_line_feed, List.flatMap_append, inside line flat, ih]

theorem content_unlines (parts : List Text) :
    content (Text.unlines parts) = parts.flatMap content :=
  Text.unlines_eq_flatMap rfl content_append_line_feed parts

private theorem content_map_lines {change : Text → Text} {text : Text}
    (same : ∀ line ∈ lines text, content (change line) = content line) :
    content (Text.unlines ((lines text).map change)) = content text := by
  rw [content_unlines, List.flatMap_map, List.flatMap_congr same, ← content_unlines,
    Text.unlines_lines]

theorem content_indent {margin : Text} (blank : Blank margin) (text : Text) :
    content (indent margin text) = content text := by
  refine content_map_lines fun line _member => ?_
  split
  · next white => exact (content_of_blank (List.all_eq_true.mp white)).symm
  · exact content_blank_append blank line

private theorem content_trimLineFeeds (text : Text) :
    content (trimLineFeeds text) = content text := by
  have feeds : ∀ {text : Text}, (∀ char ∈ text, char = '\n') → Blank text := by
    intro text each char member
    rw [each char member]
    exact isBlank_line_feed
  obtain ⟨before, after, left, right, same⟩ := exists_trimLineFeeds text
  have whole := content_append_blank (before ++ trimLineFeeds text) (feeds right)
  rw [← same, content_blank_append (feeds left)] at whole
  exact whole.symm

theorem content_dedent (body : Text) : content (dedent body) = content body := by
  have kept : ∀ line ∈ lines (trimLineFeeds body),
      content (withoutMargin (lines (trimLineFeeds body)) line) = content line := by
    intro line member
    by_cases blank : Blank line
    · rw [withoutMargin_of_blank blank, content_of_blank blank]
      rfl
    · have margin := blank_take_of_le_indentation (commonIndentation_le member blank)
      rw [withoutMargin_of_dark blank, ← content_blank_append margin, List.take_append_drop]
  exact (content_map_lines kept).trans (content_trimLineFeeds body)

/-- The text is at its end or begins with a line feed. -/
def EndsLine (text : Text) : Prop := text.head?.any (· != '\n') = false

theorem EndsLine.cases {text : Text} (ends : EndsLine text) :
    text = [] ∨ ∃ rest, text = '\n' :: rest := by
  cases text with
  | nil => exact .inl rfl
  | cons char rest =>
      have same : (char != '\n') = false := ends
      exact .inr ⟨rest, by rw [bne_eq_false_iff_eq.mp same]⟩

private theorem consumes_trailingSpace :
    Scan.Consumes (Scan.oneOrMore isSpaceOrTab >=> Scan.endOf (· != '\n')) :=
  (Scan.consumes_oneOrMore _).andThen (Scan.sound_endOf _)

theorem sound_trailingSpace : trailingSpace.Sound := by
  unfold trailingSpace
  rw [Pattern.anywhere_eq_notAfter]
  exact Pattern.sound_notAfter _ consumes_trailingSpace

theorem trailingSpace_iff {before : Option Char} {stretch rest : Text} :
    trailingSpace before (stretch ++ rest) = some stretch.length ↔
      stretch ≠ [] ∧ (∀ char ∈ stretch, isSpaceOrTab char = true) ∧ EndsLine rest := by
  unfold trailingSpace
  rw [Pattern.anywhere_eq_notAfter,
    Pattern.notAfter_append_eq_some_iff consumes_trailingSpace.sound, Scan.andThen_eq_some_iff]
  constructor
  · rintro ⟨_outside, between, read, ends⟩
    obtain ⟨rfl, line⟩ := Scan.endOf_eq_some_iff.mp ends
    obtain ⟨space, filled, spaces, same, _rest⟩ := Scan.oneOrMore_eq_some_iff.mp read
    rw [List.append_cancel_right same]
    exact ⟨filled, spaces, line⟩
  · rintro ⟨filled, spaces, line⟩
    have outside : rest.head?.any isSpaceOrTab = false := by
      rcases line.cases with rfl | ⟨more, rfl⟩
      · rfl
      · exact (by decide : isSpaceOrTab '\n' = false)
    exact ⟨by cases before <;> rfl, rest,
      Scan.oneOrMore_eq_some_iff.mpr ⟨stretch, filled, spaces, rfl, outside⟩,
      Scan.endOf_eq_some_iff.mpr ⟨rfl, line⟩⟩

private theorem blank_of_spaces {text : Text} (spaces : ∀ char ∈ text, isSpaceOrTab char = true) :
    Blank text :=
  fun char member => isBlank_of_isSpaceOrTab (spaces char member)

private theorem content_replaced_trailing {before : Option Char} {text : Text}
    {pieces : List Piece} (cut : trailingSpace.Cut before text pieces) (front : Text) :
    content (front ++ pieces.flatMap (Piece.replaced fun _ => [])) = content (front ++ text) := by
  induction cut generalizing front with
  | done _none => rfl
  | @kept _before char text pieces _none _cut ih =>
      rw [List.flatMap_cons, Piece.replaced, ← List.append_assoc, ih, List.append_assoc]
      rfl
  | @found _before stretch rest pieces _filled found _cut ih =>
      obtain ⟨_some, spaces, line⟩ := trailingSpace_iff.mp found
      have blank := blank_of_spaces spaces
      rw [List.flatMap_cons, Piece.replaced, List.nil_append, ih]
      rcases line.cases with rfl | ⟨more, rfl⟩
      · rw [List.append_nil, List.append_nil, content_append_blank front blank]
      · rw [← List.append_assoc, content_append_line_feed, content_append_line_feed,
          content_append_blank front blank]

theorem content_remove_trailing (text : Text) :
    content (trailingSpace.remove text) = content text :=
  content_replaced_trailing (Pattern.cut_pieces sound_trailingSpace text) []

private theorem consumes_emptyLines :
    Scan.Consumes (Scan.literal "\n\n" >=> Scan.oneOrMore (· == '\n')) :=
  (Scan.consumes_literal (by decide)).andThen (Scan.consumes_oneOrMore _).sound

theorem sound_emptyLines : emptyLines.Sound := by
  unfold emptyLines
  rw [Pattern.anywhere_eq_notAfter]
  exact Pattern.sound_notAfter _ consumes_emptyLines

theorem emptyLines_iff {before : Option Char} {stretch rest : Text} :
    emptyLines before (stretch ++ rest) = some stretch.length ↔
      (∃ more, more ≠ [] ∧ (∀ char ∈ more, char = '\n') ∧ stretch = '\n' :: '\n' :: more) ∧
        rest.head? ≠ some '\n' := by
  unfold emptyLines
  rw [Pattern.anywhere_eq_notAfter,
    Pattern.notAfter_append_eq_some_iff consumes_emptyLines.sound, Scan.andThen_eq_some_iff]
  have apart : rest.head?.any (· == '\n') = false ↔ rest.head? ≠ some '\n' := by
    cases rest <;> simp
  constructor
  · rintro ⟨_outside, between, pair, read⟩
    obtain ⟨more, filled, feeds, rfl, ends⟩ := Scan.oneOrMore_eq_some_iff.mp read
    have same := Scan.literal_eq_some_iff.mp pair
    rw [← List.append_assoc] at same
    refine ⟨⟨more, filled, fun char member => eq_of_beq (feeds char member), ?_⟩, apart.mp ends⟩
    exact List.append_cancel_right same
  · rintro ⟨⟨more, filled, feeds, rfl⟩, ends⟩
    exact ⟨by cases before <;> rfl, more ++ rest, Scan.literal_eq_some_iff.mpr rfl,
      Scan.oneOrMore_eq_some_iff.mpr ⟨more, filled, fun char member => beq_iff_eq.mpr
        (feeds char member), rfl, apart.mpr ends⟩⟩

private theorem content_replaced_emptyLines {before : Option Char} {text : Text}
    {pieces : List Piece} (cut : emptyLines.Cut before text pieces) (front : Text) :
    content (front ++ pieces.flatMap (Piece.replaced fun _ => "\n\n")) =
      content (front ++ text) := by
  induction cut generalizing front with
  | done _none => rfl
  | @kept _before char text pieces _none _cut ih =>
      rw [List.flatMap_cons, Piece.replaced, ← List.append_assoc, ih, List.append_assoc]
      rfl
  | @found _before stretch rest pieces _filled found _cut ih =>
      obtain ⟨⟨more, _some, feeds, rfl⟩, _apart⟩ := emptyLines_iff.mp found
      have blank : ∀ {text : Text}, (∀ char ∈ text, char = '\n') → Blank text :=
        fun each char member => by rw [each char member, isBlank_line_feed]
      have pair : Blank ['\n'] := blank fun char member => List.mem_singleton.mp member
      have later := ih []
      rw [List.nil_append, List.nil_append] at later
      rw [List.flatMap_cons]
      change content (front ++ '\n' :: (['\n'] ++ _)) =
        content (front ++ '\n' :: (['\n'] ++ (more ++ rest)))
      rw [content_append_line_feed, content_append_line_feed, content_blank_append pair,
        content_blank_append pair, content_blank_append (blank feeds), later]

theorem content_collapseBlankLines (text : Text) :
    content (collapseBlankLines text) = content text := by
  unfold collapseBlankLines
  rw [← content_remove_trailing text]
  exact content_replaced_emptyLines (Pattern.cut_pieces sound_emptyLines _) []

@[simp] theorem content_finish (text : Text) : content (finish text) = content text := by
  have closing : Blank ['\n'] := List.forall_mem_singleton.mpr isBlank_line_feed
  unfold finish
  refine (content_append_blank _ closing).trans ?_
  rw [content_trim, content_collapseBlankLines]

theorem trim_of_mem_finish {text line : Text} (member : line ∈ lines (finish text)) :
    line.trim = [] ∨ ∃ source ∈ lines text, line.trim = source.trim := by
  by_cases empty : line.trim = []
  · exact .inl empty
  · have said : line.trim ∈ content (finish text) := by
      refine List.mem_filter.mpr ⟨List.mem_map.mpr ⟨line, member, rfl⟩, ?_⟩
      rw [List.isEmpty_eq_false_iff.mpr empty]
      rfl
    rw [content_finish] at said
    obtain ⟨source, found, same⟩ := List.mem_map.mp (List.mem_filter.mp said).1
    exact .inr ⟨source, found, same.symm⟩

theorem infix_of_infix_finish {needle text : Text} (flat : '\n' ∉ needle) (filled : needle ≠ [])
    (trimmed : Trimmed needle) (found : needle <:+: finish text) : needle <:+: text := by
  obtain ⟨line, member, inside⟩ := (Text.infix_iff_lines flat).mp found
  have inner := Text.infix_trim_of_infix filled trimmed inside
  rcases trim_of_mem_finish member with empty | ⟨source, held, same⟩
  · rw [empty] at inner
    exact absurd (List.infix_nil.mp inner) filled
  · rw [same] at inner
    obtain ⟨before, after, _left, _right, split⟩ := Text.exists_trim source
    exact (Text.infix_iff_lines flat).mpr ⟨source, held, inner.trans ⟨before, after, split.symm⟩⟩

theorem words_of_content_eq {text other : Text} (same : content text = content other) :
    words text = words other := by
  have read := eq_flatMap_content (rfl : words [] = [])
    (Text.words_append_mark Text.isWord_line_feed) Text.words_trim
  rw [read text, same, ← read other]

@[simp] theorem words_finish (text : Text) : words (finish text) = words text :=
  words_of_content_eq (content_finish text)

theorem lexemes_of_content_eq {text other : Text} (same : content text = content other) :
    Text.lexemes text = Text.lexemes other := by
  have joined : ∀ first rest : Text,
      Text.lexemes (first ++ '\n' :: rest) = Text.lexemes first ++ Text.lexemes rest := by
    intro first rest
    have white : Blank ['\n'] := List.forall_mem_singleton.mpr isBlank_line_feed
    rw [Text.lexemes_append_mark Text.isWord_line_feed]
    exact congrArg (Text.lexemes first ++ ·) (Text.lexemes_blank_append white rest)
  have read := eq_flatMap_content (rfl : Text.lexemes [] = []) joined Text.lexemes_trim
  rw [read text, same, ← read other]

/-- The characters that are no white space. -/
def dark (text : Text) : Text := text.filter fun char => !isBlank char

theorem dark_append (first rest : Text) : dark (first ++ rest) = dark first ++ dark rest :=
  List.filter_append first rest

theorem dark_of_blank {text : Text} (blank : Blank text) : dark text = [] := by
  refine List.filter_eq_nil_iff.mpr fun char member => ?_
  rw [blank char member]
  exact Bool.false_ne_true

theorem dark_trim (text : Text) : dark text.trim = dark text := by
  obtain ⟨before, after, left, right, same⟩ := Text.exists_trim text
  have whole := congrArg dark same
  rw [dark_append, dark_append, dark_of_blank left, dark_of_blank right, List.nil_append,
    List.append_nil] at whole
  exact whole.symm

@[simp] theorem dark_finish (text : Text) : dark (finish text) = dark text := by
  have joined : ∀ first rest : Text, dark (first ++ '\n' :: rest) = dark first ++ dark rest := by
    intro first rest
    rw [dark_append]
    refine congrArg _ (List.filter_cons_of_neg ?_)
    rw [isBlank_line_feed]
    exact Bool.false_ne_true
  have read := eq_flatMap_content (rfl : dark [] = []) joined dark_trim
  rw [read (finish text), content_finish, ← read text]

theorem count_dark {char : Char} (solid : isBlank char = false) (text : Text) :
    (dark text).count char = text.count char :=
  List.count_filter (by rw [solid]; rfl)

theorem count_finish {char : Char} (solid : isBlank char = false) (text : Text) :
    (finish text).count char = text.count char := by
  rw [← count_dark solid, dark_finish, count_dark solid]

theorem mem_of_mem_finish {text : Text} {char : Char} (member : char ∈ finish text) :
    char ∈ text ∨ char = '\n' := by
  have feeds : ∀ {other : Char}, other ∈ "\n\n".toList → other = '\n' := by
    intro other inside
    simpa using inside
  obtain ⟨before, after, _left, _right, same⟩ := Text.exists_trim (collapseBlankLines text)
  rcases List.mem_append.mp member with inside | last
  · have held : char ∈ collapseBlankLines text := by
      rw [same]
      exact List.mem_append_left _ (List.mem_append_right _ inside)
    rcases Pattern.mem_of_mem_replace held with kept | ⟨_stretch, _found, new⟩
    · rcases Pattern.mem_of_mem_replace kept with kept | ⟨_stretch, _found, new⟩
      · exact .inl kept
      · cases new
    · exact .inr (feeds new)
  · exact .inr (List.mem_singleton.mp last)

/-! ### Tidy texts -/

structure Level (text : Text) : Prop where
  bare : ∀ space, isSpaceOrTab space = true → ¬ [space, '\n'] <:+: text
  close : ¬ ['\n', '\n', '\n'] <:+: text

def Tidy (text : Text) : Prop :=
  ∃ inner, text = inner ++ ['\n'] ∧ Trimmed inner ∧ Level inner

private theorem bare_removed {before : Option Char} {text : Text} {pieces : List Piece}
    (cut : trailingSpace.Cut before text pieces) :
    let left := pieces.flatMap (Piece.replaced fun _ => [])
    (∀ space, isSpaceOrTab space = true → ¬ [space, '\n'] <:+: left) ∧
      (['\n'] <+: left → ∃ spaces rest,
        (∀ char ∈ spaces, isSpaceOrTab char = true) ∧ text = spaces ++ '\n' :: rest) := by
  induction cut with
  | done _none =>
      refine ⟨fun space _white inside => ?_, fun begins => ?_⟩
      · cases List.infix_nil.mp inside
      · cases List.prefix_nil.mp begins
  | @kept before char text pieces none cut ih =>
      obtain ⟨bare, begins⟩ := ih
      rw [List.flatMap_cons, Piece.replaced, List.singleton_append]
      refine ⟨?_, ?_⟩
      · intro space white inside
        rcases List.infix_cons_iff.mp inside with here | later
        · obtain ⟨rfl, next⟩ := List.cons_prefix_cons.mp here
          obtain ⟨spaces, rest, each, rfl⟩ := begins next
          have found : trailingSpace before ((space :: spaces) ++ '\n' :: rest) =
              some (space :: spaces).length :=
            trailingSpace_iff.mpr
              ⟨List.cons_ne_nil _ _, List.forall_mem_cons.mpr ⟨white, each⟩, rfl⟩
          rw [List.cons_append, none] at found
          cases found
        · exact bare space white later
      · intro starts
        obtain ⟨rfl, _next⟩ := List.cons_prefix_cons.mp starts
        exact ⟨[], text, nofun, rfl⟩
  | @found before stretch rest pieces _filled found _cut ih =>
      obtain ⟨bare, begins⟩ := ih
      obtain ⟨_some, spaces, _line⟩ := trailingSpace_iff.mp found
      rw [List.flatMap_cons, Piece.replaced, List.nil_append]
      refine ⟨bare, fun starts => ?_⟩
      obtain ⟨more, rest, each, rfl⟩ := begins starts
      refine ⟨stretch ++ more, rest, ?_, (List.append_assoc _ _ _).symm⟩
      intro char member
      rcases List.mem_append.mp member with early | late
      · exact spaces char early
      · exact each char late

private theorem close_replaced {before : Option Char} {text : Text} {pieces : List Piece}
    (cut : emptyLines.Cut before text pieces) :
    let left := pieces.flatMap (Piece.replaced fun _ => "\n\n")
    ¬ ['\n', '\n', '\n'] <:+: left ∧ (['\n'] <+: left → ['\n'] <+: text) ∧
      (['\n', '\n'] <+: left → ['\n', '\n'] <+: text) ∧
      ∀ space, isSpaceOrTab space = true → [space, '\n'] <:+: left → [space, '\n'] <:+: text := by
  -- Line feeds can meet only where a piece ends, so the induction carries how the text begins.
  induction cut with
  | done _none =>
      refine ⟨fun inside => ?_, id, id, fun _space _white => id⟩
      cases List.infix_nil.mp inside
  | @kept before char text pieces none _cut ih =>
      obtain ⟨close, one, two, bare⟩ := ih
      rw [List.flatMap_cons, Piece.replaced, List.singleton_append]
      refine ⟨?_, ?_, ?_, ?_⟩
      · intro inside
        rcases List.infix_cons_iff.mp inside with here | later
        · obtain ⟨rfl, next⟩ := List.cons_prefix_cons.mp here
          obtain ⟨rest, rfl⟩ := two next
          have found : ∃ length, emptyLines before ('\n' :: '\n' :: '\n' :: rest) = some length :=
            ⟨_, rfl⟩
          obtain ⟨length, found⟩ := found
          exact absurd (none.symm.trans found) nofun
        · exact close later
      · intro starts
        obtain ⟨rfl, _next⟩ := List.cons_prefix_cons.mp starts
        exact List.cons_prefix_cons.mpr ⟨rfl, List.nil_prefix⟩
      · intro starts
        obtain ⟨rfl, next⟩ := List.cons_prefix_cons.mp starts
        exact List.cons_prefix_cons.mpr ⟨rfl, one next⟩
      · intro space white inside
        rcases List.infix_cons_iff.mp inside with here | later
        · obtain ⟨rfl, next⟩ := List.cons_prefix_cons.mp here
          exact (List.cons_prefix_cons.mpr ⟨rfl, one next⟩).isInfix
        · exact List.infix_cons (bare space white later)
  | @found before stretch rest pieces _filled found _cut ih =>
      obtain ⟨close, one, _two, bare⟩ := ih
      obtain ⟨⟨more, _some, _feeds, rfl⟩, apart⟩ := emptyLines_iff.mp found
      have ends : ¬ ['\n'] <+: pieces.flatMap (Piece.replaced fun _ => "\n\n") := by
        intro starts
        obtain ⟨later, rfl⟩ := one starts
        exact apart rfl
      rw [List.flatMap_cons]
      change ¬ _ <:+: '\n' :: '\n' :: _ ∧ (_ <+: '\n' :: '\n' :: _ → _) ∧
        (_ <+: '\n' :: '\n' :: _ → _) ∧ ∀ space, _ → _ <:+: '\n' :: '\n' :: _ → _
      refine ⟨?_, fun _starts => List.cons_prefix_cons.mpr ⟨rfl, List.nil_prefix⟩,
        fun _starts => ⟨more ++ rest, rfl⟩, ?_⟩
      · intro inside
        rcases List.infix_cons_iff.mp inside with here | later
        · exact ends (List.cons_prefix_cons.mp (List.cons_prefix_cons.mp here).2).2
        · rcases List.infix_cons_iff.mp later with here | later
          · have pair := (List.cons_prefix_cons.mp here).2
            exact ends ((List.prefix_append ['\n'] ['\n']).trans pair)
          · exact close later
      · intro space white inside
        have other : space ≠ '\n' := fun same => by
          rw [same] at white
          exact absurd white (by decide)
        rcases List.infix_cons_iff.mp inside with here | later
        · exact absurd (List.cons_prefix_cons.mp here).1 other
        · rcases List.infix_cons_iff.mp later with here | later
          · exact absurd (List.cons_prefix_cons.mp here).1 other
          · exact (bare space white later).trans (List.suffix_append _ rest).isInfix

theorem level_collapseBlankLines (text : Text) : Level (collapseBlankLines text) := by
  obtain ⟨bare, _begins⟩ := bare_removed (Pattern.cut_pieces sound_trailingSpace text)
  obtain ⟨close, _one, _two, kept⟩ := close_replaced
    (Pattern.cut_pieces sound_emptyLines (trailingSpace.remove text))
  exact ⟨fun space white inside => bare space white (kept space white inside), close⟩

theorem Level.ofPart {inner text : Text} (level : Level text) (inside : inner <:+: text) :
    Level inner :=
  ⟨fun space white found => level.bare space white (found.trans inside),
    fun found => level.close (found.trans inside)⟩

theorem Level.concat {inner : Text} (level : Level inner) (trimmed : Trimmed inner) :
    Level (inner ++ ['\n']) := by
  have last : ∀ {char : Char}, isBlank char = true → ¬ [char] <:+ inner := by
    rintro char white ⟨front, rfl⟩
    have ends := trimmed.2
    rw [List.getLast?_concat] at ends
    exact absurd (white.symm.trans ends) nofun
  refine ⟨?_, ?_⟩
  · intro space white found
    rcases List.infix_concat_iff.mp found with ends | inside
    · have split : [space] ++ ['\n'] <:+ inner ++ ['\n'] := ends
      exact last (isBlank_of_isSpaceOrTab white)
        ((List.suffix_append_inj_of_length_eq rfl).mp split).1
    · exact level.bare space white inside
  · intro found
    rcases List.infix_concat_iff.mp found with ends | inside
    · have split : ['\n', '\n'] ++ ['\n'] <:+ inner ++ ['\n'] := ends
      obtain ⟨pair, _same⟩ := (List.suffix_append_inj_of_length_eq rfl).mp split
      exact last isBlank_line_feed ((List.suffix_cons '\n' ['\n']).trans pair)
    · exact level.close inside

theorem tidy_finish (text : Text) : Tidy (finish text) := by
  obtain ⟨before, after, _left, _right, same⟩ := Text.exists_trim (collapseBlankLines text)
  refine ⟨(collapseBlankLines text).trim, rfl, Text.trimmed_trim _, ?_⟩
  exact (level_collapseBlankLines text).ofPart ⟨before, after, same.symm⟩

private theorem absent_trailingSpace {text : Text} (level : Level text)
    (ends : text.getLast?.any isSpaceOrTab = false) : trailingSpace.Absent none text := by
  rintro front back rfl
  refine Option.eq_none_iff_forall_ne_some.mpr fun length found => ?_
  obtain ⟨stretch, rest, filled, rfl, rfl⟩ := sound_trailingSpace.split found
  obtain ⟨_some, spaces, line⟩ := trailingSpace_iff.mp found
  have white := spaces _ (List.getLast_mem filled)
  rcases line.cases with rfl | ⟨more, rfl⟩
  · rw [List.append_nil, List.getLast?_append_of_ne_nil _ filled,
      List.getLast?_eq_some_getLast filled] at ends
    exact absurd (white.symm.trans ends) nofun
  · refine level.bare _ white ⟨front ++ stretch.dropLast, more, ?_⟩
    have split : stretch.dropLast ++ [stretch.getLast filled] ++ '\n' :: more =
        stretch ++ '\n' :: more := by
      rw [List.dropLast_concat_getLast filled]
    rw [← split]
    simp only [List.append_assoc, List.cons_append, List.nil_append]

private theorem absent_emptyLines {text : Text} (level : Level text) :
    emptyLines.Absent none text := by
  rintro front back rfl
  refine Option.eq_none_iff_forall_ne_some.mpr fun length found => ?_
  obtain ⟨stretch, rest, _filled, rfl, rfl⟩ := sound_emptyLines.split found
  obtain ⟨⟨more, filled, feeds, rfl⟩, _apart⟩ := emptyLines_iff.mp found
  cases more with
  | nil => exact filled rfl
  | cons char more =>
      rw [feeds char List.mem_cons_self] at level
      exact level.close ⟨front, more ++ rest, by rw [List.append_assoc]; rfl⟩

theorem Tidy.finish_eq_self {text : Text} (tidy : Tidy text) : finish text = text := by
  obtain ⟨inner, rfl, trimmed, level⟩ := tidy
  have whole := level.concat trimmed
  have ends : (inner ++ ['\n']).getLast?.any isSpaceOrTab = false := by
    rw [List.getLast?_concat]
    exact (by decide : isSpaceOrTab '\n' = false)
  have closing : Blank ['\n'] := List.forall_mem_singleton.mpr isBlank_line_feed
  unfold finish collapseBlankLines Pattern.remove
  rw [Pattern.replace_eq_self_of_absent (absent_trailingSpace whole ends),
    Pattern.replace_eq_self_of_absent (absent_emptyLines whole),
    Text.trim_append_blank inner closing, Text.trim_eq_self trimmed]
  rfl

end Code
end ShaderBridge
