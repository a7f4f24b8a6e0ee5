import ShaderBridge.Proofs.Code.Reading
import ShaderBridge.Proofs.Code.Sentence
import ShaderBridge.Proofs.Text.Marks
set_option autoImplicit false

/-! What the removal of comments removes. The scanners of code find comments from left to right
(`commented`); the removal takes block comments first and line comments after that (`removed`). Both
mark the same characters exactly in the texts where every block comment is closed and no line comment
is disturbed by the removal of block comments in front of it (`removed_eq_commented_iff`). -/

namespace ShaderBridge
namespace Code

open Text (leave layered)

/-- Whether each character lies in a comment, the first `skip` of them in one that began before. -/
def commentedFrom : (skip : Nat) → Text → List Bool
  | _, [] => []
  | skip + 1, _ :: text => true :: commentedFrom skip text
  | 0, char :: text =>
    match commentLength (char :: text) with
    | more + 1 => true :: commentedFrom more text
    | 0 => false :: commentedFrom 0 text

def commented (text : Text) : List Bool := commentedFrom 0 text

/-- The characters of a text that lie in no comment. -/
def codeOf (text : Text) : Text := leave (commented text) text

/-- Which characters go when comments are removed: those of block comments, and those of the line
comments in what the block comments leave. -/
def removed (text : Text) : List Bool :=
  layered (blockComment.marks text) (lineComment.marks (blockComment.remove text))

/-- A text is empty, begins with a character of code, or begins with a comment. -/
@[elab_as_elim]
theorem comment_induction {motive : Text → Prop} (text : Text) (done : motive [])
    (code : ∀ char text, comment (char :: text) = none → motive text → motive (char :: text))
    (comment : ∀ stretch rest, comment (stretch ++ rest) = some rest → stretch ≠ [] → motive rest →
      motive (stretch ++ rest)) : motive text := by
  induction size : text.length using Nat.strongRecOn generalizing text with
  | ind size ih =>
      subst size
      cases text with
      | nil => exact done
      | cons char text =>
          cases found : Code.comment (char :: text) with
          | none => exact code char text found (ih _ (Nat.lt_succ_self _) text rfl)
          | some rest =>
              obtain ⟨stretch, same, filled, _long⟩ := comment_eq_some found
              rw [same] at found ih ⊢
              have positive := List.length_pos_iff.mpr filled
              refine comment stretch rest found filled (ih rest.length ?_ rest rfl)
              rw [List.length_append]
              omega

theorem commented_code {char : Char} {text : Text} (none : comment (char :: text) = none) :
    commented (char :: text) = false :: commented text := by
  unfold commented
  rw [commentedFrom, commentLength_of_none none]

private theorem commentedFrom_skip (stretch rest : Text) :
    commentedFrom stretch.length (stretch ++ rest) =
      List.replicate stretch.length true ++ commented rest := by
  induction stretch with
  | nil => rfl
  | cons char stretch ih => exact congrArg (true :: ·) ih

theorem commented_comment {stretch rest : Text} (found : comment (stretch ++ rest) = some rest)
    (filled : stretch ≠ []) :
    commented (stretch ++ rest) = List.replicate stretch.length true ++ commented rest := by
  obtain ⟨read, same, _filled, long⟩ := comment_eq_some found
  obtain rfl := List.append_cancel_right same
  cases stretch with
  | nil => exact absurd rfl filled
  | cons char stretch =>
      unfold commented
      rw [List.cons_append] at long ⊢
      rw [commentedFrom, long]
      exact congrArg (true :: ·) (commentedFrom_skip stretch rest)

theorem codeOf_code {char : Char} {text : Text} (none : comment (char :: text) = none) :
    codeOf (char :: text) = char :: codeOf text := by
  unfold codeOf
  rw [commented_code none]
  rfl

theorem codeOf_comment {stretch rest : Text} (found : comment (stretch ++ rest) = some rest)
    (filled : stretch ≠ []) : codeOf (stretch ++ rest) = codeOf rest := by
  unfold codeOf
  rw [commented_comment found filled, Text.leave_append List.length_replicate, Text.leave_all]
  rfl

/-- What lies in no comment holds none. -/
theorem uncommented_codeOf (text : Text) : Uncommented (codeOf text) := by
  induction text using comment_induction with
  | done => exact .nil
  | code char text none ih =>
      rw [codeOf_code none]
      refine List.isChain_cons.mpr ⟨?_, ih⟩
      rintro next first rfl
      -- the next character is no slash, so it is the next of the text as well
      obtain ⟨slash, star⟩ := comment_eq_none_iff.mp none rfl
      cases text with
      | nil => cases first
      | cons other text =>
          have plain : comment (other :: text) = Option.none :=
            comment_eq_none_iff.mpr fun same => absurd (congrArg some same) slash
          rw [codeOf_code plain] at first
          obtain rfl := Option.some.inj first
          exact ⟨fun same => slash (congrArg some same), fun same => star (congrArg some same)⟩
  | comment stretch rest found filled ih => rwa [codeOf_comment found filled]

/-- A block comment is closed by the first star with a slash behind it. -/
theorem closeBlock?_eq_some_iff {text rest : Text} :
    closeBlock? text = some rest ↔
      ∃ inner, text = inner ++ '*' :: '/' :: rest ∧ ¬ ['*', '/'] <:+: inner ++ ['*'] := by
  induction text using closeBlock?.induct with
  | case1 =>
      constructor
      · intro found
        cases found
      · rintro ⟨inner, same, _first⟩
        exact absurd same.symm (List.append_ne_nil_of_right_ne_nil inner (List.cons_ne_nil _ _))
  | case2 text =>
      constructor
      · intro found
        obtain rfl : text = rest := Option.some.inj found
        exact ⟨[], rfl, by decide⟩
      · rintro ⟨inner, same, first⟩
        cases inner with
        | nil => exact congrArg some (List.cons.inj (List.cons.inj same).2).2
        | cons char inner =>
            obtain ⟨rfl, later⟩ := List.cons.inj same
            cases inner with
            | nil => cases later
            | cons next inner =>
                obtain ⟨rfl, _later⟩ := List.cons.inj later
                exact absurd (List.prefix_append ['*', '/'] _).isInfix first
  | case3 char text other ih =>
      rw [closeBlock?.eq_3 char text other, ih]
      constructor
      · rintro ⟨inner, same, first⟩
        refine ⟨char :: inner, congrArg (char :: ·) same, fun earlier => ?_⟩
        rcases List.infix_cons_iff.mp earlier with here | later
        · obtain ⟨rfl, slash⟩ := List.cons_prefix_cons.mp here
          cases inner with
          | nil => exact absurd slash (by decide)
          | cons next inner =>
              obtain ⟨rfl, _rest⟩ := List.cons_prefix_cons.mp slash
              exact other _ rfl same
        · exact first later
      · rintro ⟨inner, same, first⟩
        cases inner with
        | nil =>
            obtain ⟨rfl, behind⟩ := List.cons.inj same
            exact absurd behind (other _ rfl)
        | cons next inner =>
            obtain ⟨rfl, behind⟩ := List.cons.inj same
            exact ⟨inner, behind, fun later => first (List.infix_cons later)⟩

theorem closeBlock?_append_iff {inner rest : Text} :
    closeBlock? (inner ++ rest) = some rest ↔ closeBlock? inner = some [] := by
  rw [closeBlock?_eq_some_iff, closeBlock?_eq_some_iff]
  refine exists_congr fun front => and_congr_left fun _first => ?_
  have whole : front ++ '*' :: '/' :: rest = front ++ ['*', '/'] ++ rest := by simp
  rw [whole]
  exact List.append_left_inj rest

theorem split_of_closeBlock? {text rest : Text} (closed : closeBlock? text = some rest) :
    ∃ inner, closeBlock? inner = some [] ∧ text = inner ++ rest := by
  obtain ⟨inner, same, _first⟩ := closeBlock?_eq_some_iff.mp closed
  have split : text = (inner ++ ['*', '/']) ++ rest := by simpa using same
  subst split
  exact ⟨inner ++ ['*', '/'], closeBlock?_append_iff.mp closed, rfl⟩

theorem closeBlock_of_closeBlock? {text rest : Text} (closed : closeBlock? text = some rest) :
    closeBlock text = some rest := by
  obtain ⟨inner, whole, rfl⟩ := split_of_closeBlock? closed
  exact closeBlock_of_closed whole rest

theorem readBlock_eq_some_iff {text rest : Text} :
    (Scan.literal ['/', '*'] >=> closeBlock?) text = some rest ↔
      ∃ inner, closeBlock? inner = some [] ∧ text = '/' :: '*' :: (inner ++ rest) := by
  constructor
  · intro read
    obtain ⟨between, opened, closed⟩ := Scan.andThen_eq_some_iff.mp read
    obtain ⟨inner, whole, rfl⟩ := split_of_closeBlock? closed
    exact ⟨inner, whole, Scan.literal_eq_some_iff.mp opened⟩
  · rintro ⟨inner, closed, rfl⟩
    exact Scan.andThen_eq_some_iff.mpr
      ⟨inner ++ rest, Scan.literal_eq_some_iff.mpr rfl, closeBlock?_append_iff.mpr closed⟩

theorem consumes_readBlock : Scan.Consumes (Scan.literal ['/', '*'] >=> closeBlock?) := by
  intro text rest read
  obtain ⟨inner, _closed, same⟩ := readBlock_eq_some_iff.mp read
  exact ⟨'/' :: '*' :: inner, List.cons_ne_nil _ _, same⟩

theorem local_readBlock : Scan.Local (Scan.literal ['/', '*'] >=> closeBlock?) := by
  intro front rest left
  rw [readBlock_eq_some_iff, readBlock_eq_some_iff]
  refine exists_congr fun inner => and_congr_right fun _closed => ?_
  have whole : '/' :: '*' :: (inner ++ (left ++ rest)) = '/' :: '*' :: (inner ++ left) ++ rest := by
    simp
  rw [whole]
  exact List.append_left_inj rest

/-- The block comments that begin in a line comment end in it, and without them it is a line comment
still. -/
def Undisturbed (line rest : Text) : Prop :=
  blockComment.pieces (line ++ rest) = blockComment.pieces line ++ blockComment.pieces rest ∧
    ['/', '/'] <+: blockComment.remove line

/-- Every block comment is closed, and no line comment is disturbed by the removal of block
comments. -/
inductive Orderly : Text → Prop where
  | done : Orderly []
  | code {char : Char} {text : Text} : comment (char :: text) = none → Orderly text →
      Orderly (char :: text)
  | block {inner rest : Text} : closeBlock? inner = some [] → Orderly rest →
      Orderly ('/' :: '*' :: (inner ++ rest))
  | line {words rest : Text} : '\n' ∉ words → (∀ char ∈ rest.head?, char = '\n') →
      Undisturbed ('/' :: '/' :: words) rest → Orderly rest →
        Orderly ('/' :: '/' :: (words ++ rest))

theorem leave_removed (text : Text) : leave (removed text) text = stripComments text := by
  unfold removed stripComments
  rw [Text.leave_layered (Pattern.length_marks _ _) (by rw [Pattern.length_marks, Pattern.count_marks]),
    Pattern.leave_marks, Pattern.leave_marks]

/-- A character stays where no block comment begins and, those removed, no line comment either. -/
theorem removed_cons {char : Char} {text : Text}
    (block : blockComment.pieces (char :: text) = .kept char :: blockComment.pieces text)
    (single : char = '/' → (blockComment.remove text).head? ≠ some '/') :
    removed (char :: text) = false :: removed text := by
  have marks : blockComment.marks (char :: text) = false :: blockComment.marks text :=
    congrArg (List.flatMap _) block
  have left : blockComment.remove (char :: text) = char :: blockComment.remove text :=
    congrArg Pattern.remains block
  have line : lineComment.marks (char :: blockComment.remove text) =
      false :: lineComment.marks (blockComment.remove text) :=
    congrArg (List.flatMap _) (lineComment_pieces_cons single)
  unfold removed
  rw [left, marks, line]
  rfl

theorem removed_code {char : Char} {text : Text} (none : comment (char :: text) = none) :
    removed (char :: text) = false :: removed text :=
  removed_cons (blockComment_pieces_cons fun slash => (comment_eq_none_iff.mp none slash).2)
    (head_remove_blockComment none)

theorem removed_unclosed {text : Text} (unclosed : closeBlock? text = none) :
    removed ('/' :: '*' :: text) = false :: removed ('*' :: text) := by
  refine removed_cons (Pattern.pieces_anywhere_cons unclosed) fun _slash => ?_
  rw [remove_blockComment_cons fun same => absurd same (by decide)]
  exact nofun

theorem removed_block {inner : Text} (closed : closeBlock? inner = some []) (rest : Text) :
    removed ('/' :: '*' :: (inner ++ rest)) =
      List.replicate ('/' :: '*' :: inner).length true ++ removed rest := by
  have read : (Scan.literal ['/', '*'] >=> closeBlock?) ('/' :: '*' :: inner ++ rest) = some rest :=
    readBlock_eq_some_iff.mpr ⟨inner, closed, rfl⟩
  have pieces : blockComment.pieces ('/' :: '*' :: (inner ++ rest)) =
      .found ('/' :: '*' :: inner) :: blockComment.pieces rest :=
    Pattern.pieces_anywhere_append (List.cons_ne_nil _ _) read
  have marks : blockComment.marks ('/' :: '*' :: (inner ++ rest)) =
      List.replicate ('/' :: '*' :: inner).length true ++ blockComment.marks rest :=
    congrArg (List.flatMap _) pieces
  have left : blockComment.remove ('/' :: '*' :: (inner ++ rest)) = blockComment.remove rest := by
    rw [Pattern.remove_eq_remains, pieces]
    rfl
  unfold removed
  rw [marks, left]
  exact Text.layered_append_taken _ _ _

theorem comment_line_append {words rest : Text} (flat : '\n' ∉ words)
    (ends : ∀ char ∈ rest.head?, char = '\n') :
    comment ('/' :: '/' :: words ++ rest) = some rest := by
  refine Scan.zeroOrMore_eq_some_iff.mpr ⟨words, fun char member => ?_, rfl, ?_⟩
  · exact bne_iff_ne.mpr fun same => flat (same ▸ member)
  · cases rest with
    | nil => rfl
    | cons char rest => exact bne_eq_false_iff_eq.mpr (ends char rfl)

section
variable {words rest : Text} (flat : '\n' ∉ words) (ends : ∀ char ∈ rest.head?, char = '\n')

include ends in
theorem head_remove_behind : ∀ char ∈ (blockComment.remove rest).head?, char = '\n' := by
  cases rest with
  | nil => exact nofun
  | cons char rest =>
      obtain rfl := ends char rfl
      rw [remove_blockComment_cons fun same => absurd same (by decide)]
      intro char same
      exact (Option.some.inj same).symm

include flat ends in
theorem removed_line (undisturbed : Undisturbed ('/' :: '/' :: words) rest) :
    removed ('/' :: '/' :: (words ++ rest)) =
      List.replicate ('/' :: '/' :: words).length true ++ removed rest := by
  obtain ⟨pieces, more, left⟩ := undisturbed
  have marks : blockComment.marks ('/' :: '/' :: (words ++ rest)) =
      blockComment.marks ('/' :: '/' :: words) ++ blockComment.marks rest :=
    (congrArg (List.flatMap _) pieces).trans List.flatMap_append
  have remains : blockComment.remove ('/' :: '/' :: (words ++ rest)) =
      blockComment.remove ('/' :: '/' :: words) ++ blockComment.remove rest :=
    (congrArg Pattern.remains pieces).trans List.flatMap_append
  have plain : '\n' ∉ more := by
    intro member
    have held : '\n' ∈ blockComment.remove ('/' :: '/' :: words) :=
      left ▸ List.mem_append_right ['/', '/'] member
    rcases Pattern.mem_of_mem_replace held with within | ⟨_stretch, _found, new⟩
    · exact flat (by simpa using within)
    · cases new
  have read : (Scan.literal ['/', '/'] >=> Scan.restOfLine)
      (blockComment.remove ('/' :: '/' :: words) ++ blockComment.remove rest) =
        some (blockComment.remove rest) := by
    rw [← left]
    exact comment_line_append plain (head_remove_behind ends)
  have line : lineComment.marks (blockComment.remove ('/' :: '/' :: words) ++ blockComment.remove rest) =
      List.replicate (blockComment.remove ('/' :: '/' :: words)).length true ++
        lineComment.marks (blockComment.remove rest) :=
    congrArg (List.flatMap _) (Pattern.pieces_anywhere_append (left ▸ List.cons_ne_nil _ _) read)
  unfold removed
  rw [marks, remains, line, ← Pattern.count_marks,
    Text.layered_append List.length_replicate, Text.layered_all, Pattern.length_marks]

include ends in
/-- Where a block comment reaches out of the line, the line feed behind it goes too. -/
theorem pieces_of_removed
    (removes : removed ('/' :: '/' :: (words ++ rest)) =
      List.replicate ('/' :: '/' :: words).length true ++ commented rest) :
    blockComment.pieces ('/' :: '/' :: words ++ rest) =
      blockComment.pieces ('/' :: '/' :: words) ++ blockComment.pieces rest := by
  refine (Pattern.pieces_append_or consumes_readBlock local_readBlock ('/' :: '/' :: words)
    rest).resolve_right fun marked => ?_
  have taken : (removed ('/' :: '/' :: words ++ rest))[('/' :: '/' :: words).length]? = some true :=
    Text.layered_getElem?_of_first _ marked
  have whole : removed ('/' :: '/' :: words ++ rest) =
      List.replicate ('/' :: '/' :: words).length true ++ commented rest := removes
  rw [whole, List.getElem?_append_right (List.length_replicate ▸ Nat.le_refl _),
    List.length_replicate, Nat.sub_self] at taken
  cases rest with
  | nil => cases taken
  | cons char rest =>
      obtain rfl := ends char rfl
      rw [commented_code (comment_of_blank (by decide) rest)] at taken
      cases taken

include ends in
/-- Where the second slash goes with a block comment, the first one stays. -/
theorem removed_of_short
    (split : blockComment.pieces ('/' :: '/' :: words ++ rest) =
      blockComment.pieces ('/' :: '/' :: words) ++ blockComment.pieces rest)
    (short : ¬ ['/', '/'] <+: blockComment.remove ('/' :: '/' :: words)) :
    removed ('/' :: '/' :: (words ++ rest)) = false :: removed ('/' :: (words ++ rest)) := by
  have kept : ∀ others : Text, blockComment.pieces ('/' :: '/' :: others) =
      .kept '/' :: blockComment.pieces ('/' :: others) :=
    fun others => blockComment_pieces_cons fun _slash => by simp
  have remains : blockComment.remove ('/' :: (words ++ rest)) =
      blockComment.remove ('/' :: words) ++ blockComment.remove rest := by
    rw [List.cons_append, List.cons_append, kept, kept] at split
    exact (congrArg Pattern.remains (List.cons.inj split).2).trans List.flatMap_append
  refine removed_cons (kept _) fun _slash slash => ?_
  rw [remains] at slash
  rw [remove_blockComment_cons fun _slash => by simp] at short
  cases first : blockComment.remove ('/' :: words) with
  | nil =>
      rw [first] at slash
      exact absurd (head_remove_behind ends '/' slash) (by decide)
  | cons char more =>
      rw [first] at slash short
      obtain rfl := Option.some.inj slash
      exact short (List.prefix_append ['/', '/'] more)

include ends in
theorem undisturbed_of_removed
    (removes : removed ('/' :: '/' :: (words ++ rest)) =
      List.replicate ('/' :: '/' :: words).length true ++ commented rest) :
    Undisturbed ('/' :: '/' :: words) rest := by
  have split := pieces_of_removed ends removes
  refine ⟨split, ?_⟩
  by_contra short
  rw [removed_of_short ends split short] at removes
  exact absurd (List.cons.inj removes).1 nofun

end

theorem Orderly.removed_eq_commented {text : Text} (orderly : Orderly text) :
    removed text = commented text := by
  induction orderly with
  | done => decide
  | code none _orderly ih => rw [removed_code none, commented_code none, ih]
  | @block inner rest closed _orderly ih =>
      rw [removed_block closed, ih]
      have found : comment ('/' :: '*' :: inner ++ rest) = some rest := closeBlock_of_closed closed rest
      exact (commented_comment found (List.cons_ne_nil _ _)).symm
  | line flat ends undisturbed _orderly ih =>
      rw [removed_line flat ends undisturbed, ih]
      exact (commented_comment (comment_line_append flat ends) (List.cons_ne_nil _ _)).symm

theorem orderly_of_removed_eq_commented {text : Text} (same : removed text = commented text) :
    Orderly text := by
  induction text using comment_induction with
  | done => exact .done
  | code char text none ih =>
      rw [removed_code none, commented_code none] at same
      exact .code none (ih (List.cons.inj same).2)
  | comment stretch rest found filled ih =>
      rw [commented_comment found filled] at same
      rcases comment_cases found with ⟨words, rfl, flat, ends⟩ | ⟨inner, rfl, closes⟩
      · have undisturbed := undisturbed_of_removed ends same
        rw [List.cons_append, List.cons_append, removed_line flat ends undisturbed] at same
        exact .line flat ends undisturbed (ih (List.append_cancel_left same))
      · have closed : closeBlock? inner = some [] := by
          cases known : closeBlock? (inner ++ rest) with
          | none =>
              rw [List.cons_append, List.cons_append, removed_unclosed known] at same
              exact absurd (List.cons.inj same).1 nofun
          | some left =>
              obtain rfl : left = rest :=
                Option.some.inj ((closeBlock_of_closeBlock? known).symm.trans closes)
              exact closeBlock?_append_iff.mp known
        rw [List.cons_append, List.cons_append, removed_block closed] at same
        exact .block closed (ih (List.append_cancel_left same))

theorem removed_eq_commented_iff (text : Text) : removed text = commented text ↔ Orderly text :=
  ⟨orderly_of_removed_eq_commented, Orderly.removed_eq_commented⟩

instance (text : Text) : Decidable (Orderly text) :=
  decidable_of_iff (removed text = commented text) (removed_eq_commented_iff text)

/-- Which characters of a text go when its comments are removed: just those that lie in a comment,
exactly if the comments of the text keep apart. Then the code is left, and there is nothing more to
remove. -/
theorem stripComments_leaves_code_iff (text : Text) :
    leave (removed text) text = stripComments text ∧
      (removed text = commented text ↔ Orderly text) ∧
      (Orderly text → stripComments text = codeOf text ∧
        stripComments (stripComments text) = stripComments text) := by
  refine ⟨leave_removed text, removed_eq_commented_iff text, fun orderly => ?_⟩
  have code : stripComments text = codeOf text := by
    rw [← leave_removed, orderly.removed_eq_commented]
    rfl
  refine ⟨code, ?_⟩
  rw [code]
  exact (uncommented_codeOf text).stripComments_eq_self

theorem stripComments_leaves_code_of_nested_openers :
    Orderly "a; // b /* c */ d\n/* e // f */ g;".toList ∧
      stripComments "a; // b /* c */ d\n/* e // f */ g;".toList = "a; \n g;".toList ∧
      stripComments (stripComments "a; // b /* c */ d\n/* e // f */ g;".toList) = "a; \n g;".toList := by
  have orderly : Orderly "a; // b /* c */ d\n/* e // f */ g;".toList :=
    (stripComments_leaves_code_iff _).2.1.mp (by decide)
  obtain ⟨code, again⟩ := (stripComments_leaves_code_iff _).2.2 orderly
  have left : codeOf "a; // b /* c */ d\n/* e // f */ g;".toList = "a; \n g;".toList := by decide
  exact ⟨orderly, code.trans left, again.trans (code.trans left)⟩

/-- A block comment that seems to begin in a line comment takes the code up to its end with it. -/
example : stripComments "// a /* b\nx;\n/* c */ y".toList = [] ∧
    codeOf "// a /* b\nx;\n/* c */ y".toList = "\nx;\n y".toList := by decide

end Code
end ShaderBridge
