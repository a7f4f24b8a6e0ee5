import Mathlib.Algebra.Order.BigOperators.Group.List
import Mathlib.Algebra.Order.Group.Nat
import Mathlib.Data.List.TakeWhile
import ShaderBridge.Proofs.Text.Trim
import ShaderBridge.Text.Pattern
set_option autoImplicit false

/-! What a scan reads, and how a pattern cuts a text. `Cut` describes the pieces of a text from
left to right, each with what follows it; `cut_pieces` says that the pieces of every pattern whose
matches are real stretches of the text are described so. Replacement and removal are read off it. -/

namespace ShaderBridge

namespace Text

theorem getLast?_cons_or (char : Char) (front : Text) (before : Option Char) :
    (char :: front).getLast?.or before = front.getLast?.or (some char) := by
  rw [List.getLast?_cons]
  cases front.getLast? <;> rfl

theorem getLast?_append_or {stretch : Text} (filled : stretch ≠ []) (front : Text)
    (before : Option Char) :
    (stretch ++ front).getLast?.or before = front.getLast?.or stretch.getLast? := by
  rw [List.getLast?_append, List.getLast?_eq_some_getLast filled]
  cases front.getLast? <;> rfl

theorem getLast?_append_cons_or (front : Text) (char : Char) (rest : Text) (before : Option Char) :
    (front ++ char :: rest).getLast?.or before = rest.getLast?.or (some char) := by
  rw [List.append_cons, getLast?_append_or (List.append_ne_nil_of_right_ne_nil _ (List.cons_ne_nil _ _)),
    List.getLast?_concat]

end Text

namespace Scan

def Sound (scan : Scan) : Prop := ∀ text rest, scan text = some rest → rest <:+ text

def Consumes (scan : Scan) : Prop :=
  ∀ text rest, scan text = some rest → ∃ read, read ≠ [] ∧ text = read ++ rest

theorem andThen_eq_some_iff {first second : Scan} {text rest : Text} :
    (first >=> second) text = some rest ↔
      ∃ between, first text = some between ∧ second between = some rest :=
  Option.bind_eq_some_iff

theorem Consumes.sound {scan : Scan} (consumes : scan.Consumes) : scan.Sound := by
  intro text rest found
  obtain ⟨read, _filled, rfl⟩ := consumes text rest found
  exact List.suffix_append read rest

theorem Sound.andThen {first second : Scan} (before : first.Sound) (after : second.Sound) :
    Sound (first >=> second) := by
  intro text rest found
  obtain ⟨between, left, right⟩ := andThen_eq_some_iff.mp found
  exact (after between rest right).trans (before text between left)

theorem Consumes.andThen {first second : Scan} (before : first.Consumes) (after : second.Sound) :
    Consumes (first >=> second) := by
  intro text rest found
  obtain ⟨between, left, right⟩ := andThen_eq_some_iff.mp found
  obtain ⟨read, filled, rfl⟩ := before text between left
  obtain ⟨more, rfl⟩ := after between rest right
  exact ⟨read ++ more, List.append_ne_nil_of_left_ne_nil filled more, by rw [List.append_assoc]⟩

theorem Sound.andThen_consumes {first second : Scan} (before : first.Sound)
    (after : second.Consumes) : Consumes (first >=> second) := by
  intro text rest found
  obtain ⟨between, left, right⟩ := andThen_eq_some_iff.mp found
  obtain ⟨read, rfl⟩ := before text between left
  obtain ⟨more, filled, rfl⟩ := after between rest right
  exact ⟨read ++ more, List.append_ne_nil_of_right_ne_nil read filled, by rw [List.append_assoc]⟩

theorem literal_eq_some_iff {expected text rest : Text} :
    literal expected text = some rest ↔ text = expected ++ rest := Text.after?_eq_some_iff

theorem sound_literal (expected : Text) : Sound (literal expected) := by
  intro text rest found
  rw [literal_eq_some_iff.mp found]
  exact List.suffix_append expected rest

theorem consumes_literal {expected : Text} (filled : expected ≠ []) :
    Consumes (literal expected) := by
  intro text rest found
  exact ⟨expected, filled, literal_eq_some_iff.mp found⟩

theorem sound_zeroOrMore (inClass : Char → Bool) : Sound (zeroOrMore inClass) := by
  intro text rest found
  cases found
  exact List.dropWhile_suffix inClass

/-- The scan reads the stretch of characters of the class that stands in front, all of it. -/
theorem zeroOrMore_eq_some_iff {inClass : Char → Bool} {text rest : Text} :
    zeroOrMore inClass text = some rest ↔
      ∃ stretch, (∀ char ∈ stretch, inClass char = true) ∧ text = stretch ++ rest ∧
        rest.head?.any inClass = false := by
  constructor
  · intro found
    cases found
    refine ⟨text.takeWhile inClass, fun char member => List.mem_takeWhile_imp member,
      List.takeWhile_append_dropWhile.symm, ?_⟩
    have outside := List.head?_dropWhile_not inClass text
    cases first : (text.dropWhile inClass).head? with
    | none => rfl
    | some char =>
        rw [first] at outside
        exact outside
  · rintro ⟨stretch, members, rfl, outside⟩
    refine congrArg some ((List.dropWhile_append_of_pos members).trans ?_)
    cases rest with
    | nil => rfl
    | cons char rest => exact List.dropWhile_cons_of_neg (Bool.eq_false_iff.mp outside)

theorem oneOrMore_eq_some_iff {inClass : Char → Bool} {text rest : Text} :
    oneOrMore inClass text = some rest ↔
      ∃ stretch, stretch ≠ [] ∧ (∀ char ∈ stretch, inClass char = true) ∧
        text = stretch ++ rest ∧ rest.head?.any inClass = false := by
  constructor
  · intro found
    cases text with
    | nil => cases found
    | cons char text =>
        obtain ⟨member, same⟩ := Option.ite_none_right_eq_some.mp found
        obtain ⟨stretch, members, rfl, outside⟩ :=
          zeroOrMore_eq_some_iff.mp (show zeroOrMore inClass text = some rest from same)
        exact ⟨char :: stretch, List.cons_ne_nil _ _, List.forall_mem_cons.mpr ⟨member, members⟩,
          rfl, outside⟩
  · rintro ⟨stretch, filled, members, rfl, outside⟩
    cases stretch with
    | nil => exact absurd rfl filled
    | cons char stretch =>
        obtain ⟨member, members⟩ := List.forall_mem_cons.mp members
        exact (if_pos member).trans
          (zeroOrMore_eq_some_iff.mpr ⟨stretch, members, rfl, outside⟩)

theorem consumes_oneOrMore (inClass : Char → Bool) : Consumes (oneOrMore inClass) := by
  intro text rest found
  obtain ⟨stretch, filled, _members, same, _outside⟩ := oneOrMore_eq_some_iff.mp found
  exact ⟨stretch, filled, same⟩

theorem sound_blanks : Sound blanks := sound_zeroOrMore isBlank

theorem blanks_literal_eq_some_iff {mark : Char} (dark : isBlank mark = false) {text rest : Text} :
    (blanks >=> literal [mark]) text = some rest ↔
      ∃ gap, Text.Blank gap ∧ text = gap ++ mark :: rest := by
  constructor
  · intro found
    obtain ⟨between, white, closed⟩ := andThen_eq_some_iff.mp found
    obtain ⟨gap, blank, rfl, _dark⟩ := zeroOrMore_eq_some_iff.mp white
    exact ⟨gap, blank, by rw [literal_eq_some_iff.mp closed]; rfl⟩
  · rintro ⟨gap, blank, rfl⟩
    exact andThen_eq_some_iff.mpr ⟨mark :: rest,
      zeroOrMore_eq_some_iff.mpr ⟨gap, blank, rfl, dark⟩, literal_eq_some_iff.mpr rfl⟩

theorem sound_restOfLine : Sound restOfLine := sound_zeroOrMore (· != '\n')

theorem sound_optional {scan : Scan} (sound : scan.Sound) : Sound (optional scan) := by
  intro text rest found
  cases read : scan text with
  | none =>
      simp only [optional, read, Option.getD_none, Option.some.injEq] at found
      exact found ▸ List.suffix_refl text
  | some left =>
      simp only [optional, read, Option.getD_some, Option.some.injEq] at found
      rw [← found]
      exact sound text left read

theorem orElse_eq_some {first second : Scan} {text rest : Text}
    (found : orElse first second text = some rest) :
    first text = some rest ∨ second text = some rest := by
  unfold orElse at found
  cases read : first text with
  | none =>
      rw [read] at found
      exact .inr found
  | some left =>
      rw [read] at found
      exact .inl found

theorem consumes_orElse {first second : Scan} (left : first.Consumes) (right : second.Consumes) :
    Consumes (orElse first second) := by
  intro text rest found
  rcases orElse_eq_some found with read | read
  · exact left text rest read
  · exact right text rest read

theorem notBefore_eq_some_iff {scan : Scan} {text rest : Text} :
    notBefore scan text = some rest ↔ rest = text ∧ scan text = none := by
  unfold notBefore
  cases read : scan text with
  | none => simp [eq_comm]
  | some left => simp

theorem sound_notBefore (scan : Scan) : Sound (notBefore scan) := by
  intro text rest found
  exact (notBefore_eq_some_iff.mp found).1 ▸ List.suffix_refl text

theorem endOf_eq_some_iff {inClass : Char → Bool} {text rest : Text} :
    endOf inClass text = some rest ↔ rest = text ∧ text.head?.any inClass = false := by
  cases text with
  | nil => simp [endOf, eq_comm]
  | cons char text =>
      by_cases member : inClass char = true
      · simp [endOf, member]
      · simp [endOf, member, eq_comm]

theorem sound_endOf (inClass : Char → Bool) : Sound (endOf inClass) := by
  intro text rest found
  exact (endOf_eq_some_iff.mp found).1 ▸ List.suffix_refl text

theorem sound_wordEnd : Sound wordEnd := sound_endOf isWord

def EndsIn (inClass : Char → Prop) (scan : Scan) : Prop :=
  ∀ text rest, scan text = some rest → ∃ front char, text = front ++ char :: rest ∧ inClass char

section
variable {inClass : Char → Prop}

theorem Sound.andThen_endsIn {first second : Scan} (before : first.Sound)
    (after : second.EndsIn inClass) : EndsIn inClass (first >=> second) := by
  intro text rest found
  obtain ⟨between, left, right⟩ := andThen_eq_some_iff.mp found
  obtain ⟨read, rfl⟩ := before text between left
  obtain ⟨front, char, rfl, last⟩ := after between rest right
  exact ⟨read ++ front, char, by rw [List.append_assoc], last⟩

theorem EndsIn.andThen_notBefore {first : Scan} (ends : first.EndsIn inClass) (after : Scan) :
    EndsIn inClass (first >=> notBefore after) := by
  intro text rest found
  obtain ⟨between, left, right⟩ := andThen_eq_some_iff.mp found
  rw [(notBefore_eq_some_iff.mp right).1]
  exact ends text between left

theorem EndsIn.orElse {first second : Scan} (left : first.EndsIn inClass)
    (right : second.EndsIn inClass) : EndsIn inClass (orElse first second) := by
  intro text rest found
  rcases orElse_eq_some found with read | read
  · exact left text rest read
  · exact right text rest read

theorem endsIn_literal {expected : Text} {front : Text} {char : Char}
    (ends : expected = front ++ [char]) (last : inClass char) : EndsIn inClass (literal expected) := by
  intro text rest found
  refine ⟨front, char, ?_, last⟩
  rw [literal_eq_some_iff.mp found, ends, List.append_assoc]
  rfl

theorem endsIn_oneOrMore {other : Char → Bool} (members : ∀ char, other char = true → inClass char) :
    EndsIn inClass (oneOrMore other) := by
  intro text rest found
  obtain ⟨stretch, filled, each, rfl, _outside⟩ := oneOrMore_eq_some_iff.mp found
  refine ⟨stretch.dropLast, stretch.getLast filled, ?_, members _ (each _ (List.getLast_mem filled))⟩
  rw [List.append_cons, List.dropLast_concat_getLast]

end

def Within (inClass : Char → Prop) (scan : Scan) : Prop :=
  ∀ text rest, scan text = some rest → ∃ read, (∀ char ∈ read, inClass char) ∧ text = read ++ rest

section
variable {inClass : Char → Prop}

theorem Within.andThen {first second : Scan} (before : first.Within inClass)
    (after : second.Within inClass) : Within inClass (first >=> second) := by
  intro text rest found
  obtain ⟨between, left, right⟩ := andThen_eq_some_iff.mp found
  obtain ⟨read, early, rfl⟩ := before text between left
  obtain ⟨more, late, rfl⟩ := after between rest right
  refine ⟨read ++ more, ?_, by rw [List.append_assoc]⟩
  intro char member
  rcases List.mem_append.mp member with here | there
  · exact early char here
  · exact late char there

theorem within_literal {expected : Text} (members : ∀ char ∈ expected, inClass char) :
    Within inClass (literal expected) := by
  intro text rest found
  exact ⟨expected, members, literal_eq_some_iff.mp found⟩

theorem within_zeroOrMore {other : Char → Bool} (members : ∀ char, other char = true → inClass char) :
    Within inClass (zeroOrMore other) := by
  intro text rest found
  obtain ⟨stretch, each, same, _outside⟩ := zeroOrMore_eq_some_iff.mp found
  exact ⟨stretch, fun char member => members char (each char member), same⟩

theorem within_oneOrMore {other : Char → Bool} (members : ∀ char, other char = true → inClass char) :
    Within inClass (oneOrMore other) := by
  intro text rest found
  obtain ⟨stretch, _filled, each, same, _outside⟩ := oneOrMore_eq_some_iff.mp found
  exact ⟨stretch, fun char member => members char (each char member), same⟩

theorem within_notBefore (scan : Scan) : Within inClass (notBefore scan) := by
  intro text rest found
  exact ⟨[], nofun, (notBefore_eq_some_iff.mp found).1.symm⟩

theorem Within.optional {scan : Scan} (within : scan.Within inClass) :
    Within inClass (optional scan) := by
  intro text rest found
  cases read : scan text with
  | none =>
      simp only [Scan.optional, read, Option.getD_none, Option.some.injEq] at found
      exact ⟨[], nofun, found⟩
  | some left =>
      simp only [Scan.optional, read, Option.getD_some, Option.some.injEq] at found
      rw [← found]
      exact within text left read

theorem Within.orElse {first second : Scan} (left : first.Within inClass)
    (right : second.Within inClass) : Within inClass (orElse first second) := by
  intro text rest found
  rcases orElse_eq_some found with read | read
  · exact left text rest read
  · exact right text rest read

end

end Scan

def Piece.replaced (new : Text → Text) : Piece → Text
  | .found text => new text
  | .kept char => [char]

namespace Pattern

def Sound (pattern : Pattern) : Prop :=
  ∀ before text length, pattern before text = some length → 0 < length ∧ length ≤ text.length

theorem Sound.split {pattern : Pattern} (sound : pattern.Sound) {before : Option Char} {text : Text}
    {length : Nat} (found : pattern before text = some length) :
    ∃ stretch rest, stretch ≠ [] ∧ text = stretch ++ rest ∧ length = stretch.length := by
  obtain ⟨positive, within⟩ := sound before text length found
  have long : (text.take length).length = length := List.length_take_of_le within
  exact ⟨text.take length, text.drop length, List.ne_nil_of_length_pos (by omega),
    (List.take_append_drop length text).symm, long.symm⟩

theorem notAfter_eq_some_iff {inClass : Char → Bool} {scan : Scan} {before : Option Char}
    {text : Text} {length : Nat} :
    scan.notAfter inClass before text = some length ↔
      before.any inClass = false ∧ ∃ rest, scan text = some rest ∧
        length = text.length - rest.length := by
  unfold Scan.notAfter Scan.anywhere
  by_cases inside : before.any inClass = true
  · simp [inside]
  · have outside := Bool.eq_false_iff.mpr inside
    rw [if_neg inside, Option.map_eq_some_iff]
    constructor
    · rintro ⟨rest, read, same⟩
      exact ⟨outside, rest, read, same.symm⟩
    · rintro ⟨_outside, rest, read, same⟩
      exact ⟨rest, read, same.symm⟩

theorem sound_notAfter (inClass : Char → Bool) {scan : Scan} (consumes : scan.Consumes) :
    (scan.notAfter inClass).Sound := by
  intro before text length found
  obtain ⟨_outside, rest, read, rfl⟩ := notAfter_eq_some_iff.mp found
  obtain ⟨stretch, filled, rfl⟩ := consumes text rest read
  have positive := List.length_pos_iff.mpr filled
  rw [List.length_append]
  omega

/-- A match stands where the scan reads just the matched stretch. -/
theorem notAfter_append_eq_some_iff {inClass : Char → Bool} {scan : Scan} (sound : scan.Sound)
    {before : Option Char} {stretch rest : Text} :
    scan.notAfter inClass before (stretch ++ rest) = some stretch.length ↔
      before.any inClass = false ∧ scan (stretch ++ rest) = some rest := by
  rw [notAfter_eq_some_iff]
  refine and_congr_right fun _outside => ?_
  constructor
  · rintro ⟨left, read, long⟩
    have behind := sound _ _ read
    have short := behind.length_le
    rw [List.length_append] at long short
    rw [read, (List.suffix_of_suffix_length_le behind (List.suffix_append stretch rest)
      (by omega)).eq_of_length (by omega)]
  · intro read
    exact ⟨rest, read, by rw [List.length_append, Nat.add_sub_cancel_right]⟩

theorem anywhere_eq_notAfter (scan : Scan) :
    scan.anywhere = scan.notAfter fun _ => false := by
  funext before text
  unfold Scan.notAfter
  cases before <;> rfl

theorem within_of_matched {inClass : Char → Bool} {scan : Scan} (sound : scan.Sound)
    {others : Char → Prop} (within : scan.Within others) {before : Option Char}
    {stretch rest : Text}
    (found : scan.notAfter inClass before (stretch ++ rest) = some stretch.length) :
    ∀ char ∈ stretch, others char := by
  obtain ⟨_outside, read⟩ := (notAfter_append_eq_some_iff sound).mp found
  obtain ⟨same, members, split⟩ := within _ _ read
  rw [List.append_cancel_right split]
  exact members

theorem piecesFrom_skip (pattern : Pattern) (skip : Nat) (before : Option Char) (text : Text) :
    pattern.piecesFrom skip before text =
      pattern.piecesFrom 0 ((text.take skip).getLast?.or before) (text.drop skip) := by
  induction text generalizing skip before with
  | nil => simp [piecesFrom]
  | cons char text ih =>
      cases skip with
      | zero => rfl
      | succ skip =>
          rw [piecesFrom, ih, List.take_succ_cons, List.drop_succ_cons, List.getLast?_cons]
          cases (text.take skip).getLast? <;> rfl

theorem piecesFrom_kept {pattern : Pattern} {before : Option Char} {char : Char} {text : Text}
    (none : pattern before (char :: text) = none) :
    pattern.piecesFrom 0 before (char :: text) =
      .kept char :: pattern.piecesFrom 0 (some char) text := by
  rw [piecesFrom, none]

theorem piecesFrom_found {pattern : Pattern} {before : Option Char} {stretch rest : Text}
    (filled : stretch ≠ [])
    (found : pattern before (stretch ++ rest) = some stretch.length) :
    pattern.piecesFrom 0 before (stretch ++ rest) =
      .found stretch :: pattern.piecesFrom 0 stretch.getLast? rest := by
  cases stretch with
  | nil => exact absurd rfl filled
  | cons char stretch =>
      rw [List.cons_append, List.length_cons] at found
      rw [List.cons_append, piecesFrom, found]
      simp only
      rw [piecesFrom_skip, List.take_left, List.drop_left, ← List.cons_append,
        ← List.length_cons, List.take_left, List.getLast?_cons]
      cases stretch.getLast? <;> rfl

theorem piecesFrom_anywhere (scan : Scan) (before : Option Char) (text : Text) :
    scan.anywhere.piecesFrom 0 before text = scan.anywhere.pieces text := by
  cases text <;> rfl

theorem pieces_anywhere_nil {scan : Scan} (none : scan [] = none) :
    scan.anywhere.pieces [] = [] := by
  unfold pieces
  rw [piecesFrom]
  unfold Scan.anywhere
  rw [none]
  rfl

theorem pieces_anywhere_cons {scan : Scan} {char : Char} {text : Text}
    (none : scan (char :: text) = none) :
    scan.anywhere.pieces (char :: text) = .kept char :: scan.anywhere.pieces text := by
  have unmatched : scan.anywhere .none (char :: text) = .none := congrArg (Option.map _) none
  rw [← piecesFrom_anywhere scan (some char) text]
  exact piecesFrom_kept unmatched

theorem pieces_anywhere_append {scan : Scan} {stretch rest : Text} (filled : stretch ≠ [])
    (read : scan (stretch ++ rest) = some rest) :
    scan.anywhere.pieces (stretch ++ rest) = .found stretch :: scan.anywhere.pieces rest := by
  have matched : scan.anywhere .none (stretch ++ rest) = some stretch.length :=
    (congrArg (Option.map _) read).trans (congrArg some (Nat.sub_eq_of_eq_add List.length_append))
  rw [← piecesFrom_anywhere scan stretch.getLast? rest]
  exact piecesFrom_found filled matched

/-- The pieces of a text behind a character: what is kept matches nowhere, and what is found is a
match. -/
inductive Cut (pattern : Pattern) : Option Char → Text → List Piece → Prop where
  | done {before : Option Char} : pattern before [] = none → Cut pattern before [] []
  | kept {before : Option Char} {char : Char} {text : Text} {pieces : List Piece} :
      pattern before (char :: text) = none → Cut pattern (some char) text pieces →
        Cut pattern before (char :: text) (.kept char :: pieces)
  | found {before : Option Char} {stretch rest : Text} {pieces : List Piece} :
      stretch ≠ [] → pattern before (stretch ++ rest) = some stretch.length →
        Cut pattern stretch.getLast? rest pieces →
          Cut pattern before (stretch ++ rest) (.found stretch :: pieces)

theorem cut_piecesFrom {pattern : Pattern} (sound : pattern.Sound) (before : Option Char)
    (text : Text) : Cut pattern before text (pattern.piecesFrom 0 before text) := by
  induction size : text.length using Nat.strongRecOn generalizing before text with
  | ind size ih =>
      cases here : pattern before text with
      | none =>
          cases text with
          | nil =>
              rw [piecesFrom, here]
              exact .done here
          | cons char text =>
              rw [piecesFrom_kept here]
              refine .kept here (ih text.length ?_ _ _ rfl)
              rw [← size]
              exact Nat.lt_succ_self _
      | some length =>
          obtain ⟨stretch, rest, filled, rfl, rfl⟩ := sound.split here
          have positive := List.length_pos_iff.mpr filled
          rw [piecesFrom_found filled here]
          refine .found filled here (ih rest.length ?_ _ _ rfl)
          rw [← size, List.length_append]
          omega

theorem cut_pieces {pattern : Pattern} (sound : pattern.Sound) (text : Text) :
    Cut pattern none text (pattern.pieces text) := cut_piecesFrom sound none text

/-- Each piece found is a match in front of what follows it. -/
theorem Cut.matched {pattern : Pattern} {before : Option Char} {text stretch : Text}
    {pieces : List Piece} (cut : Cut pattern before text pieces)
    (member : .found stretch ∈ pieces) :
    ∃ last rest, pattern last (stretch ++ rest) = some stretch.length := by
  induction cut with
  | done _none => cases member
  | kept _none _rest ih =>
      rcases List.mem_cons.mp member with same | later
      · cases same
      · exact ih later
  | @found before here rest pieces _filled matched _rest ih =>
      rcases List.mem_cons.mp member with same | later
      · cases same
        exact ⟨before, rest, matched⟩
      · exact ih later

def Absent (pattern : Pattern) (before : Option Char) (text : Text) : Prop :=
  ∀ front back, text = front ++ back → pattern (front.getLast?.or before) back = none

theorem Absent.here {pattern : Pattern} {before : Option Char} {text : Text}
    (absent : pattern.Absent before text) : pattern before text = none :=
  absent [] text rfl

theorem absent_cons_iff {pattern : Pattern} {before : Option Char} {char : Char} {text : Text} :
    pattern.Absent before (char :: text) ↔
      pattern before (char :: text) = none ∧ pattern.Absent (some char) text := by
  constructor
  · intro absent
    refine ⟨absent.here, fun front back split => ?_⟩
    rw [← Text.getLast?_cons_or]
    exact absent (char :: front) back (by rw [split, List.cons_append])
  · rintro ⟨here, later⟩ front back split
    cases front with
    | nil =>
        rw [List.nil_append] at split
        rw [← split]
        exact here
    | cons first front =>
        obtain ⟨rfl, inner⟩ := List.cons.inj split
        rw [Text.getLast?_cons_or]
        exact later front back inner

theorem piecesFrom_of_absent {pattern : Pattern} {before : Option Char} {text : Text}
    (absent : pattern.Absent before text) :
    pattern.piecesFrom 0 before text = text.map .kept := by
  induction text generalizing before with
  | nil =>
      rw [piecesFrom, absent.here]
      rfl
  | cons char text ih =>
      obtain ⟨here, later⟩ := absent_cons_iff.mp absent
      rw [piecesFrom_kept here, ih later, List.map_cons]

theorem replace_eq_self_of_absent {pattern : Pattern} {text : Text}
    (absent : pattern.Absent none text) (new : Text → Text) : pattern.replace new text = text := by
  unfold replace pieces
  rw [piecesFrom_of_absent absent, List.flatMap_map]
  exact List.flatMap_singleton' text

theorem Cut.absent {pattern : Pattern} {before : Option Char} {text : Text} {pieces : List Piece}
    (cut : Cut pattern before text pieces) (unmatched : ∀ stretch, .found stretch ∉ pieces) :
    pattern.Absent before text := by
  induction cut with
  | done none =>
      intro front back split
      obtain ⟨rfl, rfl⟩ := List.append_eq_nil_iff.mp split.symm
      exact none
  | kept none _rest ih =>
      refine absent_cons_iff.mpr ⟨none, ih ?_⟩
      intro stretch member
      exact unmatched stretch (List.mem_cons_of_mem _ member)
  | found _filled _matched _rest _ih => exact absurd List.mem_cons_self (unmatched _)

theorem mem_occurrences {pattern : Pattern} {text stretch : Text} :
    stretch ∈ pattern.occurrences text ↔ .found stretch ∈ pattern.pieces text := by
  unfold occurrences
  rw [List.mem_filterMap]
  constructor
  · rintro ⟨piece, member, same⟩
    cases piece with
    | kept char => cases same
    | found other =>
        cases same
        exact member
  · intro member
    exact ⟨_, member, rfl⟩

theorem absent_of_occurrences {pattern : Pattern} (sound : pattern.Sound) {text : Text}
    (none : ∀ stretch, stretch ∉ pattern.occurrences text) : pattern.Absent .none text :=
  (cut_pieces sound text).absent fun stretch => mt mem_occurrences.mpr (none stretch)

theorem replace_eq (pattern : Pattern) (new : Text → Text) (text : Text) :
    pattern.replace new text = (pattern.pieces text).flatMap (Piece.replaced new) := rfl

theorem mem_of_mem_replace {pattern : Pattern} {new : Text → Text} {text : Text} {char : Char}
    (member : char ∈ pattern.replace new text) :
    char ∈ text ∨ ∃ stretch ∈ pattern.occurrences text, char ∈ new stretch := by
  rw [replace_eq] at member
  obtain ⟨piece, found, inside⟩ := List.mem_flatMap.mp member
  cases piece with
  | found stretch => exact .inr ⟨stretch, mem_occurrences.mpr found, inside⟩
  | kept other =>
      rw [← text_pieces pattern text]
      exact .inl (List.mem_flatMap.mpr ⟨_, found, inside⟩)

theorem count_replace_le {pattern : Pattern} {new : Text → Text} {text : Text} {char : Char}
    (fewer : ∀ stretch ∈ pattern.occurrences text, (new stretch).count char ≤ stretch.count char) :
    (pattern.replace new text).count char ≤ text.count char := by
  have bound : ∀ piece ∈ pattern.pieces text,
      (piece.replaced new).count char ≤ piece.text.count char := by
    intro piece member
    cases piece with
    | kept other => exact Nat.le_refl _
    | found stretch => exact fewer stretch (mem_occurrences.mpr member)
  have whole := congrArg (List.count char) (text_pieces pattern text)
  rw [List.count_flatMap] at whole
  rw [replace_eq, List.count_flatMap, ← whole]
  exact List.sum_le_sum bound

theorem count_remove_le (pattern : Pattern) (text : Text) (char : Char) :
    (pattern.remove text).count char ≤ text.count char :=
  count_replace_le fun _stretch _member => Nat.zero_le _

theorem count_replace_eq {pattern : Pattern} {new : Text → Text} {text : Text} {char : Char}
    (equal : ∀ stretch ∈ pattern.occurrences text, (new stretch).count char = stretch.count char) :
    (pattern.replace new text).count char = text.count char := by
  have same : ∀ piece ∈ pattern.pieces text,
      (piece.replaced new).count char = piece.text.count char := by
    intro piece member
    cases piece with
    | kept other => rfl
    | found stretch => exact equal stretch (mem_occurrences.mpr member)
  have whole := congrArg (List.count char) (text_pieces pattern text)
  rw [List.count_flatMap] at whole
  rw [replace_eq, List.count_flatMap, ← whole]
  exact congrArg List.sum (List.map_congr_left same)

theorem exists_of_occursIn {pattern : Pattern} {text : Text} (occurs : pattern.occursIn text = true) :
    ∃ stretch, stretch ∈ pattern.occurrences text := by
  obtain ⟨piece, member, found⟩ := List.any_eq_true.mp occurs
  cases piece with
  | kept char => cases found
  | found stretch => exact ⟨stretch, mem_occurrences.mpr member⟩

theorem count_remove_lt {pattern : Pattern} {text stretch : Text} {char : Char}
    (occurs : stretch ∈ pattern.occurrences text) (held : char ∈ stretch) :
    (pattern.remove text).count char < text.count char := by
  have whole := congrArg (List.count char) (text_pieces pattern text)
  rw [List.count_flatMap] at whole
  unfold remove
  rw [replace_eq, List.count_flatMap, ← whole]
  refine List.sum_lt_sum _ _ ?_ ⟨_, mem_occurrences.mp occurs, List.count_pos_iff.mpr held⟩
  intro piece _member
  cases piece with
  | kept other => exact Nat.le_refl _
  | found stretch => exact Nat.zero_le _

end Pattern
end ShaderBridge
