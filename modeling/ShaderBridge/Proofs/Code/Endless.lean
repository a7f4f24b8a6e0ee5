import ShaderBridge.Proofs.Code.Counter
import ShaderBridge.Proofs.Code.Loop
import ShaderBridge.Proofs.Text.Removal
set_option autoImplicit false

/-! Endless loops, bounded. A text is cut at the endless heads in it, which are the places where the
grammar of such a head is met (`exists_split`, `Split.headAt_iff`); each head becomes one that counts a
variable of its own, and all other text stays. The bounded text has no endless head left
(`Split.absent`), and its counters can be read when they could be written (`Split.readable`), so that
bounding it again changes nothing (`boundLoops_bounds_iff`). -/

namespace ShaderBridge
namespace Code

open Attempt (bind_eq_ok_iff bind_eq_error_iff map_eq_ok_iff map_eq_error_iff)
open Text (Blank IsOneWord endsWord words)

/-- The head of an endless loop in front of a text. A `while` in front of a semicolon ends a `do` loop. -/
inductive Endless : (head rest : Text) → Prop where
  | counted {first second third fourth rest : Text} :
      Blank first → Blank second → Blank third → Blank fourth →
        Endless ("for" ++ (first ++ '(' :: (second ++ ';' :: (third ++ ';' :: (fourth ++ [')']))))) rest
  | tested {first second test third rest : Text} :
      Blank first → Blank second → (test = "true" ∨ test = "1") → Blank third → ¬ LedBy ';' rest →
        Endless ("while" ++ (first ++ '(' :: (second ++ (test ++ (third ++ [')']))))) rest

private def InTail (char : Char) : Prop := char ∈ ("orhiletu1();" : Text) ∨ isBlank char = true

private instance (char : Char) : Decidable (InTail char) := inferInstanceAs (Decidable (_ ∨ _))

/-- Of the letters that heads begin with, a head has one at its front and none behind it. -/
theorem Endless.exists_cons {head rest : Text} (endless : Endless head rest) :
    ∃ letter tail, head = letter :: tail ∧ BeginsLoop letter ∧
      ∀ other, BeginsLoop other → other ∉ tail := by
  have absent : ∀ {tail : Text}, (∀ char ∈ tail, InTail char) →
      ∀ other, BeginsLoop other → other ∉ tail := by
    intro tail each other begins member
    have apart : ∀ letter ∈ ("fw" : Text), ¬ InTail letter := by decide
    exact apart other begins (each other member)
  have white : ∀ {blanks : Text}, Blank blanks → ∀ char ∈ blanks, InTail char :=
    fun blank char member => .inr (blank char member)
  cases endless with
  | @counted first second third fourth _rest one two three four =>
      refine ⟨'f', ("or" : Text) ++ _, rfl, by decide, absent ?_⟩
      simp only [List.forall_mem_append, List.forall_mem_cons]
      exact ⟨by decide, white one, by decide, white two, by decide, white three, by decide,
        white four, by decide⟩
  | @tested first second test third _rest one two known three _uncalled =>
      have letters : ∀ char ∈ test, InTail char := by
        rcases known with rfl | rfl <;> decide
      refine ⟨'w', ("hile" : Text) ++ _, rfl, by decide, absent ?_⟩
      simp only [List.forall_mem_append, List.forall_mem_cons]
      exact ⟨by decide, white one, by decide, white two, letters, white three, by decide⟩

theorem Endless.exists_concat {head rest : Text} (endless : Endless head rest) :
    ∃ front, head = front ++ [')'] := by
  cases endless with
  | @counted first second third fourth =>
      exact ⟨"for" ++ (first ++ '(' :: (second ++ ';' :: (third ++ ';' :: fourth))), by simp⟩
  | @tested first second test third =>
      exact ⟨"while" ++ (first ++ '(' :: (second ++ (test ++ third))), by simp⟩

private theorem blanks_literal_eq_some_of {mark : Char} (dark : isBlank mark = false) {next : Scan}
    {blanks behind rest : Text} (blank : Blank blanks) (found : next behind = some rest) :
    (Scan.blanks >=> Scan.literal [mark] >=> next) (blanks ++ mark :: behind) = some rest :=
  Scan.andThen_eq_some_iff.mpr ⟨mark :: behind,
    Scan.zeroOrMore_eq_some_iff.mpr ⟨blanks, blank, rfl, dark⟩,
    Scan.andThen_eq_some_iff.mpr ⟨behind, Scan.literal_eq_some_iff.mpr rfl, found⟩⟩

private theorem endlessFor_eq_some_iff {text rest : Text} :
    endlessFor text = some rest ↔ ∃ first second third fourth, Blank first ∧ Blank second ∧
      Blank third ∧ Blank fourth ∧
        text = "for" ++ (first ++ '(' :: (second ++ ';' :: (third ++ ';' :: (fourth ++ ')' :: rest)))) := by
  constructor
  · intro found
    obtain ⟨begun, named, opening⟩ := Scan.andThen_eq_some_iff.mp found
    obtain ⟨first, _inside, one, rfl, condition⟩ := blanks_literal_eq_some '(' opening
    obtain ⟨second, _inside, two, rfl, step⟩ := blanks_literal_eq_some ';' condition
    obtain ⟨third, _inside, three, rfl, closing⟩ := blanks_literal_eq_some ';' step
    obtain ⟨fourth, four, rfl⟩ := (Scan.blanks_literal_eq_some_iff (by decide)).mp closing
    exact ⟨first, second, third, fourth, one, two, three, four, Scan.literal_eq_some_iff.mp named⟩
  · rintro ⟨first, second, third, fourth, one, two, three, four, rfl⟩
    have closing : (Scan.blanks >=> Scan.literal ")") (fourth ++ ')' :: rest) = some rest :=
      (Scan.blanks_literal_eq_some_iff (by decide)).mpr ⟨fourth, four, rfl⟩
    exact Scan.andThen_eq_some_iff.mpr ⟨_, Scan.literal_eq_some_iff.mpr rfl,
      blanks_literal_eq_some_of rfl one (blanks_literal_eq_some_of rfl two
        (blanks_literal_eq_some_of rfl three closing))⟩

private theorem endlessWhile_eq_some_iff {text rest : Text} :
    endlessWhile text = some rest ↔ ∃ first second, ∃ test : Text, ∃ third, Blank first ∧ Blank second ∧
      (test = "true" ∨ test = "1") ∧ Blank third ∧ ¬ LedBy ';' rest ∧
        text = "while" ++ (first ++ '(' :: (second ++ (test ++ (third ++ ')' :: rest)))) := by
  constructor
  · intro found
    obtain ⟨begun, named, opening⟩ := Scan.andThen_eq_some_iff.mp found
    obtain ⟨first, _inside, one, rfl, condition⟩ := blanks_literal_eq_some '(' opening
    obtain ⟨tested, spaced, closing⟩ := Scan.andThen_eq_some_iff.mp condition
    obtain ⟨second, two, rfl, _dark⟩ := Scan.zeroOrMore_eq_some_iff.mp spaced
    obtain ⟨behind, holds, ended⟩ := Scan.andThen_eq_some_iff.mp closing
    obtain ⟨third, final, three, rfl, uncalled⟩ := blanks_literal_eq_some ')' ended
    obtain ⟨rfl, missed⟩ := Scan.notBefore_eq_some_iff.mp uncalled
    obtain ⟨test, known, rfl⟩ : ∃ test : Text, (test = "true" ∨ test = "1") ∧
        tested = test ++ (third ++ ')' :: rest) := by
      rcases Scan.orElse_eq_some holds with truth | one
      · exact ⟨"true", .inl rfl, Scan.literal_eq_some_iff.mp truth⟩
      · exact ⟨"1", .inr rfl, Scan.literal_eq_some_iff.mp one⟩
    exact ⟨first, second, test, third, one, two, known, three,
      fun led => (ledBy_iff (by decide)).mp led missed, Scan.literal_eq_some_iff.mp named⟩
  · rintro ⟨first, second, test, third, one, two, known, three, unled, rfl⟩
    have ends : Scan.notBefore (Scan.blanks >=> Scan.literal ";") rest = some rest :=
      Scan.notBefore_eq_some_iff.mpr ⟨rfl, not_not.mp (mt (ledBy_iff (by decide)).mpr unled)⟩
    have closing : (Scan.blanks >=> Scan.literal ")" >=>
        Scan.notBefore (Scan.blanks >=> Scan.literal ";")) (third ++ ')' :: rest) = some rest :=
      blanks_literal_eq_some_of rfl three ends
    have condition : (Scan.blanks >=> Scan.orElse (Scan.literal "true") (Scan.literal "1") >=>
        Scan.blanks >=> Scan.literal ")" >=> Scan.notBefore (Scan.blanks >=> Scan.literal ";"))
          (second ++ (test ++ (third ++ ')' :: rest))) = some rest := by
      refine Scan.andThen_eq_some_iff.mpr ⟨test ++ (third ++ ')' :: rest),
        Scan.zeroOrMore_eq_some_iff.mpr ⟨second, two, rfl, ?_⟩,
        Scan.andThen_eq_some_iff.mpr ⟨third ++ ')' :: rest, ?_, closing⟩⟩
      · rcases known with rfl | rfl <;> rfl
      · rcases known with rfl | rfl <;> rfl
    exact Scan.andThen_eq_some_iff.mpr ⟨_, Scan.literal_eq_some_iff.mpr rfl,
      blanks_literal_eq_some_of rfl one condition⟩

private theorem endless_eq_some_iff {text rest : Text} :
    Scan.orElse endlessFor endlessWhile text = some rest ↔
      endlessFor text = some rest ∨ endlessWhile text = some rest := by
  constructor
  · exact Scan.orElse_eq_some
  · unfold Scan.orElse
    rintro (counted | tested)
    · rw [counted]
      rfl
    · obtain ⟨_first, _second, _test, _third, _one, _two, _known, _three, _unled, rfl⟩ :=
        endlessWhile_eq_some_iff.mp tested
      exact tested

/-- Where an endless head is found. -/
theorem endlessHead_matched_iff {before : Option Char} {head rest : Text} :
    endlessHead before (head ++ rest) = some head.length ↔
      before.any isWord = false ∧ Endless head rest := by
  have read : Scan.orElse endlessFor endlessWhile (head ++ rest) = some rest ↔ Endless head rest := by
    rw [endless_eq_some_iff]
    constructor
    · rintro (counted | tested)
      · obtain ⟨first, second, third, fourth, one, two, three, four, same⟩ :=
          endlessFor_eq_some_iff.mp counted
        obtain rfl : head = "for" ++ (first ++ '(' :: (second ++ ';' ::
            (third ++ ';' :: (fourth ++ [')'])))) := List.append_cancel_right (same.trans (by simp))
        exact .counted one two three four
      · obtain ⟨first, second, test, third, one, two, known, three, unled, same⟩ :=
          endlessWhile_eq_some_iff.mp tested
        obtain rfl : head = "while" ++ (first ++ '(' :: (second ++ (test ++ (third ++ [')'])))) :=
          List.append_cancel_right (same.trans (by simp))
        exact .tested one two known three unled
    · intro endless
      cases endless with
      | counted one two three four =>
          exact .inl (endlessFor_eq_some_iff.mpr ⟨_, _, _, _, one, two, three, four, by simp⟩)
      | tested one two known three unled =>
          exact .inr (endlessWhile_eq_some_iff.mpr
            ⟨_, _, _, _, one, two, known, three, unled, by simp⟩)
  rw [← read]
  exact Pattern.notAfter_append_eq_some_iff consumes_endless.sound

theorem Endless.getLast? {head rest : Text} (endless : Endless head rest) :
    head.getLast? = some ')' := by
  obtain ⟨front, rfl⟩ := endless.exists_concat
  exact List.getLast?_concat

theorem Endless.ne_nil {head rest : Text} (endless : Endless head rest) : head ≠ [] := by
  rintro rfl
  cases endless.getLast?

theorem Endless.getLast?_or {head rest : Text} (endless : Endless head rest) (front behind : Text)
    (before : Option Char) :
    (front ++ (head ++ behind)).getLast?.or before = behind.getLast?.or (some ')') := by
  obtain ⟨inner, rfl⟩ := endless.exists_concat
  rw [List.append_assoc, List.singleton_append, ← List.append_assoc, Text.getLast?_append_cons_or]

theorem Endless.unique {head rest other closed : Text} (endless : Endless head rest)
    (another : Endless other closed) (same : head ++ rest = other ++ closed) :
    head = other ∧ rest = closed := by
  have here := endlessHead_matched_iff.mpr ⟨(rfl : (none : Option Char).any isWord = false), endless⟩
  have there := endlessHead_matched_iff.mpr ⟨(rfl : (none : Option Char).any isWord = false), another⟩
  rw [same] at here
  exact List.append_inj same (Option.some.inj (here.symm.trans there))

/-- A letter that heads begin with stands at the front of a head or behind it. -/
theorem Endless.place {head rest reached behind : Text} {letter : Char} (endless : Endless head rest)
    (begins : BeginsLoop letter) (same : head ++ rest = reached ++ letter :: behind) :
    reached = [] ∨ ∃ passed, reached = head ++ passed ∧ rest = passed ++ letter :: behind := by
  rcases List.append_eq_append_iff.mp same with ⟨passed, split, later⟩ | ⟨more, split, later⟩
  · exact .inr ⟨passed, split, later⟩
  · cases more with
    | nil =>
        rw [List.append_nil] at split
        exact .inr ⟨[], by rw [split, List.append_nil], later.symm⟩
    | cons first more =>
        obtain ⟨rfl, _rest⟩ := List.cons.inj later
        cases reached with
        | nil => exact .inl rfl
        | cons char reached =>
            obtain ⟨_first, tail, whole, _begins, absent⟩ := endless.exists_cons
            rw [split] at whole
            refine absurd ?_ (absent letter begins)
            rw [← (List.cons.inj whole).2]
            exact List.mem_append_right _ List.mem_cons_self

/-- A text with its heads: what stands in front of each head, with the head, and what is behind the
last one. -/
def joined : (cuts : List (Text × Text)) → (last : Text) → Text
  | [], last => last
  | (front, head) :: cuts, last => front ++ (head ++ joined cuts last)

/-- An endless head stands at a place of a text behind a character. -/
structure HeadAt (before : Option Char) (text opened head closed : Text) : Prop where
  whole : text = opened ++ (head ++ closed)
  outside : (opened.getLast?.or before).any isWord = false
  endless : Endless head closed

theorem HeadAt.matched {before : Option Char} {text opened head closed : Text}
    (headAt : HeadAt before text opened head closed) :
    endlessHead (opened.getLast?.or before) (head ++ closed) = some head.length :=
  endlessHead_matched_iff.mpr ⟨headAt.outside, headAt.endless⟩

theorem HeadAt.not_absent {before : Option Char} {text opened head closed : Text}
    (headAt : HeadAt before text opened head closed) : ¬ endlessHead.Absent before text := by
  intro absent
  have missed := absent opened (head ++ closed) headAt.whole
  rw [headAt.matched] at missed
  cases missed

/-- The cuts of a text behind a character, each at the first head of what is left. -/
inductive Split : Option Char → List (Text × Text) → Text → Prop where
  | last {before : Option Char} {last : Text} :
      endlessHead.Absent before last → Split before [] last
  | head {before : Option Char} {front head last : Text} {cuts : List (Text × Text)} :
      endlessHead.Spared before front (head ++ joined cuts last) →
        (front.getLast?.or before).any isWord = false → Endless head (joined cuts last) →
          Split (some ')') cuts last → Split before ((front, head) :: cuts) last

theorem exists_split (before : Option Char) (text : Text) :
    ∃ cuts last, text = joined cuts last ∧ Split before cuts last := by
  have cut := Pattern.cut_piecesFrom sound_endlessHead before text
  generalize endlessHead.piecesFrom 0 before text = pieces at cut
  induction cut with
  | done none => exact ⟨[], [], rfl, .last ((Pattern.Cut.done none).absent nofun)⟩
  | @kept before char text pieces none _cut ih =>
      obtain ⟨cuts, last, rfl, split⟩ := ih
      cases split with
      | last absent =>
          exact ⟨[], char :: last, rfl, .last (Pattern.absent_cons_iff.mpr ⟨none, absent⟩)⟩
      | @head _before front head _last cuts spared outside endless later =>
          rw [← Text.getLast?_cons_or char front before] at outside
          exact ⟨(char :: front, head) :: cuts, last, rfl,
            .head (Pattern.spared_cons_iff.mpr ⟨none, spared⟩) outside endless later⟩
  | @found before stretch rest pieces _filled matched _cut ih =>
      obtain ⟨cuts, last, rfl, split⟩ := ih
      obtain ⟨outside, endless⟩ := endlessHead_matched_iff.mp matched
      rw [endless.getLast?] at split
      refine ⟨([], stretch) :: cuts, last, rfl, .head ?_ outside endless split⟩
      exact fun first left split filled => absurd (List.append_eq_nil_iff.mp split.symm).2 filled

/-- The heads of the cuts are all heads of the text. -/
theorem Split.headAt_iff {before : Option Char} {cuts : List (Text × Text)} {last : Text}
    (split : Split before cuts last) {opened head closed : Text} :
    HeadAt before (joined cuts last) opened head closed ↔
      ∃ early front late, cuts = early ++ (front, head) :: late ∧ opened = joined early front ∧
        closed = joined late last := by
  induction split generalizing opened with
  | last absent =>
      constructor
      · exact fun headAt => absurd absent headAt.not_absent
      · rintro ⟨early, front, late, none, _opened, _closed⟩
        cases (List.append_eq_nil_iff.mp none.symm).2
  | @head before front first last cuts spared outside endless _split ih =>
      constructor
      · intro headAt
        have here : first ++ joined cuts last = head ++ closed → opened = front →
            ∃ early fore late, (front, first) :: cuts = early ++ (fore, head) :: late ∧
              opened = joined early fore ∧ closed = joined late last := by
          intro same begins
          obtain ⟨rfl, rest⟩ := endless.unique headAt.endless same
          exact ⟨[], front, cuts, rfl, begins, rest.symm⟩
        have whole : front ++ (first ++ joined cuts last) = opened ++ (head ++ closed) := headAt.whole
        -- the head is behind the first one, or is the first one, or would be in front of it
        rcases List.append_eq_append_iff.mp whole with ⟨reached, rfl, behind⟩ | ⟨left, rfl, behind⟩
        · obtain ⟨letter, tail, rfl, begins, _absent⟩ := headAt.endless.exists_cons
          rcases endless.place begins behind with rfl | ⟨passed, rfl, rest⟩
          · exact here behind (List.append_nil front)
          · have outer := headAt.outside
            rw [endless.getLast?_or] at outer
            obtain ⟨early, fore, late, rfl, rfl, closing⟩ := ih.mp ⟨rest, outer, headAt.endless⟩
            exact ⟨(front, first) :: early, fore, late, rfl, rfl, closing⟩
        · by_cases filled : left = []
          · subst filled
            exact here behind.symm (List.append_nil opened).symm
          · have missed := spared opened left rfl filled
            rw [← behind, headAt.matched] at missed
            cases missed
      · rintro ⟨early, fore, late, same, rfl, rfl⟩
        cases early with
        | nil =>
            cases same
            exact ⟨rfl, outside, endless⟩
        | cons pair early =>
            obtain ⟨rfl, rest⟩ := List.cons.inj same
            have inner := ih.mpr ⟨early, fore, late, rest, rfl, rfl⟩
            refine ⟨?_, ?_, inner.endless⟩
            · rw [joined, joined, inner.whole]
              simp only [List.append_assoc]
            · have passed := inner.outside
              rwa [joined, endless.getLast?_or]

/-- The cuts with bounded heads, their counters numbered from the first one on. -/
def headed (ceiling : Int) : (counter : Nat) → List (Text × Text) → List (Text × Text)
  | _, [] => []
  | counter, (front, _) :: cuts =>
    (front, header ceiling counter) :: headed ceiling (counter + 1) cuts

/-- The ceiling and all counters, from the first one on, can be written. -/
def Fits (ceiling : Int) (counter count : Nat) : Prop :=
  ∀ index < count, Writable ceiling ∧ Writable (counter + index : Nat)

theorem fits_succ_iff {ceiling : Int} {counter count : Nat} :
    Fits ceiling counter (count + 1) ↔
      (Writable ceiling ∧ Writable counter) ∧ Fits ceiling (counter + 1) count := by
  constructor
  · intro fits
    refine ⟨fits 0 (Nat.succ_pos count), fun index below => ?_⟩
    rw [Nat.add_right_comm]
    exact fits (index + 1) (Nat.succ_lt_succ below)
  · rintro ⟨first, others⟩ index below
    cases index with
    | zero => exact first
    | succ index =>
        have later := others index (Nat.lt_of_succ_lt_succ below)
        rwa [Nat.add_right_comm] at later

private theorem piecesFrom_head {before : Option Char} {front head rest : Text}
    (spared : endlessHead.Spared before front (head ++ rest))
    (outside : (front.getLast?.or before).any isWord = false) (endless : Endless head rest) :
    endlessHead.piecesFrom 0 before (front ++ (head ++ rest)) =
      front.map .kept ++ .found head :: endlessHead.piecesFrom 0 (some ')') rest := by
  rw [Pattern.piecesFrom_spared spared, Pattern.piecesFrom_found endless.ne_nil
    (endlessHead_matched_iff.mpr ⟨outside, endless⟩), endless.getLast?]

theorem Split.boundPieces_eq_ok {before : Option Char} {cuts : List (Text × Text)} {last : Text}
    (split : Split before cuts last) {ceiling : Int} {counter : Nat}
    (fits : Fits ceiling counter cuts.length) :
    boundPieces ceiling counter (endlessHead.piecesFrom 0 before (joined cuts last)) =
      .ok (joined (headed ceiling counter cuts) last) := by
  induction split generalizing counter with
  | @last before last absent =>
      have whole := boundPieces_kept_append ceiling counter last []
      rw [List.append_nil] at whole
      rw [joined, Pattern.piecesFrom_of_absent absent, whole, boundPieces, Except.map, List.append_nil]
      rfl
  | head spared outside endless _split ih =>
      obtain ⟨⟨limit, number⟩, later⟩ := fits_succ_iff.mp fits
      rw [joined, piecesFrom_head spared outside endless, boundPieces_kept_append]
      exact map_eq_ok_iff.mpr ⟨_, bind_eq_ok_iff.mpr ⟨_, boundedHead_of_writable limit number,
        bind_eq_ok_iff.mpr ⟨_, ih later, rfl⟩⟩, rfl⟩

theorem Split.boundPieces_eq_error {before : Option Char} {cuts : List (Text × Text)} {last : Text}
    (split : Split before cuts last) {ceiling : Int} {counter : Nat}
    (long : ¬ Fits ceiling counter cuts.length) :
    boundPieces ceiling counter (endlessHead.piecesFrom 0 before (joined cuts last)) =
      .error .longOutput := by
  induction split generalizing counter with
  | last _absent => exact absurd (fun index below => absurd below (Nat.not_lt_zero index)) long
  | head spared outside endless _split ih =>
      rw [joined, piecesFrom_head spared outside endless, boundPieces_kept_append]
      refine map_eq_error_iff.mpr (bind_eq_error_iff.mpr ?_)
      by_cases writable : Writable ceiling ∧ Writable counter
      · refine .inr ⟨_, boundedHead_of_writable writable.1 writable.2, bind_eq_error_iff.mpr (.inl (ih ?_))⟩
        exact fun later => long (fits_succ_iff.mpr ⟨writable, later⟩)
      · exact .inl (boundedHead_of_not_writable writable)

theorem Endless.congr {head rest other : Text} (endless : Endless head rest)
    (same : LedBy ';' rest ↔ LedBy ';' other) : Endless head other := by
  cases endless with
  | counted one two three four => exact .counted one two three four
  | tested one two known three unled => exact .tested one two known three (mt same.mpr unled)

private theorem spared_of_missing {before : Option Char} {middle back : Text}
    (missing : ∀ passed left head closed, middle = passed ++ left → left ≠ [] →
      left ++ back = head ++ closed → Endless head closed →
        (passed.getLast?.or before).any isWord = true) : endlessHead.Spared before middle back := by
  intro passed left split filled
  cases found : endlessHead (passed.getLast?.or before) (left ++ back) with
  | none => rfl
  | some length =>
      obtain ⟨head, closed, _filled, same, rfl⟩ := sound_endlessHead.split found
      rw [same] at found
      obtain ⟨outside, endless⟩ := endlessHead_matched_iff.mp found
      exact absurd (outside.symm.trans (missing passed left head closed split filled same endless)) nofun

private theorem endless_header_ne {head closed : Text} (endless : Endless head closed) (ceiling : Int)
    (counter : Nat) (rest : Text) : header ceiling counter ++ rest ≠ head ++ closed := by
  intro same
  obtain ⟨front, whole⟩ := exists_header_concat ceiling counter
  have found := endlessHead_matched_iff.mpr ⟨(rfl : (none : Option Char).any isWord = false), endless⟩
  have opening : "for (int ".toList = ['f', 'o', 'r', ' ', '(', 'i', 'n', 't', ' '] := by decide
  rw [← same, whole, opening] at found
  cases found

/-- No endless head begins inside a bounded head. -/
theorem spared_header (ceiling : Int) (counter : Nat) (before : Option Char) (rest : Text) :
    endlessHead.Spared before (header ceiling counter) rest := by
  refine spared_of_missing fun passed left head closed split filled same endless => ?_
  cases passed with
  | nil =>
      rw [List.nil_append] at split
      rw [← split] at same
      exact absurd same (endless_header_ne endless ceiling counter rest)
  | cons char passed =>
      obtain ⟨tail, whole, absent⟩ := exists_header_cons ceiling counter
      obtain ⟨letter, others, rfl, begins, _rest⟩ := endless.exists_cons
      cases left with
      | nil => exact absurd rfl filled
      | cons other left =>
          obtain ⟨rfl, _rest⟩ := List.cons.inj same
          rw [whole] at split
          refine absurd ?_ (absent other begins)
          rw [(List.cons.inj split).2]
          exact List.mem_append_right _ List.mem_cons_self

/-- What no endless head begins in stays so when the head behind it is bounded. -/
theorem spared_of_header {before : Option Char} {front head rest : Text}
    (spared : endlessHead.Spared before front (head ++ rest)) (endless : Endless head rest)
    (ceiling : Int) (counter : Nat) (other : Text) :
    endlessHead.Spared before front (header ceiling counter ++ other) := by
  obtain ⟨tail, bounded, _absent⟩ := exists_header_cons ceiling counter
  obtain ⟨first, others, rfl, begins, _rest⟩ := endless.exists_cons
  refine spared_of_missing fun passed left another closed split filled same endless => ?_
  rw [bounded, List.cons_append] at same
  -- a head that begins in front ends there, and what follows it led by no semicolon was led by none
  rcases endless.place (by decide) same.symm with rfl | ⟨between, rfl, rfl⟩
  · exact absurd rfl filled
  have each : ∀ letter ∈ ("fw" : Text), isBlank letter = false ∧ letter ≠ ';' := by decide
  have dark := each first begins
  have apart := spared passed (another ++ between) split filled
  have kept : Endless another (between ++ (first :: others ++ rest)) := by
    refine endless.congr ?_
    rw [List.cons_append, ledBy_append_of_ne (by decide) (by decide), ledBy_append_of_ne dark.1 dark.2]
  cases outside : (passed.getLast?.or before).any isWord with
  | true => rfl
  | false =>
      rw [List.append_assoc, endlessHead_matched_iff.mpr ⟨outside, kept⟩] at apart
      cases apart

/-- A bounded text holds no endless head. -/
theorem Split.absent {before : Option Char} {cuts : List (Text × Text)} {last : Text}
    (split : Split before cuts last) (ceiling : Int) (counter : Nat) :
    endlessHead.Absent before (joined (headed ceiling counter cuts) last) := by
  induction split generalizing counter with
  | last absent => exact absent
  | @head before front head last cuts spared outside endless _split ih =>
      refine (spared_of_header spared endless ceiling counter _).absent_append
        ((spared_header ceiling counter _ _).absent_append ?_)
      obtain ⟨inner, whole⟩ := exists_header_concat ceiling counter
      rw [whole, ← List.append_assoc, Text.getLast?_append_cons_or, List.getLast?_nil, Option.none_or]
      exact ih (counter + 1)

private theorem endsWord_of_outside {before : Option Char} {front : Text}
    (outside : (front.getLast?.or before).any isWord = false) : endsWord front = false := by
  unfold endsWord
  cases last : front.getLast? with
  | none => rfl
  | some char =>
      rw [last] at outside
      exact outside

/-- A word of a bounded text is one of the text or of a bounded head. -/
theorem Split.mem_words {before : Option Char} {cuts : List (Text × Text)} {last word : Text}
    (split : Split before cuts last) {ceiling : Int} {counter : Nat}
    (member : word ∈ words (joined (headed ceiling counter cuts) last)) :
    word ∈ words (joined cuts last) ∨
      ∃ index < cuts.length, word ∈ words (header ceiling (counter + index)) := by
  induction split generalizing counter with
  | last _absent => exact .inl member
  | @head before front head last cuts _spared outside endless _split ih =>
      obtain ⟨inner, ends⟩ := endless.exists_concat
      obtain ⟨within, whole⟩ := exists_header_concat ceiling counter
      have closed : endsWord head = false := by
        rw [ends, Text.endsWord_concat]
        decide
      have bounded : endsWord (header ceiling counter) = false := by
        rw [whole, ← List.append_assoc, Text.endsWord_concat]
        decide
      have apart : ∀ {first rest : Text}, endsWord first = false →
          words (first ++ rest) = words first ++ words rest :=
        fun unended => Text.words_append fun ended => absurd (unended.symm.trans ended) nofun
      have front := endsWord_of_outside outside
      rw [headed, joined, apart front, apart bounded, List.mem_append, List.mem_append] at member
      rw [joined, apart front, apart closed, List.mem_append, List.mem_append, List.length_cons]
      rcases member with early | new | late
      · exact .inl (.inl early)
      · exact .inr ⟨0, Nat.succ_pos _, new⟩
      · rcases ih late with old | ⟨index, below, new⟩
        · exact .inl (.inr (.inr old))
        · rw [Nat.add_right_comm] at new
          exact .inr ⟨index + 1, Nat.succ_lt_succ below, new⟩

theorem Split.readable {before : Option Char} {cuts : List (Text × Text)} {last : Text}
    (split : Split before cuts last) (readable : Readable (joined cuts last)) {ceiling : Int}
    {counter : Nat} (fits : Fits ceiling counter cuts.length) :
    Readable (joined (headed ceiling counter cuts) last) := by
  intro digits number member
  rcases split.mem_words member with old | ⟨index, below, new⟩
  · exact readable digits number old
  · rw [eq_of_mem_words_header new]
    exact writable_iff.mp (fits index below).2

/-! ### Bounding -/

/-- Bounding puts heads with counters of their own in the place of all endless ones, and is done then. -/
structure Bounds (ceiling : Int) (free : Nat) (cuts : List (Text × Text)) (last : Text) : Prop where
  done : boundLoops ceiling (joined cuts last) = .ok (joined (headed ceiling free cuts) last)
  distinct : ((List.range cuts.length).map fun index => counterName (free + index)).Nodup
  fresh : ∀ index < cuts.length, counterName (free + index) ∉ words (joined cuts last)
  ended : ∀ opened head closed,
    ¬ HeadAt none (joined (headed ceiling free cuts) last) opened head closed
  again : ∀ other, boundLoops other (joined (headed ceiling free cuts) last) =
    .ok (joined (headed ceiling free cuts) last)

/-- Every text whose counters can be read is cut at its endless heads. The heads are bounded, with counters
numbered from the free one on, if the ceiling and those counters can be written, and only then. -/
theorem boundLoops_bounds_iff {text : Text} (readable : Readable text) (ceiling : Int) :
    ∃ free cuts last, IsFree text free ∧ text = joined cuts last ∧
      (∀ opened head closed, HeadAt none text opened head closed ↔
        ∃ early front late, cuts = early ++ (front, head) :: late ∧ opened = joined early front ∧
          closed = joined late last) ∧
      (Bounds ceiling free cuts last ↔ Fits ceiling free cuts.length) ∧
      (¬ Fits ceiling free cuts.length → boundLoops ceiling text = .error .longOutput) := by
  obtain ⟨free, read, isFree⟩ := exists_freeCounter readable
  obtain ⟨cuts, last, rfl, split⟩ := exists_split none text
  have failed : ¬ Fits ceiling free cuts.length →
      boundLoops ceiling (joined cuts last) = .error .longOutput := fun long =>
    bind_eq_error_iff.mpr (.inr ⟨free, read, split.boundPieces_eq_error long⟩)
  refine ⟨free, cuts, last, isFree, rfl, fun _opened _head _closed => split.headAt_iff, ?_, failed⟩
  constructor
  · intro bounds
    by_contra long
    cases bounds.done.symm.trans (failed long)
  · intro fits
    have absent := split.absent ceiling free
    obtain ⟨next, readAgain, _isFree⟩ := exists_freeCounter (split.readable readable fits)
    refine ⟨bind_eq_ok_iff.mpr ⟨free, read, split.boundPieces_eq_ok fits⟩, ?_, ?_, ?_, ?_⟩
    · exact List.Pairwise.map _ (fun index other apart same =>
        apart (Nat.add_left_cancel (counterName_injective same))) List.nodup_range
    · exact fun index _below => isFree.fresh (Nat.le_add_right free index)
    · exact fun _opened _head _closed headAt => headAt.not_absent absent
    · intro other
      have alone : Split none [] (joined (headed ceiling free cuts) last) := .last absent
      have none : Fits other next 0 := fun index below => absurd below (Nat.not_lt_zero index)
      exact bind_eq_ok_iff.mpr ⟨next, readAgain, alone.boundPieces_eq_ok none⟩

/-- Blanks in a head do not count, zeros in front of a number do not, and the end of a `do` loop stays. -/
example : boundLoops 7 "int _loopIdx007; for ( ; ;) x; while(1) y; do z; while (true) ;" =
    .ok ("int _loopIdx007; for (int _loopIdx8 = 0; _loopIdx8 < 7; _loopIdx8++) x; " ++
      "for (int _loopIdx9 = 0; _loopIdx9 < 7; _loopIdx9++) y; do z; while (true) ;") := by
  repeat rw [String.toList_ofList]
  decide +kernel

def nines : Text := List.replicate maxNumeralDigits '9'

private theorem digitsValue_replicate (count : Nat) :
    Text.digitsValue (List.replicate count '9') + 1 = 10 ^ count := by
  induction count with
  | zero => rfl
  | succ count ih =>
      have last : (digitValue? '9').getD 0 = 9 := by decide
      unfold Text.digitsValue at ih ⊢
      rw [List.replicate_succ', List.foldl_append, List.foldl_cons, List.foldl_nil, last,
        Nat.pow_succ, ← ih]
      omega

private theorem isNumber_nines : IsNumber nines := by
  refine ⟨fun none => ?_, fun digit member => ?_⟩
  · exact absurd (List.replicate_eq_nil_iff _ |>.mp none) (by decide)
  · rw [List.eq_of_mem_replicate member]
    decide

/-- A declaration of the last counter that can be written, in front of an endless loop. -/
def lastCounter : Text := "int " ++ (counterStem ++ nines ++ ";\n") ++ ("for(;;)" ++ " \x7b \x7d\n")

private theorem words_lastCounter :
    words lastCounter = ["int".toList, counterStem ++ nines, "for".toList] := by
  have whole : lastCounter =
      "int" ++ ' ' :: (counterStem ++ nines ++ ';' :: "\nfor(;;) \x7b \x7d\n") := by
    have declared : "int ".toList = "int" ++ [' '] := by decide
    have behind : ";\n".toList ++ ("for(;;)" ++ " \x7b \x7d\n") = ';' :: "\nfor(;;) \x7b \x7d\n" := by decide
    unfold lastCounter
    generalize nines = digits
    rw [declared, ← behind]
    simp only [List.append_assoc, List.cons_append, List.nil_append]
  have one : IsOneWord (counterStem ++ nines) := by
    refine ⟨List.append_ne_nil_of_left_ne_nil (by decide) _, ?_⟩
    exact List.forall_mem_append.mpr ⟨by decide, isNumber_nines.oneWord.2⟩
  have fixed : words "int" = ["int".toList] ∧ words "\nfor(;;) \x7b \x7d\n" = ["for".toList] := by
    decide +kernel
  rw [whole, Text.words_append_mark (by decide), Text.words_append_mark (by decide),
    Text.words_of_oneWord one, fixed.1, fixed.2]
  rfl

private theorem headAt_lastCounter :
    HeadAt none lastCounter ("int " ++ (counterStem ++ nines ++ ";\n")) "for(;;)" " \x7b \x7d\n" := by
  have line : ";\n".toList = ";" ++ ['\n'] := by decide
  have plain : "for(;;)".toList = "for".toList ++ ('(' :: (';' :: (';' :: [')']))) := by decide
  refine ⟨rfl, ?_, ?_⟩
  · rw [line, ← List.append_assoc, ← List.append_assoc, Text.getLast?_append_cons_or]
    decide
  · rw [plain]
    have none : Blank [] := List.forall_mem_nil _
    exact .counted none none none none

theorem boundLoops_lastCounter :
    Readable lastCounter ∧ boundLoops iterationCeiling lastCounter = .error .longOutput := by
  have readable : Readable lastCounter := by
    intro digits _number member
    have own : counterStem ++ digits = counterStem ++ nines := by
      simpa only [words_lastCounter, List.mem_cons, List.not_mem_nil, or_false,
        counter_ne (by decide : '_' ∉ "int".toList), counter_ne (by decide : '_' ∉ "for".toList),
        false_or] using member
    rw [List.append_cancel_left own]
    exact (List.length_replicate ..).le
  obtain ⟨free, cuts, last, isFree, _whole, heads, _bounds, failed⟩ :=
    boundLoops_bounds_iff readable iterationCeiling
  refine ⟨readable, failed fun fits => ?_⟩
  obtain ⟨early, front, late, rfl, _opened, _closed⟩ := (heads _ _ _).mp headAt_lastCounter
  have written : free < 10 ^ maxNumeralDigits := (fits 0 (by simp)).2
  have used := isFree.above nines isNumber_nines (words_lastCounter ▸ by simp)
  have large := digitsValue_replicate maxNumeralDigits
  unfold nines at used
  omega

end Code
end ShaderBridge
