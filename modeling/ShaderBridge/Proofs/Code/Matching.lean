import ShaderBridge.Proofs.Code.Nesting
import ShaderBridge.Proofs.Code.Segmentation
set_option autoImplicit false

/-! Which bracket closes the one at an offset. The search passes over comments and counts brackets of
every kind alike, so it stops where openers and closers first balance in the code behind the offset
(`firstAt_closer?`), and that is the end of the group where brackets are nested
(`findCloser_balances`). -/

namespace ShaderBridge
namespace Code

open Text (leave)

/-- The characters of a text from one offset to another, both counted, that lie in no comment. -/
def codeBetween (text : Text) (first last : Nat) : Text :=
  leave (((commented text).drop first).take (last + 1 - first))
    ((text.drop first).take (last + 1 - first))

/-- From one offset to another, both counted, there are as many opening as closing brackets in the
code. -/
def Balanced (text : Text) (first last : Nat) : Prop :=
  (codeBetween text first last).countP isOpener = (codeBetween text first last).countP isCloser

instance (text : Text) (first last : Nat) : Decidable (Balanced text first last) :=
  inferInstanceAs (Decidable (_ = _))

/-- Brackets balance from one offset to another and, from the same offset, not sooner. -/
structure Closes (text : Text) (first last : Nat) : Prop where
  ordered : first ≤ last
  within : last < text.length
  balanced : Balanced text first last
  soonest : ∀ earlier, first ≤ earlier → earlier < last → ¬ Balanced text first earlier

theorem height_eq_countP (text : Text) :
    height text = (text.countP isOpener : Int) - text.countP isCloser := by
  induction text with
  | nil => rfl
  | cons char text ih =>
      rw [height_cons, ih, List.countP_cons, List.countP_cons]
      cases closes : isCloser char with
      | true =>
          rw [depthAfter_closer closes, not_isOpener_of_isCloser closes]
          simp only [Bool.false_eq_true, if_false, if_true]
          omega
      | false =>
          cases opens : isOpener char with
          | true =>
              rw [depthAfter_opener opens]
              simp only [Bool.false_eq_true, if_false, if_true]
              omega
          | false =>
              rw [depthAfter_plain opens closes]
              simp only [Bool.false_eq_true, if_false]
              omega

theorem balanced_iff {text : Text} {first last : Nat} :
    Balanced text first last ↔ height (codeBetween text first last) = 0 := by
  unfold Balanced
  rw [height_eq_countP]
  omega

/-- Behind an offset that lies in no comment, comments are found as from the start. -/
theorem commented_drop {text : Text} {first : Nat} (code : ¬ InComment text first) :
    (commented text).drop first = commented (text.drop first) := by
  induction text using comment_induction generalizing first with
  | done =>
      rw [List.drop_nil]
      exact List.drop_nil
  | code char text none ih =>
      cases first with
      | zero => rfl
      | succ first =>
          rw [commented_code none]
          exact ih (mt (inComment_succ none first).mpr code)
  | comment stretch rest found filled ih =>
      by_cases inside : first < stretch.length
      · exact absurd (inComment_of_lt found filled inside) code
      · obtain ⟨behind, rfl⟩ := Nat.exists_eq_add_of_le (Nat.le_of_not_lt inside)
        have marks := @List.drop_length_add_append _ (List.replicate stretch.length true)
          (commented rest) behind
        rw [List.length_replicate] at marks
        rw [commented_comment found filled, marks, List.drop_length_add_append]
        exact ih (mt (inComment_comment found filled behind).mpr code)

theorem codeBetween_drop {text : Text} {first : Nat} (code : ¬ InComment text first) (count : Nat) :
    codeBetween text first (first + count) = codeBetween (text.drop first) 0 count := by
  unfold codeBetween
  rw [commented_drop code, Nat.add_assoc, Nat.add_sub_cancel_left]
  rfl

section
variable {char : Char} {text : Text} (none : comment (char :: text) = none)

include none

theorem codeBetween_zero : codeBetween (char :: text) 0 0 = [char] := by
  unfold codeBetween
  rw [commented_code none]
  rfl

theorem codeBetween_succ (count : Nat) :
    codeBetween (char :: text) 0 (1 + count) = char :: codeBetween text 0 count := by
  unfold codeBetween
  rw [commented_code none, Nat.add_comm 1]
  rfl

end

section
variable {stretch rest : Text} (found : comment (stretch ++ rest) = some rest)
  (filled : stretch ≠ [])

include found filled

theorem codeBetween_of_lt {count : Nat} (inside : count < stretch.length) :
    codeBetween (stretch ++ rest) 0 count = [] := by
  have early : (stretch.take (count + 1)).length = count + 1 := List.length_take_of_le inside
  change leave ((commented (stretch ++ rest)).take (count + 1))
    ((stretch ++ rest).take (count + 1)) = []
  rw [commented_comment found filled, List.take_append_of_le_length (by rwa [List.length_replicate]),
    List.take_append_of_le_length inside, List.take_replicate, Nat.min_eq_left inside]
  have whole := Text.leave_all (stretch.take (count + 1))
  rwa [early] at whole

theorem codeBetween_comment (count : Nat) :
    codeBetween (stretch ++ rest) 0 (stretch.length + count) = codeBetween rest 0 count := by
  have marks := @List.take_length_add_append _ (List.replicate stretch.length true)
    (commented rest) (count + 1)
  rw [List.length_replicate] at marks
  change leave ((commented (stretch ++ rest)).take (stretch.length + (count + 1)))
    ((stretch ++ rest).take (stretch.length + (count + 1))) = _
  rw [commented_comment found filled, marks, List.take_length_add_append,
    Text.leave_append List.length_replicate, Text.leave_all]
  rfl

end

def FirstAt (holds : Nat → Prop) : Option Nat → Prop
  | some place => holds place ∧ ∀ earlier < place, ¬ holds earlier
  | none => ∀ place, ¬ holds place

theorem FirstAt.eq_some_iff {holds : Nat → Prop} {found : Option Nat} (first : FirstAt holds found)
    (place : Nat) : found = some place ↔ holds place ∧ ∀ earlier < place, ¬ holds earlier := by
  constructor
  · rintro rfl
    exact first
  · rintro ⟨here, soonest⟩
    cases found with
    | none => exact absurd here (first place)
    | some other =>
        rcases Nat.lt_trichotomy other place with less | same | more
        · exact absurd first.1 (soonest other less)
        · exact congrArg some same
        · exact absurd here (first.2 place more)

theorem FirstAt.eq_none_iff {holds : Nat → Prop} {found : Option Nat} (first : FirstAt holds found) :
    found = none ↔ ∀ place, ¬ holds place := by
  constructor
  · rintro rfl
    exact first
  · intro never
    cases found with
    | none => rfl
    | some place => exact absurd first.1 (never place)

/-- What does not hold for the first few numbers is looked for behind them. -/
theorem FirstAt.shift {holds later : Nat → Prop} {count : Nat} (early : ∀ place < count, ¬ holds place)
    (behind : ∀ place, holds (count + place) ↔ later place) {found : Option Nat}
    (first : FirstAt later found) : FirstAt holds (found.map (count + ·)) := by
  have reached : ∀ {place}, holds place → ∃ more, place = count + more ∧ later more := by
    intro place here
    obtain ⟨more, rfl⟩ := Nat.exists_eq_add_of_le (Nat.le_of_not_lt fun less => early place less here)
    exact ⟨more, rfl, (behind more).mp here⟩
  cases found with
  | none =>
      intro place here
      obtain ⟨more, _same, there⟩ := reached here
      exact first more there
  | some place =>
      refine ⟨(behind place).mpr first.1, fun earlier less here => ?_⟩
      obtain ⟨more, rfl, there⟩ := reached here
      exact first.2 more (Nat.lt_of_add_lt_add_left less) there

/-- At an offset the code so far leads from a depth to zero. -/
def Settles (text : Text) (depth place : Nat) : Prop :=
  place < text.length ∧ depth + height (codeBetween text 0 place) = 0

section
variable {char : Char} {text : Text} (none : comment (char :: text) = none)

include none

theorem settles_zero_iff (depth : Nat) : Settles (char :: text) depth 0 ↔ depthAfter char depth = 0 := by
  unfold Settles
  rw [codeBetween_zero none, depthAfter_eq char depth]
  simp [height]

theorem settles_succ_iff {depth deep : Nat} (deeper : depthAfter char depth = deep) (place : Nat) :
    Settles (char :: text) depth (1 + place) ↔ Settles text deep place := by
  unfold Settles
  rw [codeBetween_succ none, height_cons, ← deeper, depthAfter_eq char depth, List.length_cons]
  omega

theorem firstAt_settles_cons {depth deep : Nat} (deeper : depthAfter char depth = deep)
    (open_ : deep ≠ 0) {found : Option Nat} (first : FirstAt (Settles text deep) found) :
    FirstAt (Settles (char :: text) depth) (found.map (1 + ·)) := by
  refine first.shift (fun place less here => ?_) (settles_succ_iff none deeper)
  obtain rfl := Nat.lt_one_iff.mp less
  rw [settles_zero_iff none, deeper] at here
  exact open_ (Int.ofNat_eq_zero.mp here)

end

theorem firstAt_settles_comment {stretch rest : Text} (found : comment (stretch ++ rest) = some rest)
    (filled : stretch ≠ []) {depth : Nat} (open_ : depth ≠ 0) {place : Option Nat}
    (first : FirstAt (Settles rest depth) place) :
    FirstAt (Settles (stretch ++ rest) depth) (place.map (stretch.length + ·)) := by
  refine first.shift (fun place less here => ?_) fun place => ?_
  · have level := here.2
    rw [codeBetween_of_lt found filled less] at level
    exact open_ (Int.ofNat_eq_zero.mp ((Int.add_zero _).symm.trans level))
  · unfold Settles
    rw [codeBetween_comment found filled, List.length_append, Nat.add_lt_add_iff_left]

/-- Below an open bracket, the search gives the first place at which all that is open is closed. -/
theorem firstAt_closerFrom (text : Text) (depth offset : Nat) :
    ∃ found, closerFrom 0 (depth + 1) offset text = found.map (offset + ·) ∧
      FirstAt (Settles text (depth + 1)) found := by
  induction text using comment_induction generalizing depth offset with
  | done => exact ⟨none, rfl, fun _place here => absurd here.1 (Nat.not_lt_zero _)⟩
  | comment stretch rest comment filled ih =>
      obtain ⟨found, same, first⟩ := ih depth (offset + stretch.length)
      refine ⟨_, ?_, firstAt_settles_comment comment filled (Nat.succ_ne_zero depth) first⟩
      rw [closerFrom_comment comment filled, same, Option.map_map]
      exact Option.map_congr fun place _member => Nat.add_assoc _ _ _
  | code char text none ih =>
      have later : ∀ deep : Nat, depthAfter char (depth + 1 : Nat) = (deep + 1 : Nat) →
          closerFrom 0 (depth + 1) offset (char :: text) = closerFrom 0 (deep + 1) (offset + 1) text →
            ∃ found, closerFrom 0 (depth + 1) offset (char :: text) = found.map (offset + ·) ∧
              FirstAt (Settles (char :: text) (depth + 1)) found := by
        intro deep deeper next
        obtain ⟨found, same, first⟩ := ih deep (offset + 1)
        refine ⟨_, ?_, firstAt_settles_cons none deeper (Nat.succ_ne_zero deep) first⟩
        rw [next, same, Option.map_map]
        exact Option.map_congr fun place _member => Nat.add_assoc _ _ _
      cases opens : isOpener char with
      | true =>
          exact later (depth + 1) (depthAfter_opener opens _) (closerFrom_opener opens _ _)
      | false =>
          cases closes : isCloser char with
          | false =>
              exact later depth (depthAfter_plain opens closes _)
                (closerFrom_plain none opens closes _ _)
          | true =>
              have lower : depthAfter char (depth + 1 : Nat) = depth := by
                rw [depthAfter_closer closes, Int.natCast_succ, Int.add_sub_cancel]
              cases depth with
              | zero =>
                  refine ⟨some 0, ?_, (settles_zero_iff none 1).mpr lower, fun _early less => ?_⟩
                  · rw [closerFrom_closer closes]
                    rfl
                  · exact absurd less (Nat.not_lt_zero _)
              | succ depth =>
                  refine later depth lower ?_
                  rw [closerFrom_closer closes, if_neg (by omega), Nat.add_sub_cancel]

theorem firstAt_closer? {opener : Char} (opens : isOpener opener = true) (text : Text) :
    FirstAt (Settles (opener :: text) 0) (closer? (opener :: text)) := by
  obtain ⟨found, same, first⟩ := firstAt_closerFrom text 0 1
  have deeper : depthAfter opener (0 : Nat) = (1 : Nat) := depthAfter_opener opens _
  unfold closer?
  rw [closerFrom_opener opens, same]
  exact firstAt_settles_cons (comment_of_bracket (.inl opens) text) deeper Nat.one_ne_zero first

theorem settles_drop_iff {text : Text} {first : Nat} (code : ¬ InComment text first) (place : Nat) :
    Settles (text.drop first) 0 place ↔
      first + place < text.length ∧ Balanced text first (first + place) := by
  unfold Settles
  rw [balanced_iff, codeBetween_drop code, List.length_drop]
  omega

section
variable {text : Text} {first : Nat} {opener : Char} (stands : text[first]? = some opener)
  (opens : isOpener opener = true)

include stands opens

theorem findCloser_eq : findCloser text first =
    .ok ((closer? (text.drop first)).map (first + ·)) := by
  obtain ⟨within, same⟩ := List.getElem?_eq_some_iff.mp stands
  unfold findCloser
  rw [List.drop_eq_getElem_cons within, same]
  simp only [opens, if_true]

theorem firstAt_drop : FirstAt (Settles (text.drop first) 0) (closer? (text.drop first)) := by
  obtain ⟨within, same⟩ := List.getElem?_eq_some_iff.mp stands
  rw [List.drop_eq_getElem_cons within, same]
  exact firstAt_closer? opens _

variable (code : ¬ InComment text first)

include code

theorem findCloser_eq_some_iff (last : Nat) :
    findCloser text first = .ok (some last) ↔ Closes text first last := by
  have search := (firstAt_drop stands opens).eq_some_iff
  rw [findCloser_eq stands opens, Except.ok.injEq, Option.map_eq_some_iff]
  constructor
  · rintro ⟨place, found, rfl⟩
    obtain ⟨here, soonest⟩ := (search place).mp found
    obtain ⟨within, balanced⟩ := (settles_drop_iff code place).mp here
    refine ⟨Nat.le_add_right first place, within, balanced, fun earlier behind less sooner => ?_⟩
    obtain ⟨other, rfl⟩ := Nat.exists_eq_add_of_le behind
    have fewer : other < place := Nat.lt_of_add_lt_add_left less
    exact soonest other fewer ((settles_drop_iff code other).mpr ⟨less.trans within, sooner⟩)
  · rintro ⟨ordered, within, balanced, soonest⟩
    obtain ⟨place, rfl⟩ := Nat.exists_eq_add_of_le ordered
    refine ⟨place, (search place).mpr ⟨(settles_drop_iff code place).mpr ⟨within, balanced⟩, ?_⟩, rfl⟩
    intro other less here
    exact soonest (first + other) (Nat.le_add_right first other) (Nat.add_lt_add_left less first)
      ((settles_drop_iff code other).mp here).2

theorem findCloser_eq_none_iff : findCloser text first = .ok none ↔
    ∀ last, first ≤ last → last < text.length → ¬ Balanced text first last := by
  rw [findCloser_eq stands opens, Except.ok.injEq, Option.map_eq_none_iff,
    (firstAt_drop stands opens).eq_none_iff]
  constructor
  · intro never last ordered within balanced
    obtain ⟨place, rfl⟩ := Nat.exists_eq_add_of_le ordered
    exact never place ((settles_drop_iff code place).mpr ⟨within, balanced⟩)
  · intro never place here
    obtain ⟨within, balanced⟩ := (settles_drop_iff code place).mp here
    exact never (first + place) (Nat.le_add_right first place) within balanced

end

/-- The bracket that closes an opening bracket of the code. Where the text goes on with a properly nested
group, it is the bracket at the end of the group. In any text it is the one at which opening and closing
brackets of the code first balance, and there is none just where they never do. -/
theorem findCloser_balances {text : Text} {first : Nat} {opener : Char}
    (stands : text[first]? = some opener) (opens : isOpener opener = true)
    (code : ¬ InComment text first) :
    (∀ pair ∈ bracketPairs, ∀ inner rest, text.drop first = pair.1 :: (inner ++ pair.2 :: rest) →
      NestedBefore (pair.2 :: rest) inner →
        findCloser text first = .ok (some (first + (inner.length + 1)))) ∧
    (∀ last, findCloser text first = .ok (some last) ↔ Closes text first last) ∧
    (findCloser text first = .ok none ↔
      ∀ last, first ≤ last → last < text.length → ¬ Balanced text first last) := by
  refine ⟨?_, findCloser_eq_some_iff stands opens code, findCloser_eq_none_iff stands opens code⟩
  intro pair known inner rest group nested
  obtain ⟨begins, _shuts, closes, _slash, _other, _star⟩ := bracketPairs_spec pair known
  rw [findCloser_eq stands opens, group, closer?_of_nestedBefore begins closes nested]
  rfl

theorem findCloser_balances_of_bracketed_comment :
    "/* ( */ f(/* ) */[b]// )\n) + c".toList[9]? = some '(' ∧
      ¬ InComment "/* ( */ f(/* ) */[b]// )\n) + c".toList 9 ∧
      findCloser "/* ( */ f(/* ) */[b]// )\n) + c".toList 9 = .ok (some 25) ∧
      Closes "/* ( */ f(/* ) */[b]// )\n) + c".toList 9 25 := by
  have stands : "/* ( */ f(/* ) */[b]// )\n) + c".toList[9]? = some '(' := by decide
  have code : ¬ InComment "/* ( */ f(/* ) */[b]// )\n) + c".toList 9 := by
    unfold InComment
    decide
  obtain ⟨grouped, placed, _unclosed⟩ := findCloser_balances stands (by decide) code
  have line : NestedBefore ") + c".toList ("// )".toList ++ ['\n']) :=
    .comment (by decide) (by decide) (.plain (by decide) (by decide) (by decide) .nil)
  have index : NestedBefore ") + c".toList ('[' :: (['b'] ++ ']' :: ("// )".toList ++ ['\n']))) :=
    @NestedBefore.group _ ('[', ']') _ _ (by decide)
      (.plain (by decide) (by decide) (by decide) .nil) line
  have nested : NestedBefore ") + c".toList
      ("/* ) */".toList ++ '[' :: (['b'] ++ ']' :: ("// )".toList ++ ['\n']))) :=
    .comment (by decide) (by decide) index
  have found := grouped ('(', ')') (by decide) _ " + c".toList (by decide) nested
  exact ⟨stands, code, found, (placed 25).mp found⟩

/-- One count serves all kinds of brackets, so one kind may close another. -/
example : findCloser "(a ] b) /* ( ".toList 0 = .ok (some 3) ∧
    findCloser "(a /* ) ".toList 0 = .ok none := by decide

end Code
end ShaderBridge
