import ShaderBridge.Proofs.Code.Function
import ShaderBridge.Proofs.Code.Loop
import ShaderBridge.Proofs.Code.Nesting
import ShaderBridge.Proofs.Code.VectorCall
set_option autoImplicit false

/-! Sites of constructor calls. A text is written out from one opening parenthesis to the next: a
parenthesis that no vector type stands in front of is passed over, and so is one whose call repeats
nothing (`expandAfter_kept`); otherwise the argument is repeated up to the bracket that closes the call
(`expandAfter_repeated`). -/

namespace ShaderBridge
namespace Code

open Text (Blank IsOneWord)

structure WellNamed (types : VectorTypes) : Prop where
  named : ∀ entry ∈ types, IsOneWord entry.1
  distinct : ∀ first ∈ types, ∀ second ∈ types, first.1 = second.1 → first.2 = second.2

/-- A text that ends with the opening of a constructor call: the name of a type of `size` components,
white space, and a parenthesis. The text stands behind the character `before`. -/
def Opens (types : VectorTypes) (before : Option Char) (size : Nat) (text : Text) : Prop :=
  ∃ front name gap, (name, size) ∈ types ∧ Blank gap ∧
    (front.getLast?.or before).any joinsName = false ∧ text = front ++ (name ++ (gap ++ ['(']))

def Parts (mark : Char) : Prop := isWord mark = false ∧ isBlank mark = false

theorem parts_of_isCloser {mark : Char} (closes : isCloser mark = true) : Parts mark := by
  refine ⟨isWord_of_isCloser closes, ?_⟩
  unfold isCloser at closes
  simp only [Bool.or_eq_true, beq_iff_eq] at closes
  rcases closes with (rfl | rfl) | rfl <;> decide

theorem ne_parenthesis_of_isCloser {mark : Char} (closes : isCloser mark = true) : mark ≠ '(' := by
  rintro rfl
  cases closes

theorem parts_parenthesis : Parts '(' := ⟨by decide, by decide⟩

section
variable {types : VectorTypes} (well : WellNamed types)

theorem Parts.not_mem_opening {mark : Char} (parts : Parts mark) {name gap : Text} (one : IsOneWord name)
    (blank : Blank gap) : mark ∉ name ++ gap := by
  intro member
  rcases List.mem_append.mp member with letter | white
  · exact absurd (parts.1.symm.trans (one.2 mark letter)) nofun
  · exact absurd (parts.2.symm.trans (blank mark white)) nofun

private theorem last_word_unique {front name gap other second space : Text}
    (one : IsOneWord name) (another : IsOneWord second) (blank : Blank gap) (white : Blank space)
    (apart : front.getLast?.any isWord = false) (alone : other.getLast?.any isWord = false)
    (same : front ++ (name ++ gap) = other ++ (second ++ space)) : front = other ∧ name = second := by
  have read : ∀ {front name gap : Text}, IsOneWord name → Blank gap →
      front.getLast?.any isWord = false →
        (front ++ (name ++ gap)).reverse.dropWhile isBlank = name.reverse ++ front.reverse ∧
          (name.reverse ++ front.reverse).takeWhile isWord = name.reverse := by
    intro front name gap one blank apart
    have letters : ∀ char ∈ name.reverse, isWord char = true :=
      fun char member => one.2 char (List.mem_reverse.mp member)
    constructor
    · rw [List.reverse_append, List.reverse_append, List.append_assoc,
        List.dropWhile_append_of_pos fun char member => blank char (List.mem_reverse.mp member)]
      obtain ⟨char, rest, split⟩ := List.exists_cons_of_ne_nil (mt List.reverse_eq_nil_iff.mp one.1)
      rw [split] at letters ⊢
      refine List.dropWhile_cons_of_neg (Bool.eq_false_iff.mp ?_)
      by_contra dark
      exact absurd ((isWord_of_isBlank (Bool.eq_true_of_not_eq_false dark)).symm.trans
        (letters char List.mem_cons_self)) nofun
    · rw [List.takeWhile_append_of_pos letters]
      rw [← List.head?_reverse] at apart
      cases turned : front.reverse with
      | nil => rw [List.takeWhile_nil, List.append_nil]
      | cons char rest =>
          rw [turned] at apart
          have mark : isWord char = false := apart
          rw [List.takeWhile_cons_of_neg (Bool.eq_false_iff.mp mark), List.append_nil]
  obtain ⟨left, first⟩ := read one blank apart
  obtain ⟨right, last⟩ := read another white alone
  have turned : name.reverse ++ front.reverse = second.reverse ++ other.reverse := by
    rw [← left, ← right, same]
  have names : name.reverse = second.reverse := by rw [← first, ← last, turned]
  refine ⟨?_, List.reverse_injective names⟩
  rw [names] at turned
  exact List.reverse_injective (List.append_cancel_left turned)

theorem not_isWord_of_not_joinsName {before : Option Char} {front : Text}
    (apart : (front.getLast?.or before).any joinsName = false) :
    front.getLast?.any isWord = false := by
  cases last : front.getLast? with
  | none => rfl
  | some char =>
      rw [last] at apart
      exact (Bool.or_eq_false_iff.mp (show (isWord char || char == '.') = false from apart)).1

include well

theorem opens_unique {before : Option Char} {size count : Nat} {text : Text}
    (opens : Opens types before size text) (again : Opens types before count text) :
    size = count := by
  obtain ⟨front, name, gap, member, blank, apart, rfl⟩ := opens
  obtain ⟨other, second, space, known, white, alone, same⟩ := again
  rw [← List.append_assoc name, ← List.append_assoc, ← List.append_assoc second,
    ← List.append_assoc other] at same
  obtain ⟨_fronts, rfl⟩ := last_word_unique (well.named _ member) (well.named _ known) blank white
    (not_isWord_of_not_joinsName apart) (not_isWord_of_not_joinsName alone) (List.append_cancel_right same)
  exact well.distinct _ member _ known rfl

/-- Nothing in front of a parting mark belongs to an opening behind it. -/
theorem opens_append_iff {before : Option Char} {size : Nat} {mark : Char} (parts : Parts mark)
    (front : Text) {text : Text} (filled : text ≠ []) :
    Opens types before size (front ++ mark :: text) ↔ Opens types (some mark) size text := by
  have last : ∀ more : Text,
      (front ++ [mark] ++ more).getLast?.or before = more.getLast?.or (some mark) := by
    intro more
    rw [List.append_assoc, List.singleton_append, Text.getLast?_append_cons_or]
  rw [List.append_cons]
  constructor
  · rintro ⟨first, name, gap, member, blank, apart, same⟩
    rcases List.append_eq_append_iff.mp same with ⟨more, rfl, rfl⟩ | ⟨more, split, inner⟩
    · exact ⟨more, name, gap, member, blank, by rwa [last] at apart, rfl⟩
    · rcases List.eq_nil_or_concat' more with rfl | ⟨more, other, rfl⟩
      · rw [List.append_nil] at split
        rw [← split, ← List.append_nil (front ++ [mark]), last] at apart
        exact ⟨[], name, gap, member, blank, apart, inner.symm⟩
      · -- the mark would stand in the name or in the white space behind it
        rw [← List.append_assoc] at split
        obtain ⟨_front, equal⟩ := List.append_inj' split rfl
        obtain rfl : mark = other := List.singleton_injective equal
        have shorter := congrArg List.dropLast inner
        rw [← List.append_assoc, List.dropLast_concat, List.dropLast_append_of_ne_nil filled]
          at shorter
        refine absurd ?_ (parts.not_mem_opening (well.named _ member) blank)
        rw [shorter]
        simp
  · rintro ⟨first, name, gap, member, blank, apart, rfl⟩
    exact ⟨front ++ [mark] ++ first, name, gap, member, blank, by rwa [last],
      (List.append_assoc _ _ _).symm⟩

private theorem callAt_eq_some_iff {before : Option Char} {flat rest behind : Text} {size : Nat}
    (plain : '(' ∉ flat) :
    callAt types before (flat ++ '(' :: rest) = some (size, behind) ↔
      before.any joinsName = false ∧ behind = rest ∧
        ∃ name gap, (name, size) ∈ types ∧ Blank gap ∧ flat = name ++ gap := by
  have cut : ∀ {count : Nat} {more : Text},
      callAt types before (flat ++ '(' :: rest) = some (count, more) →
        before.any joinsName = false ∧ more = rest ∧
          ∃ name gap, (name, count) ∈ types ∧ Blank gap ∧ flat = name ++ gap := by
    intro count more found
    obtain ⟨outside, name, gap, member, blank, same⟩ := callAt_eq_some found
    have absent := parts_parenthesis.not_mem_opening (well.named _ member) blank
    obtain ⟨rfl, rfl⟩ := Text.append_cons_cancel plain absent same
    exact ⟨outside, rfl, name, gap, member, blank, rfl⟩
  constructor
  · exact cut
  · rintro ⟨outside, rfl, name, gap, member, blank, rfl⟩
    obtain ⟨⟨count, more⟩, found⟩ := exists_callAt outside member blank behind
    rw [← List.append_assoc] at found
    obtain ⟨_outside, rfl, other, space, known, white, same⟩ := cut found
    have outer : ([] : Text) ++ (name ++ gap) = [] ++ (other ++ space) := same
    obtain ⟨_fronts, rfl⟩ := last_word_unique (well.named _ member) (well.named _ known) blank white
      rfl rfl outer
    have sizes : size = count := well.distinct _ member _ known rfl
    rw [found, sizes]

omit well in
theorem nextCall_eq_none_of_flat {before : Option Char} {text : Text} (plain : '(' ∉ text) :
    expandFrom.nextCall types before text = none := by
  cases found : expandFrom.nextCall types before text with
  | none => rfl
  | some call =>
      obtain ⟨passed, size, rest⟩ := call
      obtain ⟨front, name, gap, _member, _blank, rfl, rfl, _call, _first⟩ := nextCall_eq_some found
      exact absurd (by simp) plain

/-- The first parenthesis opens the next call, when it opens one. -/
theorem nextCall_of_opens {before : Option Char} {flat : Text} {size : Nat} (plain : '(' ∉ flat)
    (opens : Opens types before size (flat ++ ['('])) (rest : Text) :
    expandFrom.nextCall types before (flat ++ '(' :: rest) =
      some (flat ++ ['('], size, rest) := by
  obtain ⟨front, name, gap, member, blank, apart, split⟩ := id opens
  rw [← List.append_assoc name, ← List.append_assoc] at split
  obtain rfl : flat = front ++ (name ++ gap) := List.append_cancel_right split
  have call : callAt types (front.getLast?.or before) (name ++ gap ++ '(' :: rest) =
      some (size, rest) :=
    (callAt_eq_some_iff well fun inner => plain (List.mem_append_right front inner)).mpr
      ⟨apart, rfl, name, gap, member, blank, rfl⟩
  have whole : front ++ (name ++ gap) ++ '(' :: rest = front ++ (name ++ gap ++ '(' :: rest) :=
    List.append_assoc _ _ _
  cases found : expandFrom.nextCall types before (front ++ (name ++ gap) ++ '(' :: rest) with
  | none =>
      rw [nextCall_eq_none found front _ whole] at call
      cases call
  | some next =>
      obtain ⟨passed, count, more⟩ := next
      obtain ⟨other, second, space, known, white, rfl, same, again, first⟩ := nextCall_eq_some found
      have absent := parts_parenthesis.not_mem_opening (well.named _ known) white
      by_cases earlier : '(' ∈ other
      · -- a call behind the first parenthesis is not the first one
        refine absurd call ?_
        rw [first front _ whole]
        · exact nofun
        · by_contra long
          rw [List.append_assoc other] at same
          rcases List.append_eq_append_iff.mp same with ⟨between, rfl, _rest⟩ | ⟨between, inner, _rest⟩
          · have filled : 0 < name.length := List.length_pos_iff.mpr (well.named _ member).1
            simp only [List.length_append] at long
            omega
          · exact plain (inner ▸ List.mem_append_left between earlier)
      · have split : front ++ (name ++ gap) ++ '(' :: rest =
            other ++ (second ++ space) ++ '(' :: more := by
          rw [same]
          simp
        obtain ⟨flat, rfl⟩ := Text.append_cons_cancel plain
          (fun member => (List.mem_append.mp member).elim earlier absent) split
        have opened : Opens types before count (front ++ (name ++ gap) ++ ['(']) := by
          refine ⟨other, second, space, known, white, (callAt_eq_some again).1, ?_⟩
          rw [flat]
          simp
        rw [opens_unique well opens opened, flat]
        simp

private theorem callAt_eq_none_of_not_opens {before : Option Char} {flat : Text} (plain : '(' ∉ flat)
    (closed : ∀ size, ¬ Opens types before size (flat ++ ['('])) (rest : Text) :
    callAt types before (flat ++ '(' :: rest) = none := by
  refine Option.eq_none_iff_forall_ne_some.mpr fun (size, behind) found => closed size ?_
  obtain ⟨outside, _behind, name, gap, member, blank, rfl⟩ :=
    (callAt_eq_some_iff well plain).mp found
  exact ⟨[], name, gap, member, blank, outside, List.append_assoc _ _ _⟩

/-- Otherwise the next call is the next one behind it. -/
theorem nextCall_of_not_opens {before : Option Char} {flat : Text} (plain : '(' ∉ flat)
    (closed : ∀ size, ¬ Opens types before size (flat ++ ['('])) (rest : Text) :
    expandFrom.nextCall types before (flat ++ '(' :: rest) =
      (expandFrom.nextCall types (some '(') rest).map fun (passed, found) =>
        (flat ++ '(' :: passed, found) := by
  have missed := callAt_eq_none_of_not_opens well plain closed rest
  induction flat generalizing before with
  | nil => exact nextCall_of_none missed
  | cons char flat ih =>
      have inner : '(' ∉ flat := mt (List.mem_cons_of_mem char) plain
      have later : ∀ size, ¬ Opens types (some char) size (flat ++ ['(']) := by
        rintro size ⟨front, name, gap, member, blank, apart, split⟩
        refine closed size ⟨char :: front, name, gap, member, blank, ?_, congrArg (char :: ·) split⟩
        rwa [Text.getLast?_cons_or]
      rw [List.cons_append] at missed ⊢
      rw [nextCall_of_none missed, ih inner later (callAt_eq_none_of_not_opens well inner later rest), Option.map_map]
      rfl

end

/-- The text between the parentheses of a call of `size` components is a simple scalar that names no
vector, so it stands for each of the components. -/
structure Repeats (vectors : List Text) (size : Nat) (inner : Text) : Prop where
  several : 1 < size
  simple : isSimpleScalar inner.trim = true
  scalar : lastComponent inner.trim ∉ vectors

section
variable {vectors : List Text} {size : Nat} {inner : Text}

theorem Repeats.not_mem (repeats : Repeats vectors size inner) {mark : Char} (parts : Parts mark)
    (other : mark ∉ (".+-" : Text)) : mark ∉ inner := by
  have none := count_of_isSimpleScalar parts.1 other repeats.simple
  rw [Text.trim_eq_self (Text.trimmed_trim inner)] at none
  obtain ⟨before, after, left, right, same⟩ := Text.exists_trim inner
  have absent : ∀ {blanks : Text}, Blank blanks → mark ∉ blanks :=
    fun blank member => absurd (parts.2.symm.trans (blank mark member)) nofun
  rw [same]
  simp only [List.mem_append, not_or]
  exact ⟨⟨absent left, List.count_eq_zero.mp none⟩, absent right⟩

theorem Repeats.dark (repeats : Repeats vectors size inner) : ¬ Blank inner := by
  intro blank
  have empty := Text.trim_eq_nil_iff.mpr blank
  have simple := repeats.simple
  rw [empty] at simple
  exact absurd simple (by decide)

theorem Repeats.flat (repeats : Repeats vectors size inner) :
    ∀ char ∈ inner, isOpener char = false ∧ isCloser char = false ∧ char ∉ ([','] : Text) := by
  intro char member
  have marks : ∀ mark ∈ ("([{)]}," : Text), Parts mark ∧ mark ∉ (".+-" : Text) := by
    unfold Parts
    decide
  have apart : char ∉ ("([{)]}," : Text) := by
    intro mark
    obtain ⟨parts, other⟩ := marks char mark
    exact repeats.not_mem parts other member
  obtain ⟨opens, closes⟩ := not_bracket_of_not_mem fun bracket =>
    apart ((by decide : ("([{)]}" : Text) ⊆ "([{)]},") bracket)
  exact ⟨opens, closes, fun comma => apart ((by decide : ([','] : Text) ⊆ "([{)]},") comma)⟩

theorem Repeats.closer? (repeats : Repeats vectors size inner) {closer : Char}
    (closes : isCloser closer = true) (rest : Text) :
    closer? ('(' :: (inner ++ closer :: rest)) = some (inner.length + 1) := by
  have plain := uncommented_of_not_mem (repeats.not_mem ⟨by decide, by decide⟩ (by decide))
  exact closer?_of_nested (nested_of_flat repeats.flat) plain closes

/-- What is repeated is a simple scalar between the parentheses. -/
theorem repeatedArgument?_eq_some_iff {text argument closing : Text} :
    repeatedArgument? vectors size text = some (argument, closing) ↔
      ∃ inner, text = inner ++ closing ∧ argument = inner.trim ∧
        closing.head?.any isCloser = true ∧ Repeats vectors size inner := by
  constructor
  · intro found
    obtain ⟨close, closed, found⟩ := Option.bind_eq_some_iff.mp found
    obtain ⟨inner, rest, rfl, rfl, closes⟩ := closer?_eq_some rfl closed
    rw [Nat.add_sub_cancel, List.take_left, List.drop_left] at found
    split at found
    · next other single =>
        obtain rfl := splitArguments_eq_singleton single
        obtain ⟨allowed, same⟩ := Option.ite_none_right_eq_some.mp found
        cases same
        obtain ⟨both, unknown⟩ := Bool.and_eq_true_iff.mp allowed
        obtain ⟨several, simple⟩ := Bool.and_eq_true_iff.mp both
        refine ⟨inner, rfl, rfl, closes, of_decide_eq_true several, simple, fun member => ?_⟩
        rw [List.contains_iff_mem.mpr member] at unknown
        cases unknown
    · cases found
  · rintro ⟨inner, rfl, rfl, closes, repeats⟩
    cases closing with
    | nil => cases closes
    | cons closer rest =>
        have single : splitArguments inner = [inner.trim] :=
          splitArguments_single repeats.dark (nested_of_flat repeats.flat)
        have absent : vectors.contains (lastComponent inner.trim) = false := by
          rw [Bool.eq_false_iff]
          exact fun member => repeats.scalar (List.contains_iff_mem.mp member)
        unfold repeatedArgument?
        rw [repeats.closer? closes, Option.bind_eq_bind, Option.bind_some, Nat.add_sub_cancel,
          List.take_left, List.drop_left, single]
        simp only [repeats.several, repeats.simple, absent, decide_true, Bool.not_false, Bool.and_self,
          if_true]

theorem repeatedArgument?_of_repeats (repeats : Repeats vectors size inner) {closer : Char}
    (closes : isCloser closer = true) (rest : Text) :
    repeatedArgument? vectors size (inner ++ closer :: rest) = some (inner.trim, closer :: rest) :=
  repeatedArgument?_eq_some_iff.mpr ⟨inner, rfl, rfl, closes, repeats⟩

end

def expandAfter (types : VectorTypes) (vectors : List Text) (before : Option Char) (text : Text) :
    Text :=
  expandFrom types vectors (text.count '(') before text

def copies (size : Nat) (inner : Text) : Text := Text.join ", " (List.replicate size inner.trim)

section
variable {types : VectorTypes} {vectors : List Text}

theorem not_mem_copies {size : Nat} {inner : Text} (repeats : Repeats vectors size inner) {mark : Char}
    (parts : Parts mark) (other : mark ∉ (",.+-" : Text)) : mark ∉ copies size inner := by
  have scalar : mark ∉ (".+-" : Text) := mt (List.mem_cons_of_mem ',') other
  have argument : inner.trim.count mark = 0 := by
    have fewer := Text.count_trim_le inner mark
    have none := List.count_eq_zero.mpr (repeats.not_mem parts scalar)
    omega
  have separator : (", " : Text).count mark = 0 := by
    apply List.count_eq_zero.mpr
    intro member
    rcases List.mem_pair.mp member with rfl | rfl
    · exact other (by decide)
    · exact absurd parts.2 (by decide)
  apply List.count_eq_zero.mp
  unfold copies
  rw [Text.count_join, List.map_replicate, argument, separator, List.sum_replicate]
  rfl

theorem expandedArguments_eq_some {size : Nat} {text arguments closing : Text}
    (found : expandedArguments vectors size text = some (arguments, closing)) :
    ∃ inner, text = inner ++ closing ∧ arguments = copies size inner ∧
      closing.head?.any isCloser = true ∧ Repeats vectors size inner := by
  obtain ⟨⟨argument, behind⟩, repeated, same⟩ := Option.map_eq_some_iff.mp found
  cases same
  obtain ⟨inner, rfl, rfl, closes, repeats⟩ := repeatedArgument?_eq_some_iff.mp repeated
  exact ⟨inner, rfl, rfl, closes, repeats⟩

/-- One more round than there are parentheses left changes nothing. -/
private theorem expandFrom_congr {first second : Nat} {before : Option Char} {text : Text}
    (enough : text.count '(' ≤ first) (plenty : text.count '(' ≤ second) :
    expandFrom types vectors first before text = expandFrom types vectors second before text := by
  have alone : ∀ {rounds : Nat} {before : Option Char} {text : Text}, text.count '(' = 0 →
      expandFrom types vectors rounds before text = text := by
    intro rounds before text none
    cases rounds with
    | zero => rfl
    | succ rounds =>
        rw [expandFrom, nextCall_eq_none_of_flat (List.count_eq_zero.mp none)]
  induction first generalizing second before text with
  | zero => rw [alone (Nat.le_zero.mp enough), alone (Nat.le_zero.mp enough)]
  | succ first ih =>
      cases second with
      | zero => rw [alone (Nat.le_zero.mp plenty), alone (Nat.le_zero.mp plenty)]
      | succ second =>
          rw [expandFrom, expandFrom]
          cases next : expandFrom.nextCall types before text with
          | none => rfl
          | some call =>
              obtain ⟨passed, size, rest⟩ := call
              have fewer : rest.count '(' + 1 ≤ text.count '(' := by
                obtain ⟨front, name, gap, _member, _blank, rfl, rfl, _call, _first⟩ :=
                  nextCall_eq_some next
                simp only [List.count_append, List.count_cons_self, List.count_nil]
                omega
              have again : ∀ {more : Text}, more.count '(' ≤ rest.count '(' →
                  passed ++ expandFrom types vectors first (some '(') more =
                    passed ++ expandFrom types vectors second (some '(') more := by
                intro more less
                exact congrArg (passed ++ ·) (ih (by omega) (by omega))
              simp only
              cases out : expandedArguments vectors size rest with
              | none => exact again (Nat.le_refl _)
              | some both =>
                  obtain ⟨arguments, closing⟩ := both
                  obtain ⟨inner, rfl, rfl, _closes, repeats⟩ := expandedArguments_eq_some out
                  apply again
                  rw [List.count_append, List.count_append,
                    List.count_eq_zero.mpr (not_mem_copies repeats parts_parenthesis (by decide))]
                  omega

theorem expandFrom_eq_expandAfter {rounds : Nat} {before : Option Char} {text : Text}
    (enough : text.count '(' ≤ rounds) :
    expandFrom types vectors rounds before text = expandAfter types vectors before text :=
  expandFrom_congr enough (Nat.le_refl _)

theorem expandAfter_flat {before : Option Char} {text : Text} (plain : '(' ∉ text) :
    expandAfter types vectors before text = text := by
  unfold expandAfter
  rw [List.count_eq_zero.mpr plain]
  rfl

end

section
variable {types : VectorTypes} (well : WellNamed types) {vectors : List Text}

/-- The first parenthesis of a text opens a call that repeats nothing, or it opens no call. -/
def Idle (types : VectorTypes) (vectors : List Text) (before : Option Char) (flat rest : Text) : Prop :=
  ∀ size, Opens types before size (flat ++ ['(']) → repeatedArgument? vectors size rest = none

/-- What stands between a parenthesis and the bracket behind it is repeated, or the parenthesis is
idle. -/
theorem idle_or_repeats (types : VectorTypes) (vectors : List Text) (before : Option Char)
    (flat rest : Text) :
    Idle types vectors before flat rest ∨
      ∃ size inner closer behind, rest = inner ++ closer :: behind ∧ isCloser closer = true ∧
        Opens types before size (flat ++ ['(']) ∧ Repeats vectors size inner := by
  by_cases idle : Idle types vectors before flat rest
  · exact .inl idle
  · unfold Idle at idle
    obtain ⟨size, further⟩ := not_forall.mp idle
    obtain ⟨opens, some⟩ := Classical.not_imp.mp further
    obtain ⟨⟨argument, closing⟩, found⟩ := Option.ne_none_iff_exists'.mp some
    obtain ⟨inner, rfl, _argument, closes, repeats⟩ := repeatedArgument?_eq_some_iff.mp found
    cases closing with
    | nil => cases closes
    | cons closer behind => exact .inr ⟨size, inner, closer, behind, rfl, closes, opens, repeats⟩

include well

theorem expandAfter_idle {before : Option Char} {flat rest : Text} (plain : '(' ∉ flat)
    (idle : Idle types vectors before flat rest) :
    expandAfter types vectors before (flat ++ '(' :: rest) =
      flat ++ '(' :: expandAfter types vectors (some '(') rest := by
  have counted : (flat ++ '(' :: rest).count '(' = rest.count '(' + 1 := by
    rw [List.count_append, List.count_eq_zero.mpr plain, List.count_cons_self, Nat.zero_add]
  unfold expandAfter
  rw [counted, expandFrom]
  by_cases opened : ∃ size, Opens types before size (flat ++ ['('])
  · obtain ⟨size, opens⟩ := opened
    rw [nextCall_of_opens well plain opens]
    simp only
    unfold expandedArguments
    rw [idle size opens]
    exact List.append_assoc _ _ _
  · rw [nextCall_of_not_opens well plain (not_exists.mp opened)]
    -- the round is not used up, and one round less is enough behind the parenthesis
    have more : expandFrom types vectors (rest.count '(' + 1) (some '(') rest =
        expandFrom types vectors (rest.count '(') (some '(') rest :=
      expandFrom_congr (Nat.le_succ _) (Nat.le_refl _)
    rw [← more, expandFrom]
    cases expandFrom.nextCall types (some '(') rest with
    | none => rfl
    | some call =>
        obtain ⟨passed, size, behind⟩ := call
        simp only [Option.map_some]
        cases expandedArguments vectors size behind with
        | none => exact List.append_assoc _ _ _
        | some both => exact List.append_assoc _ _ _

private theorem expandAfter_opened {before : Option Char} {flat inner rest : Text} {size : Nat}
    {closer : Char} (plain : '(' ∉ flat) (opens : Opens types before size (flat ++ ['(']))
    (closes : isCloser closer = true) (repeats : Repeats vectors size inner) :
    expandAfter types vectors before (flat ++ '(' :: (inner ++ closer :: rest)) =
      flat ++ '(' :: expandAfter types vectors (some '(') (copies size inner ++ closer :: rest) := by
  have counted : (flat ++ '(' :: (inner ++ closer :: rest)).count '(' =
      (inner ++ closer :: rest).count '(' + 1 := by
    rw [List.count_append, List.count_eq_zero.mpr plain, List.count_cons_self, Nat.zero_add]
  have enough : (copies size inner ++ closer :: rest).count '(' ≤
      (inner ++ closer :: rest).count '(' := by
    rw [List.count_append, List.count_append,
      List.count_eq_zero.mpr (not_mem_copies repeats parts_parenthesis (by decide))]
    omega
  rw [← expandFrom_eq_expandAfter enough]
  unfold expandAfter
  rw [counted, expandFrom, nextCall_of_opens well plain opens]
  simp only
  unfold expandedArguments
  rw [repeatedArgument?_of_repeats repeats closes]
  exact List.append_assoc _ _ _

/-- A mark that belongs to no call parts what is written out in front of it from what is behind it. -/
theorem expandAfter_mark {before : Option Char} {flat rest : Text} {mark : Char} (parts : Parts mark)
    (other : mark ≠ '(') (plain : '(' ∉ flat) :
    expandAfter types vectors before (flat ++ mark :: rest) =
      flat ++ mark :: expandAfter types vectors (some mark) rest := by
  by_cases opening : '(' ∈ rest
  · obtain ⟨next, behind, rfl, absent⟩ := List.eq_append_cons_of_mem opening
    have longer : '(' ∉ flat ++ mark :: next := by
      simp only [List.mem_append, List.mem_cons, not_or]
      exact ⟨plain, fun same => other same.symm, absent⟩
    have whole : flat ++ mark :: (next ++ '(' :: behind) = flat ++ mark :: next ++ '(' :: behind := by
      simp
    have shifted : ∀ size, Opens types before size (flat ++ mark :: next ++ ['(']) ↔
        Opens types (some mark) size (next ++ ['(']) := by
      intro size
      rw [List.append_assoc, List.cons_append]
      exact opens_append_iff well parts flat
        (List.append_ne_nil_of_right_ne_nil next (List.cons_ne_nil _ _))
    rw [whole]
    rcases idle_or_repeats types vectors (some mark) next behind with
      idle | ⟨size, inner, closer, rest, rfl, closes, opens, repeats⟩
    · rw [expandAfter_idle well absent idle,
        expandAfter_idle well longer fun size opens => idle size ((shifted size).mp opens)]
      simp
    · rw [expandAfter_opened well absent opens closes repeats,
        expandAfter_opened well longer ((shifted size).mpr opens) closes repeats]
      simp
  · have longer : '(' ∉ flat ++ mark :: rest := by
      simp only [List.mem_append, List.mem_cons, not_or]
      exact ⟨plain, fun same => other same.symm, opening⟩
    rw [expandAfter_flat longer, expandAfter_flat opening]

theorem expandAfter_repeated {before : Option Char} {flat inner rest : Text} {size : Nat}
    {closer : Char} (plain : '(' ∉ flat) (opens : Opens types before size (flat ++ ['(']))
    (closes : isCloser closer = true) (repeats : Repeats vectors size inner) :
    expandAfter types vectors before (flat ++ '(' :: (inner ++ closer :: rest)) =
      flat ++ '(' :: (copies size inner ++ closer :: expandAfter types vectors (some closer) rest) := by
  have absent := not_mem_copies repeats parts_parenthesis (by decide)
  rw [expandAfter_opened well plain opens closes repeats,
    expandAfter_mark well (parts_of_isCloser closes) (ne_parenthesis_of_isCloser closes) absent]

omit well in
/-- A text is taken apart at its parentheses, those with what they repeat. -/
theorem site_induction (types : VectorTypes) (vectors : List Text)
    {motive : Option Char → Text → Prop}
    (flat : ∀ before text, '(' ∉ text → motive before text)
    (idle : ∀ before front rest, '(' ∉ front → Idle types vectors before front rest →
      motive (some '(') rest → motive before (front ++ '(' :: rest))
    (repeated : ∀ before front size inner closer rest, '(' ∉ front →
      Opens types before size (front ++ ['(']) → isCloser closer = true →
        Repeats vectors size inner → motive (some closer) rest →
          motive before (front ++ '(' :: (inner ++ closer :: rest)))
    (before : Option Char) (text : Text) : motive before text := by
  induction size : text.length using Nat.strongRecOn generalizing before text with
  | ind size ih =>
      by_cases opening : '(' ∈ text
      · obtain ⟨front, rest, rfl, plain⟩ := List.eq_append_cons_of_mem opening
        rcases idle_or_repeats types vectors before front rest with
          still | ⟨count, inner, closer, behind, rfl, closes, opens, repeats⟩
        · refine idle before front rest plain still (ih rest.length ?_ _ _ rfl)
          rw [← size, List.length_append, List.length_cons]
          omega
        · refine repeated before front count inner closer behind plain opens closes repeats
            (ih behind.length ?_ _ _ rfl)
          simp only [← size, List.length_append, List.length_cons]
          omega
      · exact flat before text opening

end

end Code
end ShaderBridge
