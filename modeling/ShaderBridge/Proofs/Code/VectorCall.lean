import ShaderBridge.Code.VectorCall
import ShaderBridge.Proofs.Code.Arguments
import ShaderBridge.Proofs.Code.Identifier
set_option autoImplicit false

/-! What the writing out of constructor calls does to a text. A call that is written out gains a
comma for each further copy of its argument, and other marks are kept. So a text stays as it is just
when no call in it repeats a simple scalar (`expandVectorCalls_eq_self_iff`). -/

namespace ShaderBridge
namespace Code

open Text (Blank IsOneWord)

private def InScalar (char : Char) : Prop := isWord char = true ∨ char ∈ (".+-" : Text)

private theorem within_literal {expected : Text}
    (each : ∀ char ∈ expected, isWord char = true ∨ char ∈ (".+-" : Text)) :
    Scan.Within InScalar (Scan.literal expected) :=
  Scan.within_literal each

private theorem within_sign : sign.Within InScalar :=
  ((within_literal (by decide)).orElse (within_literal (by decide))).optional

private theorem within_digits : digits.Within InScalar :=
  Scan.within_oneOrMore fun _char digit => .inl (isWord_of_isDecimalDigit digit)

private theorem within_mantissa : mantissa.Within InScalar := by
  have point : Scan.Within InScalar (Scan.literal ".") := within_literal (by decide)
  have fraction : Scan.Within InScalar (Scan.zeroOrMore isDecimalDigit) :=
    Scan.within_zeroOrMore fun _char digit => .inl (isWord_of_isDecimalDigit digit)
  exact (within_digits.andThen (point.optional.andThen fraction)).orElse
    (point.andThen within_digits)

private theorem within_exponent : exponent.Within InScalar :=
  ((within_literal (by decide)).orElse (within_literal (by decide))).andThen
    (within_sign.andThen within_digits)

private theorem within_literalSuffix : literalSuffix.Within InScalar := by
  intro text rest found
  cases text with
  | nil => cases found
  | cons char text =>
      obtain ⟨suffix, same⟩ := Option.ite_none_right_eq_some.mp found
      have letters : ∀ char ∈ ("fFhHlLuU" : Text), isWord char = true := by decide
      have letter := letters char (List.contains_iff_mem.mp suffix)
      cases same
      exact ⟨[char], List.forall_mem_singleton.mpr (.inl letter), rfl⟩

private theorem within_numericLiteral : numericLiteral.Within InScalar :=
  within_sign.andThen (within_mantissa.andThen
    (within_exponent.optional.andThen within_literalSuffix.optional))

theorem count_of_isAccessChain {mark : Char} (apart : isWord mark = false)
    (other : mark ≠ '.') {chain : Text} (accesses : isAccessChain chain = true) :
    chain.count mark = 0 := by
  have none : ((chain.splitOn '.').map (List.count mark)).sum = 0 := by
    refine List.sum_eq_zero fun count member => ?_
    obtain ⟨name, part, rfl⟩ := List.mem_map.mp member
    have accepted : isIdentifier name = true := List.all_eq_true.mp accesses name part
    refine List.count_eq_zero.mpr fun held => ?_
    exact absurd (apart.symm.trans ((isIdentifier_iff.mp accepted).1.2 mark held)) nofun
  have single : ['.'].count mark = 0 := List.count_eq_zero.mpr (mt List.mem_singleton.mp other)
  have counted := Text.count_join ['.'] (chain.splitOn '.') mark
  have whole : Text.join ['.'] (chain.splitOn '.') = chain := List.intercalate_splitOn '.'
  rwa [whole, none, single, Nat.mul_zero] at counted

theorem count_of_isSimpleScalar {mark : Char} (apart : isWord mark = false)
    (other : mark ∉ (".+-" : Text)) {argument : Text} (simple : isSimpleScalar argument = true) :
    argument.trim.count mark = 0 := by
  unfold isSimpleScalar at simple
  rcases Bool.or_eq_true_iff.mp simple with number | chain
  · obtain ⟨read, within, same⟩ :=
      within_numericLiteral _ _ (Scan.accepts_eq_true_iff.mp number)
    rw [same, List.append_nil]
    exact count_eq_zero_of_marks apart other within
  · have point : mark ≠ '.' := fun same => other (same ▸ by decide)
    exact count_of_isAccessChain apart point (Bool.and_eq_true_iff.mp chain).1

/-- What is repeated stands alone between the parentheses, white space apart. -/
theorem repeatedArgument?_eq_some {vectors : List Text} {size : Nat}
    {text argument closing : Text}
    (found : repeatedArgument? vectors size text = some (argument, closing)) :
    1 < size ∧ isSimpleScalar argument = true ∧ argument.trim = argument ∧
      ∃ before after, Blank before ∧ Blank after ∧
        text = before ++ argument ++ after ++ closing := by
  obtain ⟨close, _closed, found⟩ := Option.bind_eq_some_iff.mp found
  split at found
  · next other single =>
      obtain ⟨allowed, same⟩ := Option.ite_none_right_eq_some.mp found
      obtain ⟨rfl, rfl⟩ := Prod.mk.inj (Option.some.inj same)
      obtain ⟨both, _unknown⟩ := Bool.and_eq_true_iff.mp allowed
      obtain ⟨several, simple⟩ := Bool.and_eq_true_iff.mp both
      have trimmed := splitArguments_eq_singleton single
      obtain ⟨before, after, left, right, split⟩ := Text.exists_trim (text.take (close - 1))
      refine ⟨of_decide_eq_true several, simple, ?_, before, after, left, right, ?_⟩
      · rw [trimmed]
        exact Text.trim_eq_self (Text.trimmed_trim _)
      · rw [trimmed, ← split]
        exact (List.take_append_drop _ _).symm
  · cases found

section
variable {types : VectorTypes} {vectors : List Text}

private theorem count_expandedArguments {size : Nat} {rest arguments closing : Text}
    (expanded : expandedArguments vectors size rest = some (arguments, closing)) {mark : Char}
    (apart : isWord mark = false) (other : mark ∉ (".+-" : Text)) :
    1 < size ∧ ∃ blanks, Blank blanks ∧
      (arguments ++ closing).count mark + blanks.count mark =
        rest.count mark + (size - 1) * (", " : Text).count mark := by
  obtain ⟨⟨argument, behind⟩, found, same⟩ := Option.map_eq_some_iff.mp expanded
  cases same
  obtain ⟨several, simple, trimmed, before, after, left, right, rfl⟩ :=
    repeatedArgument?_eq_some found
  have none := count_of_isSimpleScalar apart other simple
  rw [trimmed] at none
  refine ⟨several, before ++ after, left.append right, ?_⟩
  have copies : ((List.replicate size argument).map (List.count mark)).sum = 0 := by
    rw [List.map_replicate, none]
    exact List.sum_eq_zero fun count member => List.eq_of_mem_replicate member
  simp only [List.count_append, Text.count_join, copies, none, List.length_replicate]
  omega

end

def callAt (types : VectorTypes) (before : Option Char) (text : Text) : Option (Nat × Text) :=
  if before.any joinsName then none
  else readVectorType types (Scan.blanks >=> Scan.literal "(") text

/-- No call in a text behind a character repeats a simple scalar. -/
def WrittenOut (types : VectorTypes) (vectors : List Text) (before : Option Char)
    (text : Text) : Prop :=
  ∀ front back size rest, text = front ++ back →
    callAt types (front.getLast?.or before) back = some (size, rest) →
      repeatedArgument? vectors size rest = none

private def better (scan : Scan) (text : Text) (best : Option (Nat × Nat × Text))
    (entry : Text × Nat) : Option (Nat × Nat × Text) :=
  match (Scan.literal entry.1 >=> scan) text with
  | none => best
  | some rest =>
    match best with
    | some (length, _) =>
      if length < entry.1.length then some (entry.1.length, entry.2, rest) else best
    | none => some (entry.1.length, entry.2, rest)

private theorem read_of_foldl_better {types : VectorTypes} {scan : Scan} {text rest : Text}
    {best : Option (Nat × Nat × Text)} {length size : Nat}
    (found : types.foldl (better scan text) best = some (length, size, rest)) :
    best = some (length, size, rest) ∨
      ∃ name, (name, size) ∈ types ∧ (Scan.literal name >=> scan) text = some rest := by
  induction types generalizing best with
  | nil => exact .inl found
  | cons entry types ih =>
      rcases ih found with here | ⟨name, later, read⟩
      · unfold better at here
        split at here
        · exact .inl here
        · next behind read =>
            have taken : some (entry.1.length, entry.2, behind) = some (length, size, rest) →
                ∃ name, (name, size) ∈ entry :: types ∧
                  (Scan.literal name >=> scan) text = some rest := by
              intro same
              obtain ⟨_long, rfl, rfl⟩ := same
              exact ⟨entry.1, List.mem_cons_self, read⟩
            split at here
            · split at here
              · exact .inr (taken here)
              · exact .inl here
            · exact .inr (taken here)
      · exact .inr ⟨name, List.mem_cons_of_mem _ later, read⟩

theorem readVectorType_eq_some {types : VectorTypes} {scan : Scan} {text rest : Text} {size : Nat}
    (found : readVectorType types scan text = some (size, rest)) :
    ∃ name, (name, size) ∈ types ∧ (Scan.literal name >=> scan) text = some rest := by
  obtain ⟨⟨length, both⟩, best, same⟩ := Option.map_eq_some_iff.mp found
  cases same
  exact (read_of_foldl_better
    (show types.foldl (better _ text) none = _ from best)).resolve_left nofun

/-- A vector type is read when one of the entries is. -/
theorem exists_readVectorType {types : VectorTypes} {scan : Scan} {text rest : Text}
    {entry : Text × Nat} (member : entry ∈ types)
    (read : (Scan.literal entry.1 >=> scan) text = some rest) :
    ∃ found, readVectorType types scan text = some found := by
  have stays : ∀ (types : VectorTypes) best, best ≠ none →
      types.foldl (better scan text) best ≠ none := by
    intro types
    induction types with
    | nil => exact fun _best => id
    | cons other types ih =>
        intro best some
        apply ih
        unfold better
        split
        · exact some
        · split
          · split <;> exact nofun
          · exact nofun
  have better_ne_none : ∀ best, better scan text best entry ≠ none := by
    intro best
    unfold better
    rw [read]
    simp only
    split
    · split <;> exact nofun
    · exact nofun
  have some : types.foldl (better scan text) none ≠ none := by
    obtain ⟨front, back, rfl⟩ := List.append_of_mem member
    rw [List.foldl_append, List.foldl_cons]
    exact stays back _ (better_ne_none _)
  obtain ⟨best, found⟩ := Option.ne_none_iff_exists'.mp some
  exact ⟨best.2, congrArg (Option.map Prod.snd) found⟩

theorem callAt_eq_some {types : VectorTypes} {before : Option Char} {text rest : Text} {size : Nat}
    (found : callAt types before text = some (size, rest)) :
    before.any joinsName = false ∧ ∃ name blanks, (name, size) ∈ types ∧ Blank blanks ∧
      text = name ++ blanks ++ '(' :: rest := by
  unfold callAt at found
  split at found
  · cases found
  · next outside =>
      obtain ⟨name, member, read⟩ := readVectorType_eq_some found
      obtain ⟨between, stem, opened⟩ := Scan.andThen_eq_some_iff.mp read
      have dark : isBlank '(' = false := by decide
      obtain ⟨blanks, blank, rfl⟩ := (Scan.blanks_literal_eq_some_iff dark).mp opened
      refine ⟨Bool.eq_false_iff.mpr outside, name, blanks, member, blank, ?_⟩
      rw [Scan.literal_eq_some_iff.mp stem, List.append_assoc]

theorem exists_callAt {types : VectorTypes} {before : Option Char} (outside : before.any joinsName = false)
    {name blanks : Text} {size : Nat} (member : (name, size) ∈ types) (blank : Blank blanks)
    (rest : Text) : ∃ found, callAt types before (name ++ (blanks ++ '(' :: rest)) = some found := by
  unfold callAt
  rw [if_neg (Bool.eq_false_iff.mp outside)]
  have opened : (Scan.blanks >=> Scan.literal "(") (blanks ++ '(' :: rest) = some rest :=
    (Scan.blanks_literal_eq_some_iff rfl).mpr ⟨blanks, blank, rfl⟩
  exact exists_readVectorType member
    (Scan.andThen_eq_some_iff.mpr ⟨_, Scan.literal_eq_some_iff.mpr rfl, opened⟩)

section
variable {types : VectorTypes}

theorem nextCall_of_call {before : Option Char} {char : Char} {text : Text} {size : Nat}
    {rest : Text} (here : callAt types before (char :: text) = some (size, rest)) :
    expandFrom.nextCall types before (char :: text) =
      some ((char :: text).take (text.length + 1 - rest.length), size, rest) := by
  unfold callAt at here
  rw [expandFrom.nextCall, here]

theorem nextCall_of_none {before : Option Char} {char : Char} {text : Text}
    (here : callAt types before (char :: text) = none) :
    expandFrom.nextCall types before (char :: text) =
      (expandFrom.nextCall types (some char) text).map fun (passed, found) =>
        (char :: passed, found) := by
  unfold callAt at here
  rw [expandFrom.nextCall, here]

theorem nextCall_eq_none {before : Option Char} {text : Text}
    (missed : expandFrom.nextCall types before text = none) :
    ∀ front back, text = front ++ back → callAt types (front.getLast?.or before) back = none := by
  induction text generalizing before with
  | nil =>
      intro front back split
      obtain ⟨rfl, rfl⟩ := List.append_eq_nil_iff.mp split.symm
      refine Option.eq_none_iff_forall_ne_some.mpr fun found here => ?_
      obtain ⟨_outside, name, blanks, _member, _blank, same⟩ := callAt_eq_some here
      exact absurd same.symm (by simp)
  | cons char text ih =>
      cases here : callAt types before (char :: text) with
      | some found =>
          rw [nextCall_of_call here] at missed
          cases missed
      | none =>
          rw [nextCall_of_none here] at missed
          intro front back split
          cases front with
          | nil =>
              rw [List.nil_append] at split
              rw [← split]
              exact here
          | cons first front =>
              obtain ⟨rfl, inner⟩ := List.cons.inj split
              rw [Text.getLast?_cons_or]
              exact ih (Option.map_eq_none_iff.mp missed) front back inner

/-- The first call of a text: its type and its parenthesis, and nothing that is a call before it. -/
theorem nextCall_eq_some {before : Option Char} {text passed rest : Text} {size : Nat}
    (found : expandFrom.nextCall types before text = some (passed, size, rest)) :
    ∃ front name blanks, (name, size) ∈ types ∧ Blank blanks ∧
      passed = front ++ (name ++ blanks ++ ['(']) ∧ text = passed ++ rest ∧
      callAt types (front.getLast?.or before) (name ++ blanks ++ '(' :: rest) = some (size, rest) ∧
      ∀ earlier back, text = earlier ++ back → earlier.length < front.length →
        callAt types (earlier.getLast?.or before) back = none := by
  induction text generalizing before passed with
  | nil => cases found
  | cons char text ih =>
      cases here : callAt types before (char :: text) with
      | some call =>
          obtain ⟨count, behind⟩ := call
          rw [nextCall_of_call here] at found
          obtain ⟨_outside, name, blanks, member, blank, same⟩ := callAt_eq_some here
          obtain ⟨cut, both⟩ := Prod.mk.inj (Option.some.inj found)
          cases both
          have whole : char :: text = (name ++ blanks ++ ['(']) ++ rest := by
            rw [same, List.append_assoc _ ['(']]
            rfl
          have long := congrArg List.length whole
          rw [List.length_cons, List.length_append] at long
          rw [whole, long, Nat.add_sub_cancel_right, List.take_left] at cut
          refine ⟨[], name, blanks, member, blank, cut.symm, ?_, ?_,
            fun earlier back _split short => ?_⟩
          · rw [← cut]
            exact whole
          · rw [← same]
            exact here
          · cases short
      | none =>
          rw [nextCall_of_none here] at found
          obtain ⟨⟨inner, both⟩, later, same⟩ := Option.map_eq_some_iff.mp found
          cases same
          obtain ⟨front, name, blanks, member, blank, rfl, rfl, call, none⟩ := ih later
          refine ⟨char :: front, name, blanks, member, blank, rfl, rfl, ?_, ?_⟩
          · rw [Text.getLast?_cons_or]
            exact call
          · intro earlier back split short
            cases earlier with
            | nil =>
                rw [List.nil_append] at split
                rw [← split]
                exact here
            | cons first earlier =>
                obtain ⟨rfl, rest⟩ := List.cons.inj split
                rw [Text.getLast?_cons_or]
                exact none earlier back rest (Nat.lt_of_succ_lt_succ short)

end

section
variable {types : VectorTypes} {vectors : List Text}

/-- What one step does: nothing is left to do, a call is passed over, or it is written out. -/
theorem expandFrom_cases (types : VectorTypes) (vectors : List Text) (sites : Nat)
    (before : Option Char) (text : Text) :
    (expandFrom.nextCall types before text = none ∧
        expandFrom types vectors (sites + 1) before text = text) ∨
      ∃ passed size rest, expandFrom.nextCall types before text = some (passed, size, rest) ∧
        ((repeatedArgument? vectors size rest = none ∧
            expandFrom types vectors (sites + 1) before text =
              passed ++ expandFrom types vectors sites (some '(') rest) ∨
          ∃ arguments closing, expandedArguments vectors size rest = some (arguments, closing) ∧
            expandFrom types vectors (sites + 1) before text =
              passed ++ expandFrom types vectors sites (some '(') (arguments ++ closing)) := by
  rw [expandFrom]
  cases next : expandFrom.nextCall types before text with
  | none => exact .inl ⟨rfl, rfl⟩
  | some call =>
      obtain ⟨passed, size, rest⟩ := call
      refine .inr ⟨passed, size, rest, rfl, ?_⟩
      cases expanded : expandedArguments vectors size rest with
      | none => exact .inl ⟨Option.map_eq_none_iff.mp expanded, by simp only [expanded]⟩
      | some both =>
          obtain ⟨arguments, closing⟩ := both
          exact .inr ⟨arguments, closing, rfl, by simp only [expanded]⟩

theorem nextCall_append {before : Option Char} {text passed rest : Text} {size : Nat}
    (found : expandFrom.nextCall types before text = some (passed, size, rest)) :
    text = passed ++ rest := by
  obtain ⟨_front, _name, _blanks, _member, _blank, _passed, same, _call⟩ := nextCall_eq_some found
  exact same

private theorem count_expandFrom_le {mark : Char} (apart : isWord mark = false)
    (other : mark ∉ (" ,.+-" : Text)) (sites : Nat) (before : Option Char) (text : Text) :
    (expandFrom types vectors sites before text).count mark ≤ text.count mark := by
  have scalar : mark ∉ (".+-" : Text) := fun member =>
    other ((by decide : ∀ char ∈ (".+-" : Text), char ∈ (" ,.+-" : Text)) mark member)
  have separator : (", " : Text).count mark = 0 := List.count_eq_zero.mpr fun member =>
    other ((by decide : ∀ char ∈ (", " : Text), char ∈ (" ,.+-" : Text)) mark member)
  induction sites generalizing before text with
  | zero => exact Nat.le_refl _
  | succ sites ih =>
      rcases expandFrom_cases types vectors sites before text with
        ⟨_none, same⟩ | ⟨passed, size, rest, next, ⟨_stays, same⟩ | ⟨arguments, closing, out, same⟩⟩
      · rw [same]
      · rw [same, nextCall_append next, List.count_append, List.count_append]
        have later := ih (some '(') rest
        omega
      · obtain ⟨_several, blanks, _blank, counted⟩ := count_expandedArguments out apart scalar
        rw [same, nextCall_append next, List.count_append, List.count_append]
        have later := ih (some '(') (arguments ++ closing)
        rw [separator] at counted
        omega

private theorem le_count_expandFrom {mark : Char} (apart : isWord mark = false)
    (dark : isBlank mark = false) (other : mark ∉ (".+-" : Text)) (sites : Nat)
    (before : Option Char) (text : Text) :
    text.count mark ≤ (expandFrom types vectors sites before text).count mark := by
  induction sites generalizing before text with
  | zero => exact Nat.le_refl _
  | succ sites ih =>
      rcases expandFrom_cases types vectors sites before text with
        ⟨_none, same⟩ | ⟨passed, size, rest, next, ⟨_stays, same⟩ | ⟨arguments, closing, out, same⟩⟩
      · rw [same]
      · rw [same, nextCall_append next, List.count_append, List.count_append]
        have later := ih (some '(') rest
        omega
      · obtain ⟨_several, blanks, blank, counted⟩ := count_expandedArguments out apart other
        rw [same, nextCall_append next, List.count_append, List.count_append]
        have later := ih (some '(') (arguments ++ closing)
        have none : blanks.count mark = 0 := List.count_eq_zero.mpr fun member =>
          absurd (dark.symm.trans (blank mark member)) nofun
        omega

end

section
variable {types : VectorTypes} (named : ∀ entry ∈ types, IsOneWord entry.1) {vectors : List Text}
include named

private theorem callAt_inside {name blanks inner more rest : Text} {before : Option Char}
    (one : IsOneWord name) (blank : Blank blanks) (split : name ++ blanks ++ ['('] = inner ++ more)
    (filled : inner ≠ []) (some : more ≠ []) :
    callAt types (inner.getLast?.or before) (more ++ rest) = none := by
  refine Option.eq_none_iff_forall_ne_some.mpr fun found here => ?_
  obtain ⟨outside, other, white, member, _blank, begins⟩ := callAt_eq_some here
  rw [List.append_assoc] at split
  rcases List.append_eq_append_iff.mp split with ⟨gap, _inner, same⟩ | ⟨left, same, _more⟩
  · -- behind the name stand white space and the parenthesis, which begin no name
    have another := named _ member
    have starts := congrArg Text.startsWord begins
    rw [Text.startsWord_append some, List.append_assoc, Text.startsWord_append another.1,
      another.startsWord] at starts
    cases more with
    | nil => exact some rfl
    | cons char more =>
        have held : char ∈ blanks ++ ['('] := by
          rw [same]
          exact List.mem_append_right gap List.mem_cons_self
        have mark : isWord char = false := by
          rcases List.mem_append.mp held with early | last
          · exact isWord_of_isBlank (blank char early)
          · rw [List.mem_singleton.mp last]
            decide
        exact absurd (mark.symm.trans starts) nofun
  · rw [List.getLast?_eq_some_getLast filled] at outside
    have letter : isWord (inner.getLast filled) = true := by
      refine one.2 _ ?_
      rw [same]
      exact List.mem_append_left left (List.getLast_mem filled)
    have joins : joinsName (inner.getLast filled) = true := by
      unfold joinsName
      rw [letter, Bool.true_or]
    exact absurd (outside.symm.trans joins) nofun

/-- A text with a first call repeats nothing when neither this call nor one behind it does. -/
private theorem writtenOut_iff {before : Option Char} {text passed rest : Text} {size : Nat}
    (next : expandFrom.nextCall types before text = some (passed, size, rest)) :
    WrittenOut types vectors before text ↔
      repeatedArgument? vectors size rest = none ∧ WrittenOut types vectors (some '(') rest := by
  obtain ⟨front, name, blanks, member, blank, rfl, rfl, call, none⟩ := nextCall_eq_some next
  have behind : ∀ more : Text,
      (front ++ (name ++ blanks ++ ['(']) ++ more).getLast?.or before =
        more.getLast?.or (some '(') := by
    intro more
    rw [List.getLast?_append, ← List.append_assoc front, List.getLast?_concat, Option.or_assoc]
    rfl
  constructor
  · intro out
    refine ⟨out front _ size rest ?_ call, ?_⟩
    · simp only [List.append_assoc, List.cons_append, List.nil_append]
    · intro more back count later split here
      refine out (front ++ (name ++ blanks ++ ['(']) ++ more) back count later ?_ ?_
      · rw [split, List.append_assoc _ more]
      · rw [behind]
        exact here
  · intro both earlier back count later split here
    obtain ⟨stays, out⟩ := both
    rcases List.append_eq_append_iff.mp split with ⟨more, same, inner⟩ | ⟨more, same, inner⟩
    · rw [same, behind] at here
      exact out more back count later inner here
    · by_cases ended : more = []
      · rw [ended, List.append_nil] at same
        rw [ended, List.nil_append] at inner
        have last := behind []
        rw [List.append_nil, same] at last
        rw [last] at here
        exact out [] back count later inner.symm here
      · by_cases short : earlier.length < front.length
        · rw [none earlier back split short] at here
          cases here
        · have long : front.length ≤ earlier.length := Nat.le_of_not_lt short
          have reached : front <+: earlier :=
            List.prefix_of_prefix_length_le ⟨_, same⟩ ⟨more, rfl⟩ long
          obtain ⟨start, rfl⟩ := reached
          rw [List.append_assoc front start] at same
          have cut := List.append_cancel_left same
          rw [List.getLast?_append, Option.or_assoc, inner] at here
          by_cases first : start = []
          · rw [first, List.nil_append] at cut
            rw [first, ← cut, List.append_assoc _ ['(']] at here
            have equal := call.symm.trans here
            cases equal
            exact stays
          · rw [callAt_inside named (named _ member) blank cut first ended] at here
            cases here

private theorem expandFrom_eq_self (sites : Nat) {before : Option Char} {text : Text}
    (out : WrittenOut types vectors before text) :
    expandFrom types vectors sites before text = text := by
  induction sites generalizing before text with
  | zero => rfl
  | succ sites ih =>
      rcases expandFrom_cases types vectors sites before text with
        ⟨_none, same⟩ |
          ⟨passed, size, rest, next, ⟨_stays, same⟩ | ⟨arguments, closing, here, _same⟩⟩
      · exact same
      · rw [same, ih ((writtenOut_iff named next).mp out).2]
        exact (nextCall_append next).symm
      · have stays := ((writtenOut_iff named next).mp out).1
        unfold expandedArguments at here
        rw [stays] at here
        cases here

/-- The number of parentheses bounds the number of calls, and each one written out adds commas. -/
private theorem writtenOut_of_expandFrom {sites : Nat} {before : Option Char} {text : Text}
    (enough : text.count '(' ≤ sites)
    (fewer : (expandFrom types vectors sites before text).count ',' ≤ text.count ',') :
    WrittenOut types vectors before text := by
  have outside : ∀ {before : Option Char} {text : Text},
      expandFrom.nextCall types before text = none → WrittenOut types vectors before text := by
    intro before text missed front back size rest split here
    rw [nextCall_eq_none missed front back split] at here
    cases here
  induction sites generalizing before text with
  | zero =>
      intro front back size rest split here
      obtain ⟨_outside, name, blanks, _member, _blank, begins⟩ := callAt_eq_some here
      have absent := List.count_eq_zero.mp (Nat.le_zero.mp enough)
      rw [split, begins] at absent
      exact absurd (by simp) absent
  | succ sites ih =>
      rcases expandFrom_cases types vectors sites before text with
        ⟨missed, _same⟩ |
          ⟨passed, size, rest, next, ⟨stays, same⟩ | ⟨arguments, closing, here, same⟩⟩
      · exact outside missed
      · have whole := nextCall_append next
        obtain ⟨front, name, blanks, _member, _blank, parts, _rest⟩ := nextCall_eq_some next
        have opens : 1 ≤ passed.count '(' := by
          rw [parts]
          exact List.count_pos_iff.mpr (by simp)
        rw [whole, List.count_append] at enough
        rw [same, whole, List.count_append, List.count_append] at fewer
        exact (writtenOut_iff named next).mpr ⟨stays, ih (by omega) (by omega)⟩
      · obtain ⟨several, blanks, blank, counted⟩ :=
          count_expandedArguments here (by decide : isWord ',' = false) (by decide)
        have none : blanks.count ',' = 0 := List.count_eq_zero.mpr fun member =>
          absurd (blank ',' member) (by decide)
        have single : (", " : Text).count ',' = 1 := by decide
        have later : (arguments ++ closing).count ',' ≤
            (expandFrom types vectors sites (some '(') (arguments ++ closing)).count ',' :=
          le_count_expandFrom (by decide) (by decide) (by decide) sites (some '(') _
        rw [same, nextCall_append next, List.count_append, List.count_append] at fewer
        rw [none, single] at counted
        omega

theorem writtenOut_of_count_comma {text : Text}
    (fewer : (expandVectorCalls types vectors text).count ',' ≤ text.count ',') :
    WrittenOut types vectors none text :=
  writtenOut_of_expandFrom named (Nat.le_refl _) fewer

theorem expandVectorCalls_eq_self_iff {text : Text} :
    expandVectorCalls types vectors text = text ↔ WrittenOut types vectors none text := by
  constructor
  · intro same
    exact writtenOut_of_count_comma named (Nat.le_of_eq (congrArg (List.count ',') same))
  · intro out
    exact expandFrom_eq_self named _ out

end

section
variable {types : VectorTypes} {vectors : List Text}

theorem count_expandVectorCalls_le {mark : Char} (apart : isWord mark = false)
    (other : mark ∉ (" ,.+-" : Text)) (text : Text) :
    (expandVectorCalls types vectors text).count mark ≤ text.count mark :=
  count_expandFrom_le apart other _ none text

end

end Code
end ShaderBridge
