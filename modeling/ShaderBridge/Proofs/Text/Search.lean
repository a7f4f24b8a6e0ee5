import ShaderBridge.Text.Basic
set_option autoImplicit false

/-! Where the search for a fixed text ends. A text that holds no line feed cannot reach over one,
so it is found at the start of a line if the lines before do not hold it. -/

namespace ShaderBridge
namespace Text

private theorem prefix_of_prefix_append_cons {mark : Char} {needle front rest : Text}
    (flat : mark ∉ needle) (found : needle <+: front ++ mark :: rest) : needle <+: front := by
  obtain ⟨later, split⟩ := found
  rcases List.append_eq_append_iff.mp split with ⟨more, same, _rest⟩ | ⟨more, reaching, same⟩
  · exact ⟨more, same.symm⟩
  · cases more with
    | nil => exact ⟨[], by rw [reaching, List.append_nil, List.append_nil]⟩
    | cons char more =>
        obtain ⟨rfl, _rest⟩ := List.cons.inj same
        rw [reaching] at flat
        exact absurd (List.mem_append_right front List.mem_cons_self) flat

theorem after?_eq_none {mark : Char} {needle front : Text} (flat : mark ∉ needle)
    (absent : ¬ needle <+: front) (rest : Text) : after? needle (front ++ mark :: rest) = none := by
  refine Option.eq_none_iff_forall_ne_some.mpr ?_
  intro later found
  have reached : needle <+: front ++ mark :: rest := ⟨later, (after?_eq_some_iff.mp found).symm⟩
  exact absent (prefix_of_prefix_append_cons flat reached)

theorem infix_of_infix_cons {mark : Char} {needle text : Text} (flat : mark ∉ needle)
    (found : needle <:+: mark :: text) : needle <:+: text := by
  rcases List.infix_cons_iff.mp found with here | later
  · rcases List.prefix_cons_iff.mp here with rfl | ⟨rest, rfl, _deeper⟩
    · exact List.nil_infix
    · exact absurd List.mem_cons_self flat
  · exact later

theorem infix_of_infix_concat {mark : Char} {needle text : Text} (flat : mark ∉ needle)
    (found : needle <:+: text ++ [mark]) : needle <:+: text := by
  have turned := List.reverse_infix.mpr found
  rw [List.reverse_concat] at turned
  exact List.reverse_infix.mp (infix_of_infix_cons (mt List.mem_reverse.mp flat) turned)

/-- What holds no mark is found on one side of the mark or on the other. -/
theorem infix_append_cons_iff {mark : Char} {needle front rest : Text} (flat : mark ∉ needle) :
    needle <:+: front ++ mark :: rest ↔ needle <:+: front ∨ needle <:+: rest := by
  constructor
  · intro found
    induction front with
    | nil => exact .inr (infix_of_infix_cons flat found)
    | cons char front ih =>
        rw [List.cons_append] at found
        rcases List.infix_cons_iff.mp found with here | later
        · exact .inl (prefix_of_prefix_append_cons flat here).isInfix
        · exact (ih later).imp_left List.infix_cons
  · intro found
    rcases found with early | late
    · exact early.trans (List.prefix_append _ _).isInfix
    · exact late.trans ((List.suffix_cons mark rest).trans (List.suffix_append front _)).isInfix

/-- Texts are cut at the first mark in one way only. -/
theorem append_cons_cancel {mark : Char} {front other : Text} (absent : mark ∉ front)
    (missing : mark ∉ other) {rest others : Text}
    (same : front ++ mark :: rest = other ++ mark :: others) : front = other ∧ rest = others := by
  rcases List.append_eq_append_iff.mp same with ⟨more, split, behind⟩ | ⟨more, split, behind⟩
  · cases more with
    | nil => exact ⟨by rw [split, List.append_nil], (List.cons.inj behind).2⟩
    | cons char more =>
        obtain ⟨rfl, _rest⟩ := List.cons.inj behind
        exact absurd (split ▸ List.mem_append_right front List.mem_cons_self) missing
  · cases more with
    | nil => exact ⟨by rw [split, List.append_nil], (List.cons.inj behind).2.symm⟩
    | cons char more =>
        obtain ⟨rfl, _rest⟩ := List.cons.inj behind
        exact absurd (split ▸ List.mem_append_right other List.mem_cons_self) absent

theorem breakOn?_self (needle rest : Text) :
    breakOn? needle (needle ++ rest) = some ([], rest) := by
  have found : after? needle (needle ++ rest) = some rest := after?_eq_some_iff.mpr rfl
  cases whole : needle ++ rest with
  | nil =>
      obtain ⟨rfl, rfl⟩ := List.append_eq_nil_iff.mp whole
      rfl
  | cons char text =>
      rw [whole] at found
      rw [breakOn?, found]

/-- What stands in a text is found, there or earlier. -/
theorem exists_breakOn? (needle front rest : Text) :
    ∃ before after, breakOn? needle (front ++ needle ++ rest) = some (before, after) ∧
      rest <:+ after := by
  induction front with
  | nil => exact ⟨[], rest, breakOn?_self needle rest, List.suffix_refl rest⟩
  | cons char front ih =>
      obtain ⟨before, after, found, later⟩ := ih
      rw [List.cons_append, List.cons_append, breakOn?]
      cases here : after? needle (char :: (front ++ needle ++ rest)) with
      | none => exact ⟨char :: before, after, by rw [found]; rfl, later⟩
      | some behind =>
          refine ⟨[], behind, rfl, ?_⟩
          have whole := after?_eq_some_iff.mp here
          have first : behind <:+ char :: (front ++ needle ++ rest) := by
            rw [whole]
            exact List.suffix_append needle behind
          have second : rest <:+ char :: (front ++ needle ++ rest) :=
            (List.suffix_append (front ++ needle) rest).trans (List.suffix_cons char _)
          have long := congrArg List.length whole
          simp only [List.length_cons, List.length_append] at long
          exact List.suffix_of_suffix_length_le second first (by omega)

/-- A text without a line feed is found behind the line feed that ends the lines before it. -/
theorem breakOn?_of_flat {needle front : Text} (flat : '\n' ∉ needle)
    (absent : ¬ needle <:+: front) (rest : Text) :
    breakOn? needle (front ++ '\n' :: (needle ++ rest)) = some (front ++ ['\n'], rest) := by
  have apart := after?_eq_none flat (mt List.IsPrefix.isInfix absent) (needle ++ rest)
  induction front with
  | nil =>
      rw [List.nil_append] at apart ⊢
      rw [breakOn?, apart, breakOn?_self]
      rfl
  | cons char front ih =>
      have inner : ¬ needle <:+: front := mt List.infix_cons absent
      have next := after?_eq_none flat (mt List.IsPrefix.isInfix inner) (needle ++ rest)
      rw [List.cons_append] at apart ⊢
      rw [breakOn?, apart, ih inner next]
      rfl

/-- A search ends at the first place. -/
theorem not_infix_of_breakOn? {needle text before rest : Text} (filled : needle ≠ [])
    (found : breakOn? needle text = some (before, rest)) : ¬ needle <:+: before := by
  induction text generalizing before with
  | nil =>
      rw [breakOn?, List.isEmpty_eq_false_iff.mpr filled] at found
      cases found
  | cons char text ih =>
      rw [breakOn?] at found
      split at found
      · cases found
        exact fun inside => filled (List.infix_nil.mp inside)
      · next missed =>
          obtain ⟨⟨inner, after⟩, later, same⟩ := Option.map_eq_some_iff.mp found
          cases same
          intro inside
          rcases List.infix_cons_iff.mp inside with here | deeper
          · have whole := breakOn?_eq_append later
            have reached : needle <+: char :: text := by
              rw [whole, List.append_assoc]
              exact here.trans (List.prefix_append (char :: inner) _)
            obtain ⟨behind, split⟩ := reached
            rw [after?_eq_some_iff.mpr split.symm] at missed
            cases missed
          · exact ih later deeper

/-- What is found in a text is found at the same place when more text follows. -/
theorem breakOn?_append {needle text before rest : Text}
    (found : breakOn? needle text = some (before, rest)) (more : Text) :
    breakOn? needle (text ++ more) = some (before, rest ++ more) := by
  induction text generalizing before with
  | nil =>
      cases needle with
      | nil =>
          cases found
          exact breakOn?_self [] more
      | cons char needle => cases found
  | cons char text ih =>
      rw [breakOn?] at found
      cases here : after? needle (char :: text) with
      | some after =>
          rw [here] at found
          cases found
          have longer : after? needle (char :: (text ++ more)) = some (rest ++ more) := by
            rw [after?_eq_some_iff, ← List.cons_append, after?_eq_some_iff.mp here,
              List.append_assoc]
          rw [List.cons_append, breakOn?, longer]
      | none =>
          rw [here] at found
          obtain ⟨⟨front, after⟩, broken, same⟩ := Option.map_eq_some_iff.mp found
          cases same
          -- the match lies within the text, so it is too long to begin here and end in `more`
          have fits : needle.length ≤ (char :: text).length := by
            rw [breakOn?_eq_append broken]
            simp only [List.length_cons, List.length_append]
            omega
          have longer : after? needle (char :: (text ++ more)) = none := by
            refine Option.eq_none_iff_forall_ne_some.mpr ?_
            intro later reached
            have reaching : needle <+: (char :: text) ++ more :=
              ⟨later, (after?_eq_some_iff.mp reached).symm⟩
            obtain ⟨tail, split⟩ :=
              List.prefix_of_prefix_length_le reaching (List.prefix_append _ more) fits
            rw [after?_eq_some_iff.mpr split.symm] at here
            cases here
          rw [List.cons_append, breakOn?, longer, ih broken]
          rfl

end Text
end ShaderBridge
