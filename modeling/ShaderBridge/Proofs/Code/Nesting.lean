import Mathlib.Data.List.Chain
import ShaderBridge.Code.Bracket
import ShaderBridge.Proofs.Code.Reading
import ShaderBridge.Proofs.Text.Trim
set_option autoImplicit false

/-! Properly nested brackets. A group is closed where its brackets say, whatever its comments hold
(`closer?_of_nestedBefore`). -/

namespace ShaderBridge
namespace Code

open Text (Blank)

/-- The brackets that open and close a group. -/
def bracketPairs : List (Char × Char) := [('(', ')'), ('[', ']'), ('{', '}')]

/-- A text with properly nested brackets and with none of the marks outside of them. -/
inductive Nested : (marks text : Text) → Prop where
  | nil {marks : Text} : Nested marks []
  | plain {marks : Text} {char : Char} {text : Text} :
      isOpener char = false → isCloser char = false → char ∉ marks → Nested marks text →
        Nested marks (char :: text)
  | group {marks : Text} {pair : Char × Char} {inner text : Text} :
      pair ∈ bracketPairs → Nested [] inner → Nested marks text →
        Nested marks (pair.1 :: (inner ++ pair.2 :: text))

theorem bracketPairs_spec :
    ∀ pair ∈ bracketPairs, isOpener pair.1 = true ∧ isOpener pair.2 = false ∧
      isCloser pair.2 = true ∧ pair.1 ≠ '/' ∧ pair.2 ≠ '/' ∧ pair.2 ≠ '*' := by
  decide

theorem bracketPairs_dark :
    ∀ pair ∈ bracketPairs, isBlank pair.1 = false ∧ isBlank pair.2 = false := by
  decide

theorem nested_of_flat {marks text : Text}
    (flat : ∀ char ∈ text, isOpener char = false ∧ isCloser char = false ∧ char ∉ marks) :
    Nested marks text := by
  induction text with
  | nil => exact .nil
  | cons char text ih =>
      obtain ⟨⟨opens, closes, apart⟩, rest⟩ := List.forall_mem_cons.mp flat
      exact .plain opens closes apart (ih rest)

theorem Nested.append {marks first rest : Text} (before : Nested marks first)
    (after : Nested marks rest) : Nested marks (first ++ rest) := by
  induction before with
  | nil => exact after
  | plain opens closes apart _later ih => exact .plain opens closes apart (ih after)
  | group known within _later _ihInner ih =>
      rw [List.cons_append, List.append_assoc]
      exact .group known within (ih after)

theorem Nested.mono {marks others text : Text} (nested : Nested marks text)
    (fewer : others ⊆ marks) : Nested others text := by
  induction nested with
  | nil => exact .nil
  | plain opens closes apart _later ih =>
      exact .plain opens closes (fun member => apart (fewer member)) (ih fewer)
  | group known within _later _ihInner ih => exact .group known within (ih fewer)

private theorem Nested.of_blank_cons {marks text : Text} {char : Char}
    (white : isBlank char = true) (nested : Nested marks (char :: text)) : Nested marks text := by
  generalize whole : char :: text = longer at nested
  cases nested with
  | nil => cases whole
  | plain _opens _closes _apart later =>
      obtain ⟨rfl, rfl⟩ := List.cons.inj whole
      exact later
  | @group _marks pair _inner _text known _within _later =>
      obtain ⟨rfl, _rest⟩ := List.cons.inj whole
      exact absurd white (Bool.eq_false_iff.mp (bracketPairs_dark _ known).1)

private theorem Nested.of_concat_blank {marks text : Text} {char : Char}
    (white : isBlank char = true) (nested : Nested marks (text ++ [char])) : Nested marks text := by
  generalize whole : text ++ [char] = longer at nested
  induction nested generalizing text with
  | nil => exact absurd whole (List.append_ne_nil_of_right_ne_nil _ (List.cons_ne_nil _ _))
  | plain opens closes apart _later ih =>
      cases text with
      | nil => exact .nil
      | cons first text =>
          obtain ⟨rfl, rest⟩ := List.cons.inj whole
          exact .plain opens closes apart (ih rest)
  | @group marks pair inner behind known within _later _ihInner ih =>
      -- the last character is no bracket, so it stands behind the group
      induction behind using List.reverseRecOn with
      | nil =>
          have split : text ++ [char] = (pair.1 :: inner) ++ [pair.2] := whole
          obtain ⟨_front, same⟩ := List.append_inj' split rfl
          obtain rfl : char = pair.2 := List.singleton_injective same
          exact absurd white (Bool.eq_false_iff.mp (bracketPairs_dark _ known).2)
      | append_singleton behind last _ih =>
          have split : text ++ [char] = (pair.1 :: (inner ++ pair.2 :: behind)) ++ [last] := by
            rw [whole]
            simp
          obtain ⟨rfl, same⟩ := List.append_inj' split rfl
          exact .group known within (ih (congrArg (behind ++ ·) same))

theorem Nested.trim {marks text : Text} (nested : Nested marks text) :
    Nested marks (Text.trim text) := by
  obtain ⟨before, after, left, right, same⟩ := Text.exists_trim text
  rw [same, List.append_assoc] at nested
  have front : Nested marks (Text.trim text ++ after) := by
    clear same
    induction before with
    | nil => exact nested
    | cons char before ih =>
        obtain ⟨white, rest⟩ := List.forall_mem_cons.mp left
        exact ih (Nested.of_blank_cons white nested) rest
  clear same nested
  induction after using List.reverseRecOn with
  | nil => rwa [List.append_nil] at front
  | append_singleton after char ih =>
      obtain ⟨white, last⟩ := List.forall_mem_append.mp right
      rw [← List.append_assoc] at front
      exact ih white (Nested.of_concat_blank (last char (List.mem_singleton.mpr rfl)) front)

theorem uncommented_of_not_mem {text : Text} (absent : '/' ∉ text) : Uncommented text := by
  induction text with
  | nil => exact .nil
  | cons char text ih =>
      refine List.isChain_cons.mpr ⟨?_, ih (mt (List.mem_cons_of_mem char) absent)⟩
      intro _next _begins slash
      exact absurd (slash ▸ List.mem_cons_self) absent

theorem Uncommented.comment_append {char : Char} {text rest : Text}
    (plain : Uncommented (char :: text)) (apart : rest.head? ≠ some '/' ∧ rest.head? ≠ some '*') :
    comment (char :: (text ++ rest)) = none := by
  apply comment_eq_none_iff.mpr
  intro slash
  cases text with
  | nil => exact apart
  | cons next text =>
      have clear := comment_eq_none_iff.mp plain.comment_eq_none slash
      exact clear

theorem comment_of_bracket {char : Char} (bracket : isOpener char = true ∨ isCloser char = true)
    (text : Text) : comment (char :: text) = none := by
  refine comment_eq_none_iff.mpr ?_
  rintro rfl
  exact absurd bracket (by decide)

section
variable {char : Char} {text : Text}

theorem closerFrom_succ (skip depth offset : Nat) :
    closerFrom (skip + 1) depth offset (char :: text) = closerFrom skip depth (offset + 1) text := rfl

theorem closerFrom_of_long {more : Nat} (long : commentLength (char :: text) = more + 1)
    (depth offset : Nat) :
    closerFrom 0 depth offset (char :: text) = closerFrom more depth (offset + 1) text := by
  rw [closerFrom, long]

theorem closerFrom_of_clear (clear : comment (char :: text) = none) (depth offset : Nat) :
    closerFrom 0 depth offset (char :: text) =
      if isOpener char then closerFrom 0 (depth + 1) (offset + 1) text
      else if isCloser char then
        if depth ≤ 1 then some offset else closerFrom 0 (depth - 1) (offset + 1) text
      else closerFrom 0 depth (offset + 1) text := by
  rw [closerFrom, commentLength_of_none clear]

theorem closerFrom_plain (clear : comment (char :: text) = none) (opens : isOpener char = false)
    (closes : isCloser char = false) (depth offset : Nat) :
    closerFrom 0 depth offset (char :: text) = closerFrom 0 depth (offset + 1) text := by
  rw [closerFrom_of_clear clear]
  simp only [opens, closes, Bool.false_eq_true, if_false]

theorem closerFrom_opener (opens : isOpener char = true) (depth offset : Nat) :
    closerFrom 0 depth offset (char :: text) = closerFrom 0 (depth + 1) (offset + 1) text := by
  rw [closerFrom_of_clear (comment_of_bracket (.inl opens) text)]
  simp only [opens, if_true]

theorem closerFrom_closer (closes : isCloser char = true) (depth offset : Nat) :
    closerFrom 0 depth offset (char :: text) =
      if depth ≤ 1 then some offset else closerFrom 0 (depth - 1) (offset + 1) text := by
  rw [closerFrom_of_clear (comment_of_bracket (.inr closes) text)]
  simp only [not_isOpener_of_isCloser closes, closes, Bool.false_eq_true, if_false, if_true]

end

private theorem closerFrom_skip (depth offset : Nat) (stretch rest : Text) :
    closerFrom stretch.length depth offset (stretch ++ rest) =
      closerFrom 0 depth (offset + stretch.length) rest := by
  induction stretch generalizing offset with
  | nil => rfl
  | cons char stretch ih =>
      rw [List.length_cons, List.cons_append, closerFrom_succ, ih, Nat.add_assoc, Nat.add_comm 1]

theorem closerFrom_comment {stretch rest : Text} (found : comment (stretch ++ rest) = some rest)
    (filled : stretch ≠ []) (depth offset : Nat) :
    closerFrom 0 depth offset (stretch ++ rest) =
      closerFrom 0 depth (offset + stretch.length) rest := by
  obtain ⟨read, same, _filled, long⟩ := comment_eq_some found
  obtain rfl := List.append_cancel_right same
  rw [← closerFrom_skip]
  cases stretch with
  | nil => exact absurd rfl filled
  | cons char stretch =>
      rw [List.length_cons, List.cons_append] at long ⊢
      rw [closerFrom_of_long long, closerFrom_succ]

/-- A text with properly nested brackets in front of `rest`. What its comments hold does not count; where
one of them ends may depend on what follows. -/
inductive NestedBefore : (rest text : Text) → Prop where
  | nil {rest : Text} : NestedBefore rest []
  | plain {rest : Text} {char : Char} {text : Text} : comment (char :: (text ++ rest)) = none →
      isOpener char = false → isCloser char = false → NestedBefore rest text →
        NestedBefore rest (char :: text)
  | comment {rest stretch text : Text} : comment (stretch ++ (text ++ rest)) = some (text ++ rest) →
      stretch ≠ [] → NestedBefore rest text → NestedBefore rest (stretch ++ text)
  | group {rest : Text} {pair : Char × Char} {inner text : Text} : pair ∈ bracketPairs →
      NestedBefore (pair.2 :: (text ++ rest)) inner → NestedBefore rest text →
        NestedBefore rest (pair.1 :: (inner ++ pair.2 :: text))

theorem Nested.before {marks text rest : Text} (nested : Nested marks text) (plain : Uncommented text)
    (apart : rest.head? ≠ some '/' ∧ rest.head? ≠ some '*') : NestedBefore rest text := by
  induction nested generalizing rest with
  | nil => exact .nil
  | plain opens closes _mark _later ih =>
      exact .plain (plain.comment_append apart) opens closes (ih plain.of_cons apart)
  | @group _marks pair inner text known _within _later ihInner ih =>
      obtain ⟨_opens, _shuts, _closes, _slash, other, star⟩ := bracketPairs_spec pair known
      have inside : Uncommented inner := List.IsChain.left_of_append plain.of_cons
      have behind : Uncommented (pair.2 :: text) := List.IsChain.right_of_append plain.of_cons
      exact .group known
        (ihInner inside ⟨fun same => other (Option.some.inj same), fun same => star (Option.some.inj same)⟩)
        (ih behind.of_cons apart)

/-- Inside a group, the search for its end passes over what is properly nested. -/
theorem closerFrom_of_nestedBefore {rest text : Text} (nested : NestedBefore rest text)
    (depth offset : Nat) :
    closerFrom 0 (depth + 1) offset (text ++ rest) =
      closerFrom 0 (depth + 1) (offset + text.length) rest := by
  induction nested generalizing depth offset with
  | nil => rfl
  | @plain rest char text clear opens closes _nested ih =>
      rw [List.cons_append, closerFrom_plain clear opens closes, ih, List.length_cons]
      congr 1
      omega
  | @comment rest stretch text found filled _nested ih =>
      rw [List.append_assoc, closerFrom_comment found filled, ih, List.length_append, Nat.add_assoc]
  | @group rest pair inner text known _within _later ihInner ih =>
      obtain ⟨opens, _shuts, closes, _slash, _other, _star⟩ := bracketPairs_spec pair known
      rw [List.cons_append, closerFrom_opener opens, List.append_assoc, List.cons_append, ihInner,
        closerFrom_closer closes, if_neg (by omega), Nat.add_sub_cancel, ih]
      congr 1
      simp only [List.length_cons, List.length_append]
      omega

/-- A group ends at the first closing bracket behind what is properly nested. -/
theorem closer?_of_nestedBefore {opener closer : Char} {inner rest : Text}
    (opens : isOpener opener = true) (closes : isCloser closer = true)
    (nested : NestedBefore (closer :: rest) inner) :
    closer? (opener :: (inner ++ closer :: rest)) = some (inner.length + 1) := by
  unfold closer?
  rw [closerFrom_opener opens, closerFrom_of_nestedBefore nested, closerFrom_closer closes,
    if_pos (Nat.le_refl 1)]
  congr 1
  omega

theorem closer?_of_nested {marks inner rest : Text} {closer : Char} (nested : Nested marks inner)
    (plain : Uncommented inner) (closes : isCloser closer = true) :
    closer? ('(' :: (inner ++ closer :: rest)) = some (inner.length + 1) := by
  refine closer?_of_nestedBefore (by decide) closes (nested.before plain ⟨?_, ?_⟩)
  · exact fun same => absurd (Option.some.inj same ▸ closes) (by decide)
  · exact fun same => absurd (Option.some.inj same ▸ closes) (by decide)

end Code
end ShaderBridge
