import ShaderBridge.Proofs.Code.Nesting
set_option autoImplicit false

/-! The arguments of a call. The parts between the commas, joined by commas, are the text
(`join_splitCommasFrom`), and arguments without a comma outside of brackets are read back as they were
written (`splitArguments_reads_back`). -/

namespace ShaderBridge
namespace Code

open Text (Blank Trimmed isBlankText_iff)

theorem splitCommasFrom_ne_nil (depth : Int) (current text : Text) :
    splitCommasFrom depth current text ≠ [] := by
  induction text generalizing depth current with
  | nil => exact List.cons_ne_nil _ _
  | cons char text ih =>
      rw [splitCommasFrom]
      split
      · exact ih _ _
      · split
        · exact ih _ _
        · split
          · exact List.cons_ne_nil _ _
          · exact ih _ _

/-- The parts between the commas, joined by commas, are the text. -/
theorem join_splitCommasFrom (depth : Int) (current text : Text) :
    Text.join "," (splitCommasFrom depth current text) = current.reverse ++ text := by
  induction text generalizing depth current with
  | nil => exact (List.append_nil _).trans (List.append_nil _).symm
  | cons char text ih =>
      have on : ∀ depth, Text.join "," (splitCommasFrom depth (char :: current) text) =
          current.reverse ++ char :: text := by
        intro depth
        rw [ih, List.reverse_cons, List.append_assoc, List.singleton_append]
      rw [splitCommasFrom]
      split
      · exact on _
      · split
        · exact on _
        · split
          · next comma =>
              have later := ih depth []
              unfold Text.join at later ⊢
              rw [List.intercalate_cons_of_ne_nil (splitCommasFrom_ne_nil _ _ _), later, comma.1,
                List.append_assoc]
              rfl
          · exact on _

theorem splitArguments_eq_singleton {text argument : Text}
    (single : splitArguments text = [argument]) : argument = text.trim := by
  unfold splitArguments at single
  split at single
  · cases single
  · obtain ⟨part, whole, same⟩ := List.map_eq_singleton_iff.mp single
    have joined := join_splitCommasFrom 0 [] text
    rw [whole] at joined
    rw [← same]
    exact congrArg Text.trim ((List.append_nil part).symm.trans joined)

theorem count_splitArguments_le (mark : Char) (text : Text) :
    ((splitArguments text).map (List.count mark)).sum ≤ text.count mark := by
  unfold splitArguments
  split
  · exact Nat.zero_le _
  · have joined := congrArg (List.count mark) (join_splitCommasFrom 0 [] text)
    rw [Text.count_join] at joined
    rw [List.map_map]
    refine le_trans (List.sum_le_sum fun part _member => Text.count_trim_le part mark) ?_
    exact (Nat.le_add_right _ _).trans joined.le

private theorem splitCommasFrom_of_nested {marks text : Text} (nested : Nested marks text)
    {depth : Int} (within : 0 < depth ∨ depth = 0 ∧ ',' ∈ marks) (current rest : Text) :
    splitCommasFrom depth current (text ++ rest) =
      splitCommasFrom depth (text.reverse ++ current) rest := by
  induction nested generalizing depth current rest with
  | nil => rfl
  | @plain marks char text opens closes mark _nested ih =>
      have uncut : ¬ (char = ',' ∧ depth = 0) := by
        rintro ⟨rfl, level⟩
        rcases within with positive | ⟨_level, comma⟩
        · omega
        · exact mark comma
      rw [List.cons_append, splitCommasFrom]
      simp only [opens, closes, Bool.false_eq_true, if_false, uncut]
      rw [ih within, List.reverse_cons, List.append_assoc]
      rfl
  | @group marks pair inner text known _within _later ihInner ih =>
      obtain ⟨opens, shuts, closes, _slash, _other, _star⟩ := bracketPairs_spec pair known
      have deeper : 0 < depth + 1 ∨ depth + 1 = 0 ∧ ',' ∈ ([] : Text) := by
        left
        rcases within with positive | ⟨level, _comma⟩ <;> omega
      rw [List.cons_append, splitCommasFrom, if_pos opens, List.append_assoc, List.cons_append,
        ihInner deeper, splitCommasFrom]
      simp only [shuts, closes, Bool.false_eq_true, if_false, if_true]
      rw [Int.add_sub_cancel, ih within]
      simp only [List.reverse_cons, List.reverse_append, List.append_assoc, List.cons_append,
        List.nil_append]

private theorem splitCommasFrom_single {part : Text} (nested : Nested [','] part) (current : Text) :
    splitCommasFrom 0 current part = [current.reverse ++ part] := by
  have whole := splitCommasFrom_of_nested nested (.inr ⟨rfl, List.mem_singleton.mpr rfl⟩) current []
  rw [List.append_nil] at whole
  rw [whole, splitCommasFrom, List.reverse_append, List.reverse_reverse]

private theorem splitCommasFrom_first {part : Text} (nested : Nested [','] part) (rest : Text) :
    splitCommasFrom 0 [] (part ++ ',' :: rest) = part :: splitCommasFrom 0 [] rest := by
  rw [splitCommasFrom_of_nested nested (.inr ⟨rfl, List.mem_singleton.mpr rfl⟩), List.append_nil,
    splitCommasFrom]
  simp only [show isOpener ',' = false by decide, show isCloser ',' = false by decide,
    Bool.false_eq_true, if_false, and_self, if_true, List.reverse_reverse]

theorem join_spaced (first : Text) (others : List Text) :
    Text.join "," (first :: others.map (' ' :: ·)) = Text.join ", " (first :: others) := by
  induction others generalizing first with
  | nil => rfl
  | cons next others ih =>
      have moved : Text.join ", " ((' ' :: next) :: others) =
          ' ' :: Text.join ", " (next :: others) := by
        cases others with
        | nil => rfl
        | cons second others => rw [Text.join_cons_cons, Text.join_cons_cons, List.cons_append]
      rw [List.map_cons, Text.join_cons_cons, Text.join_cons_cons, ih, moved]
      rfl

private theorem splitCommasFrom_join {part : Text} {parts : List Text}
    (nested : ∀ piece ∈ part :: parts, Nested [','] piece) :
    splitCommasFrom 0 [] (Text.join "," (part :: parts)) = part :: parts := by
  induction parts generalizing part with
  | nil =>
      have single : Text.join "," [part] = part := List.append_nil part
      rw [single, splitCommasFrom_single (nested part List.mem_cons_self)]
      rfl
  | cons next parts ih =>
      obtain ⟨first, rest⟩ := List.forall_mem_cons.mp nested
      rw [Text.join_cons_cons]
      change splitCommasFrom 0 [] (part ++ ',' :: Text.join "," (next :: parts)) = _
      rw [splitCommasFrom_first first, ih rest]

theorem splitArguments_join {parts : List Text} (several : 2 ≤ parts.length)
    (nested : ∀ part ∈ parts, Nested [','] part) :
    splitArguments (Text.join "," parts) = parts.map Text.trim := by
  match parts, several with
  | first :: second :: others, _ =>
      have dark : (Text.join "," (first :: second :: others)).isBlankText = false := by
        rw [Text.join_cons_cons]
        unfold Text.isBlankText
        simp [show isBlank ',' = false by decide]
      unfold splitArguments
      rw [if_neg (by rw [dark]; exact Bool.false_ne_true), splitCommasFrom_join nested]

theorem splitArguments_single {text : Text} (dark : ¬ Text.Blank text)
    (nested : Nested [','] text) : splitArguments text = [text.trim] := by
  unfold splitArguments
  rw [if_neg (mt isBlankText_iff.mp dark), splitCommasFrom_single nested]
  rfl

/-- A list that is written out with a space behind each comma is read back. One empty argument is written
as no argument is. -/
theorem splitArguments_join_spaced {arguments : List Text} (some : arguments ≠ [])
    (filled : arguments ≠ [[]])
    (each : ∀ argument ∈ arguments, Trimmed argument ∧ Nested [','] argument) :
    splitArguments (Text.join ", " arguments) = arguments := by
  cases arguments with
  | nil => exact absurd rfl some
  | cons first others =>
      obtain ⟨⟨trimmed, nested⟩, rest⟩ := List.forall_mem_cons.mp each
      cases others with
      | nil =>
          have dark : ¬ Blank first := by
            rw [← Text.trim_eq_nil_iff, Text.trim_eq_self trimmed]
            exact fun empty => filled (congrArg (fun text : Text => [text]) empty)
          have single : Text.join ", " [first] = first := List.append_nil first
          rw [single, splitArguments_single dark nested, Text.trim_eq_self trimmed]
      | cons second others =>
          have white : Blank [' '] := by decide
          have spaced : ∀ part ∈ first :: (second :: others).map (' ' :: ·), Nested [','] part := by
            refine List.forall_mem_cons.mpr ⟨nested, fun part member => ?_⟩
            obtain ⟨argument, known, rfl⟩ := List.mem_map.mp member
            exact .plain (by decide) (by decide) (by decide) (rest argument known).2
          have kept : ∀ argument ∈ second :: others, Text.trim (' ' :: argument) = argument :=
            fun argument known => (Text.trim_blank_append white argument).trans
              (Text.trim_eq_self (rest argument known).1)
          rw [← join_spaced, splitArguments_join (Nat.le_add_left 2 _) spaced, List.map_cons,
            Text.trim_eq_self trimmed, List.map_map]
          exact congrArg (first :: ·) (List.map_congr_left kept |>.trans (List.map_id _))

/-- Arguments that are written out are read back, but for the list of one empty argument; and whatever
the text, no part of it is lost: its parts, joined by commas, are the text, and the arguments are its
parts without the white space around them. -/
theorem splitArguments_reads_back :
    (∀ arguments : List Text, arguments ≠ [] → arguments ≠ [[]] →
      (∀ argument ∈ arguments, Trimmed argument ∧ Nested [','] argument) →
        splitArguments (Text.join ", " arguments) = arguments) ∧
    ∀ text : Text, Text.join "," (splitCommasFrom 0 [] text) = text ∧
      splitArguments text =
        if text.isBlankText then [] else (splitCommasFrom 0 [] text).map Text.trim :=
  ⟨fun _arguments some filled each => splitArguments_join_spaced some filled each,
    fun text => ⟨join_splitCommasFrom 0 [] text, rfl⟩⟩

theorem splitArguments_reads_back_of_nested_call :
    (∀ argument ∈ ["f(a, b)".toList, [], "m[i, (j)]".toList],
      Trimmed argument ∧ Nested [','] argument) ∧
    Text.join ", " ["f(a, b)".toList, [], "m[i, (j)]".toList] = "f(a, b), , m[i, (j)]".toList ∧
    splitArguments "f(a, b), , m[i, (j)]".toList = ["f(a, b)".toList, [], "m[i, (j)]".toList] := by
  have call : Nested [','] ('f' :: '(' :: ("a, b".toList ++ [')'])) :=
    .plain (by decide) (by decide) (by decide)
      (@Nested.group _ ('(', ')') _ _ (by decide) (nested_of_flat (by decide)) .nil)
  have inner : Nested [] ("i, ".toList ++ ('(' :: (['j'] ++ [')']))) :=
    (nested_of_flat (by decide)).append
      (@Nested.group _ ('(', ')') _ _ (by decide) (nested_of_flat (by decide)) .nil)
  have index : Nested [','] ('m' :: '[' :: (("i, ".toList ++ ('(' :: (['j'] ++ [')']))) ++ [']'])) :=
    .plain (by decide) (by decide) (by decide)
      (@Nested.group _ ('[', ']') _ _ (by decide) inner .nil)
  have each : ∀ argument ∈ ["f(a, b)".toList, [], "m[i, (j)]".toList],
      Trimmed argument ∧ Nested [','] argument :=
    List.forall_mem_cons.mpr ⟨⟨⟨by decide, by decide⟩, call⟩, List.forall_mem_cons.mpr
      ⟨⟨⟨by decide, by decide⟩, .nil⟩, List.forall_mem_singleton.mpr ⟨⟨by decide, by decide⟩, index⟩⟩⟩
  have joined : Text.join ", " ["f(a, b)".toList, [], "m[i, (j)]".toList] =
      "f(a, b), , m[i, (j)]".toList := by decide
  have read := splitArguments_reads_back.1 _ (by decide) (by decide) each
  rw [joined] at read
  exact ⟨each, joined, read⟩

end Code
end ShaderBridge
