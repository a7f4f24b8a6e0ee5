import Mathlib.Algebra.GroupWithZero.Nat
import Mathlib.Data.List.Basic
import ShaderBridge.Proofs.Text.Search
import ShaderBridge.Text.Lines
set_option autoImplicit false

/-! Lines of texts that are put together, how many there are, and what becomes of line ends when a
text is made to end its lines with line feeds alone. -/

namespace ShaderBridge
namespace Text

/-- The line of a text with a number, counted from one. -/
def line? (text : Text) : Nat → Option Text
  | 0 => none
  | index + 1 => text.lines[index]?

theorem lines_append_line_feed (first rest : Text) :
    lines (first ++ '\n' :: rest) = lines first ++ lines rest :=
  List.splitOn_append_cons_self first rest

theorem lines_of_flat {line : Text} (flat : '\n' ∉ line) : lines line = [line] :=
  List.splitOn_eq_singleton flat

theorem lines_of_flat_append {line : Text} (flat : '\n' ∉ line) (rest : Text) :
    lines (line ++ '\n' :: rest) = line :: lines rest := by
  rw [lines_append_line_feed, lines_of_flat flat, List.singleton_append]

/-- A text is one line, or a line, its line feed, and a text. -/
theorem lines_induction {motive : Text → Prop} (last : ∀ line, '\n' ∉ line → motive line)
    (first : ∀ line rest, '\n' ∉ line → motive rest → motive (line ++ '\n' :: rest)) (text : Text) :
    motive text := by
  induction size : text.length using Nat.strongRecOn generalizing text with
  | ind size ih =>
      by_cases flat : '\n' ∈ text
      · obtain ⟨line, rest, rfl, early⟩ := List.eq_append_cons_of_mem flat
        refine first line rest early (ih rest.length ?_ rest rfl)
        rw [← size, List.length_append, List.length_cons]
        omega
      · exact last text flat

theorem line_feed_not_mem {text line : Text} (member : line ∈ lines text) : '\n' ∉ line := by
  induction text using lines_induction with
  | last only flat =>
      rw [lines_of_flat flat, List.mem_singleton] at member
      rw [member]
      exact flat
  | first front rest flat ih =>
      rw [lines_of_flat_append flat] at member
      rcases List.mem_cons.mp member with rfl | later
      · exact flat
      · exact ih later

theorem infix_iff_lines {needle text : Text} (flat : '\n' ∉ needle) :
    needle <:+: text ↔ ∃ line ∈ lines text, needle <:+: line := by
  induction text using lines_induction with
  | last line level =>
      rw [lines_of_flat level]
      simp only [List.mem_singleton, exists_eq_left]
  | first line rest level ih =>
      rw [lines_of_flat_append level, infix_append_cons_iff flat, ih]
      simp only [List.mem_cons, exists_eq_or_imp]

theorem lines_ne_nil (text : Text) : lines text ≠ [] := List.splitOn_ne_nil '\n' text

theorem length_lines (text : Text) : (lines text).length = text.count '\n' + 1 := by
  induction text with
  | nil => rfl
  | cons char text ih =>
      unfold lines at ih ⊢
      rw [List.splitOn_cons_eq_if_modifyHead]
      by_cases ends : char = '\n'
      · rw [if_pos (beq_iff_eq.mpr ends), List.length_cons, ih, ends, List.count_cons_self]
      · rw [if_neg (mt beq_iff_eq.mp ends), List.length_modifyHead, ih, List.count_cons_of_ne ends]

theorem endsWith_line_feed_iff {text : Text} :
    endsWith ['\n'] text = true ↔ ∃ front, text = front ++ ['\n'] := by
  unfold endsWith startsWith
  rw [Option.isSome_iff_exists]
  simp only [after?_eq_some_iff]
  constructor
  · rintro ⟨back, turned⟩
    have straight := congrArg List.reverse turned
    rw [List.reverse_reverse, List.reverse_append] at straight
    exact ⟨back.reverse, straight⟩
  · rintro ⟨front, rfl⟩
    exact ⟨front.reverse, List.reverse_append⟩

theorem countLines_append_line_feed (text : Text) :
    countLines (text ++ ['\n']) = (lines text).length := by
  have closed : endsWith ['\n'] (text ++ ['\n']) = true := endsWith_line_feed_iff.mpr ⟨text, rfl⟩
  unfold countLines
  rw [closed, Bool.or_true, if_pos rfl, length_lines, List.count_append, List.count_singleton_self]

theorem countLines_of_open {text : Text} (some : text ≠ [])
    (unclosed : endsWith ['\n'] text = false) : countLines text = (lines text).length := by
  have filled : text.isEmpty = false := List.isEmpty_eq_false_iff.mpr some
  unfold countLines
  rw [filled, unclosed, length_lines]
  rfl

theorem lines_cons {char : Char} (stays : char ≠ '\n') (text : Text) :
    lines (char :: text) = (lines text).modifyHead (char :: ·) := by
  unfold lines
  rw [List.splitOn_cons_eq_if_modifyHead, if_neg (mt beq_iff_eq.mp stays)]

theorem unlines_singleton (part : Text) : unlines [part] = part := by
  unfold unlines join
  exact List.intercalate_singleton

theorem join_cons_cons (separator part next : Text) (parts : List Text) :
    join separator (part :: next :: parts) =
      part ++ (separator ++ join separator (next :: parts)) :=
  List.intercalate_cons_cons.trans (List.append_assoc _ _ _)

theorem unlines_cons_cons (part next : Text) (parts : List Text) :
    unlines (part :: next :: parts) = part ++ '\n' :: unlines (next :: parts) :=
  join_cons_cons _ _ _ _

theorem unlines_concat_line_feed {parts : List Text} (some : parts ≠ []) :
    unlines parts ++ ['\n'] = parts.flatMap (· ++ ['\n']) := by
  induction parts with
  | nil => exact absurd rfl some
  | cons part parts ih =>
      cases parts with
      | nil => rw [unlines_singleton, List.flatMap_singleton]
      | cons next parts =>
          rw [unlines_cons_cons, List.append_assoc, List.cons_append,
            ih (List.cons_ne_nil next parts)]
          exact (List.append_assoc part ['\n'] _).symm

theorem lines_concat_line_feed (inner : Text) : lines (inner ++ ['\n']) = lines inner ++ [[]] :=
  lines_append_line_feed inner []

theorem lines_eq_cons {text : Text} (filled : text ≠ []) (begins : text.head? ≠ some '\n') :
    ∃ line others, lines text = line :: others ∧ line ≠ [] := by
  cases text with
  | nil => exact absurd rfl filled
  | cons char text =>
      obtain ⟨line, others, split⟩ := List.exists_cons_of_ne_nil (lines_ne_nil text)
      refine ⟨char :: line, others, ?_, List.cons_ne_nil char line⟩
      rw [lines_cons fun same => begins (congrArg some same), split]
      rfl

theorem lines_eq_concat {text : Text} (filled : text ≠ []) (ends : text.getLast? ≠ some '\n') :
    ∃ others line, lines text = others ++ [line] ∧ line ≠ [] := by
  induction text using lines_induction with
  | last line flat => exact ⟨[], line, lines_of_flat flat, filled⟩
  | first line rest flat ih =>
      cases rest with
      | nil => exact absurd List.getLast?_concat ends
      | cons char rest =>
          rw [List.getLast?_append_of_ne_nil _ (List.cons_ne_nil _ _), List.getLast?_cons_cons] at ends
          obtain ⟨others, last, split, some⟩ := ih (List.cons_ne_nil _ _) ends
          exact ⟨line :: others, last, by rw [lines_of_flat_append flat, split]; rfl, some⟩

theorem unlines_eq_flatMap {Item : Type} {read : Text → List Item} (none : read [] = [])
    (joined : ∀ first rest, read (first ++ '\n' :: rest) = read first ++ read rest)
    (parts : List Text) : read (unlines parts) = parts.flatMap read := by
  induction parts with
  | nil => exact none
  | cons part parts ih =>
      cases parts with
      | nil => rw [unlines_singleton, List.flatMap_singleton]
      | cons next parts =>
          rw [unlines_cons_cons, joined, ih]
          rfl

theorem mem_join {char : Char} {separator : Text} (apart : char ∉ separator)
    (parts : List Text) : char ∈ join separator parts ↔ ∃ part ∈ parts, char ∈ part := by
  induction parts with
  | nil => simp [join]
  | cons first parts ih =>
      cases parts with
      | nil => simp [join]
      | cons second parts =>
          rw [join_cons_cons]
          simp only [List.mem_append, ih, apart, false_or, List.mem_cons, exists_eq_or_imp]

theorem count_join (separator : Text) (parts : List Text) (char : Char) :
    (join separator parts).count char =
      (parts.map (List.count char)).sum + (parts.length - 1) * separator.count char := by
  induction parts with
  | nil => simp [join]
  | cons part parts ih =>
      cases parts with
      | nil => simp [join]
      | cons next parts =>
          rw [join_cons_cons, List.count_append, List.count_append, ih]
          simp only [List.map_cons, List.sum_cons, List.length_cons, Nat.add_sub_cancel,
            Nat.add_mul, Nat.one_mul]
          omega

theorem count_unlines {char : Char} (other : char ≠ '\n') (parts : List Text) :
    (unlines parts).count char = (parts.map (List.count char)).sum := by
  have none : ['\n'].count char = 0 := List.count_eq_zero.mpr (mt List.mem_singleton.mp other)
  unfold unlines
  rw [count_join, none, Nat.mul_zero, Nat.add_zero]

/-- A text is empty, or begins with a carriage return and its line feed, or with one character that
is no such pair with the next. -/
theorem newlines_induction {motive : Text → Prop} (empty : motive [])
    (pair : ∀ text, motive text → motive ('\r' :: '\n' :: text))
    (single : ∀ char text, (∀ rest, char = '\r' → text = '\n' :: rest → False) → motive text →
      motive (char :: text)) (text : Text) : motive text :=
  normalizeNewlines.induct motive empty pair single text

theorem normalizeNewlines_pair (text : Text) :
    normalizeNewlines ('\r' :: '\n' :: text) = '\n' :: normalizeNewlines text := rfl

theorem normalizeNewlines_cons {char : Char} {text : Text}
    (single : ∀ rest, char = '\r' → text = '\n' :: rest → False) :
    normalizeNewlines (char :: text) =
      (if char = '\r' then '\n' else char) :: normalizeNewlines text := by
  rw [normalizeNewlines]
  exact single

theorem not_mem_normalizeNewlines (text : Text) : '\r' ∉ normalizeNewlines text := by
  induction text using newlines_induction with
  | empty => exact List.not_mem_nil
  | pair text ih =>
      rw [normalizeNewlines_pair]
      exact fun member => (List.mem_cons.mp member).elim nofun ih
  | single char text alone ih =>
      rw [normalizeNewlines_cons alone]
      refine fun member => (List.mem_cons.mp member).elim (fun same => ?_) ih
      split at same
      · cases same
      · next other => exact other same.symm

theorem normalizeNewlines_eq_self {text : Text} (free : '\r' ∉ text) :
    normalizeNewlines text = text := by
  induction text using newlines_induction with
  | empty => rfl
  | pair text _ih => exact absurd List.mem_cons_self free
  | single char text alone ih =>
      have other : char ≠ '\r' := fun same => free (same ▸ List.mem_cons_self)
      rw [normalizeNewlines_cons alone, if_neg other,
        ih fun member => free (List.mem_cons_of_mem _ member)]

private theorem getLast?_cons_of_getLast? (first : Char) {last : Char} {text : Text}
    (final : text.getLast? = some last) : (first :: text).getLast? = some last := by
  rw [List.getLast?_cons, final]
  rfl

/-- A text may be normalized in parts unless it is cut between a carriage return and its line
feed. -/
theorem normalizeNewlines_append (first rest : Text)
    (whole : first.getLast? ≠ some '\r' ∨ rest.head? ≠ some '\n') :
    normalizeNewlines (first ++ rest) = normalizeNewlines first ++ normalizeNewlines rest := by
  induction first using newlines_induction with
  | empty => rfl
  | pair first ih =>
      have inner := whole.imp_left (mt fun final =>
        getLast?_cons_of_getLast? '\r' (getLast?_cons_of_getLast? '\n' final))
      rw [List.cons_append, List.cons_append, normalizeNewlines_pair, normalizeNewlines_pair, ih inner,
        List.cons_append]
  | single char first alone ih =>
      have inner := whole.imp_left (mt (getLast?_cons_of_getLast? char))
      have joined : ∀ more, char = '\r' → first ++ rest = '\n' :: more → False := by
        intro more same split
        cases first with
        | nil =>
            rcases whole with other | apart
            · exact other (congrArg some same)
            · change rest = '\n' :: more at split
              rw [split] at apart
              exact apart rfl
        | cons next first =>
            obtain ⟨rfl, _same⟩ := List.cons.inj split
            exact alone first same rfl
      rw [List.cons_append, normalizeNewlines_cons joined, normalizeNewlines_cons alone, ih inner,
        List.cons_append]

theorem normalizeNewlines_append_line_feed (text : Text) :
    ∃ front, normalizeNewlines (text ++ ['\n']) = front ++ ['\n'] ∧
      (normalizeNewlines text = front ∨ normalizeNewlines text = front ++ ['\n']) := by
  by_cases joins : text.getLast? = some '\r'
  · obtain ⟨front, rfl⟩ := List.getLast?_eq_some_iff.mp joins
    refine ⟨normalizeNewlines front, ?_, .inr (normalizeNewlines_append front _ (.inr nofun))⟩
    rw [List.append_assoc]
    exact normalizeNewlines_append front _ (.inr nofun)
  · exact ⟨_, normalizeNewlines_append text _ (.inl joins), .inl rfl⟩

private theorem prefix_of_prefix_normalizeNewlines {needle text : Text} (flat : '\n' ∉ needle)
    (found : needle <+: normalizeNewlines text) : needle <+: text := by
  induction text using newlines_induction generalizing needle with
  | empty => exact found
  | pair text ih =>
      rw [normalizeNewlines_pair] at found
      rcases List.prefix_cons_iff.mp found with rfl | ⟨rest, rfl, _deeper⟩
      · exact List.nil_prefix
      · exact absurd List.mem_cons_self flat
  | single char text alone ih =>
      rw [normalizeNewlines_cons alone] at found
      rcases List.prefix_cons_iff.mp found with rfl | ⟨rest, rfl, deeper⟩
      · exact List.nil_prefix
      · obtain ⟨apart, flat⟩ := not_or.mp (mt List.mem_cons.mpr flat)
        by_cases turned : char = '\r'
        · exact absurd (if_pos turned).symm apart
        · rw [if_neg turned]
          exact (List.prefix_cons_inj char).mpr (ih flat deeper)

theorem infix_of_infix_normalizeNewlines {needle text : Text} (flat : '\n' ∉ needle)
    (found : needle <:+: normalizeNewlines text) : needle <:+: text := by
  induction text using newlines_induction with
  | empty => exact found
  | pair text ih =>
      rw [normalizeNewlines_pair] at found
      exact List.infix_cons (List.infix_cons (ih (infix_of_infix_cons flat found)))
  | single char text alone ih =>
      by_cases here : needle <+: normalizeNewlines (char :: text)
      · exact (prefix_of_prefix_normalizeNewlines flat here).isInfix
      · rw [normalizeNewlines_cons alone] at found here
        exact List.infix_cons (ih ((List.infix_cons_iff.mp found).resolve_left here))

end Text
end ShaderBridge
