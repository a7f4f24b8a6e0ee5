import Mathlib.Algebra.Order.BigOperators.Group.List
import ShaderBridge.Export.Return
import ShaderBridge.Proofs.Code.Arguments
import ShaderBridge.Proofs.Text.Pieces
set_option autoImplicit false

/-! A color that is cut down to three components. Its constructor loses the last argument, however
many components that has, so the first three components are left just when it has a single one
(`truncateToRgb_keeps_rgb_iff`). -/

namespace ShaderBridge
namespace Export

open Code
open Text (Blank Trimmed)

structure ArgumentList where
  parts : List Text
  several : 2 ≤ parts.length
  /-- Brackets are properly nested, and commas stand inside of them only. -/
  nested : ∀ part ∈ parts, Nested [','] part
  plain : ∀ part ∈ parts, Uncommented part

namespace ArgumentList
variable (list : ArgumentList)

def arguments : List Text := list.parts.map Text.trim

def inner : Text := Text.join "," list.parts

def call (typeName gap : Text) : Text := typeName ++ (gap ++ '(' :: (list.inner ++ [')']))

theorem splitArguments_inner : splitArguments list.inner = list.arguments :=
  splitArguments_join list.several list.nested

private theorem nested_join {part : Text} {parts : List Text}
    (nested : ∀ piece ∈ part :: parts, Nested [','] piece) :
    Nested [] (Text.join "," (part :: parts)) := by
  have flat : ∀ {piece : Text}, Nested [','] piece → Nested [] piece :=
    fun nested => nested.mono (List.nil_subset _)
  induction parts generalizing part with
  | nil =>
      have single : Text.join "," [part] = part := List.append_nil part
      rw [single]
      exact flat (nested part List.mem_cons_self)
  | cons next parts ih =>
      obtain ⟨first, rest⟩ := List.forall_mem_cons.mp nested
      rw [Text.join_cons_cons]
      exact (flat first).append (.plain (by decide) (by decide) List.not_mem_nil (ih rest))

private theorem uncommented_append_cons {first rest : Text} {mark : Char}
    (apart : mark ≠ '/' ∧ mark ≠ '*') (before : Uncommented first) (after : Uncommented rest) :
    Uncommented (first ++ mark :: rest) := by
  refine List.isChain_append.mpr ⟨before, ?_, ?_⟩
  · refine List.isChain_cons.mpr ⟨?_, after⟩
    intro next _begins same
    exact absurd same apart.1
  · intro last _ends next begins _slash
    obtain rfl : mark = next := Option.some.inj begins
    exact apart

private theorem uncommented_join {part : Text} {parts : List Text}
    (plain : ∀ piece ∈ part :: parts, Uncommented piece) :
    Uncommented (Text.join "," (part :: parts)) := by
  induction parts generalizing part with
  | nil =>
      have single : Text.join "," [part] = part := List.append_nil part
      rw [single]
      exact plain part List.mem_cons_self
  | cons next parts ih =>
      obtain ⟨first, rest⟩ := List.forall_mem_cons.mp plain
      rw [Text.join_cons_cons]
      exact uncommented_append_cons (by decide) first (ih rest)

theorem parts_ne_nil : list.parts ≠ [] := by
  intro empty
  have long := list.several
  rw [empty] at long
  exact absurd long (by decide)

theorem closer?_inner (rest : Text) :
    closer? ('(' :: (list.inner ++ ')' :: rest)) = some (list.inner.length + 1) := by
  obtain ⟨part, parts, split⟩ := List.exists_cons_of_ne_nil list.parts_ne_nil
  have nested := list.nested
  have plain := list.plain
  unfold inner
  rw [split] at nested plain ⊢
  exact closer?_of_nested (nested_join nested) (uncommented_join plain) (by decide)

end ArgumentList

section
variable (list : ArgumentList) {typeName gap : Text}
  (known : typeName ∈ (["float4", "half4"] : List Text)) (blank : Blank gap)
include known

private theorem trimmed_call : Trimmed (list.call typeName gap) := by
  have ends : (list.call typeName gap).getLast? = some ')' := by
    unfold ArgumentList.call
    rw [← List.cons_append, ← List.append_assoc, ← List.append_assoc, List.getLast?_concat]
  have begins : (list.call typeName gap).head?.any isBlank = false := by
    unfold ArgumentList.call
    rcases List.mem_pair.mp known with rfl | rfl <;> rfl
  refine ⟨begins, ?_⟩
  rw [ends]
  decide

include blank

private theorem read_call :
    (Scan.orElse (Scan.literal "float4") (Scan.literal "half4") >=> Scan.blanks >=> Scan.literal "(")
      (list.call typeName gap) = some (list.inner ++ [')']) := by
  have opened : (Scan.blanks >=> Scan.literal "(") (gap ++ '(' :: (list.inner ++ [')'])) =
      some (list.inner ++ [')']) :=
    (Scan.blanks_literal_eq_some_iff rfl).mpr ⟨gap, blank, rfl⟩
  have named : Scan.orElse (Scan.literal "float4") (Scan.literal "half4") (list.call typeName gap) =
      some (gap ++ '(' :: (list.inner ++ [')'])) := by
    rcases List.mem_pair.mp known with rfl | rfl <;> rfl
  exact Scan.andThen_eq_some_iff.mpr ⟨_, named, opened⟩

/-- A constructor is cut down to its arguments but the last one. -/
theorem constructed_call :
    truncateToRgb.constructed (list.call typeName gap) =
      match list.arguments.dropLast with
      | [] => none
      | [color] => some color
      | colors => some ("float3(" ++ Text.join ", " colors ++ ")") := by
  unfold truncateToRgb.constructed
  simp only
  rw [read_call list known blank, Option.bind_eq_bind, Option.bind_some, list.closer?_inner,
    Option.bind_eq_bind, Option.bind_some, if_pos (by simp), Nat.add_sub_cancel, List.take_left]
  have split := list.splitArguments_inner
  generalize splitArguments list.inner = arguments at split
  subst split
  rfl

theorem truncateToRgb_call {before after : Text} (left : Blank before) (right : Blank after) :
    (∃ color last, list.arguments = [color, last] ∧
      truncateToRgb (before ++ list.call typeName gap ++ after) = color) ∨
    ∃ first second others last, list.arguments = first :: second :: others ++ [last] ∧
      truncateToRgb (before ++ list.call typeName gap ++ after) =
        "float3(" ++ Text.join ", " (first :: second :: others) ++ ")" := by
  have several : 2 ≤ list.arguments.length := by
    unfold ArgumentList.arguments
    rw [List.length_map]
    exact list.several
  have made := constructed_call list known blank
  unfold truncateToRgb
  simp only
  rw [Text.trim_eq left (trimmed_call list known) right, made]
  generalize list.arguments = arguments at several made
  induction arguments using List.reverseRecOn with
  | nil => exact absurd several (by decide)
  | append_singleton arguments last _ih =>
      rw [List.dropLast_concat]
      match arguments with
      | [] => exact absurd several (by simp)
      | [color] => exact .inl ⟨color, last, rfl, rfl⟩
      | first :: second :: others => exact .inr ⟨first, second, others, last, rfl, rfl⟩

end

/-- The components of the values of expressions that are evaluated one behind the other. -/
def valuesFrom {Store Component : Type} (eval : Text → Store → List Component × Store) :
    (expressions : List Text) → Store → List (List Component)
  | [], _ => []
  | expression :: expressions, store =>
    (eval expression store).1 :: valuesFrom eval expressions (eval expression store).2

/-- What expressions mean: the components of their values. They may change the store as they are
evaluated. A vector constructor means the components of its arguments, one behind the other. -/
structure VectorMeaning (Store Component : Type) where
  eval : (expression : Text) → Store → List Component × Store
  eval_call : ∀ typeName ∈ (["float3", "float4", "half4"] : List Text), ∀ list gap, Blank gap →
    ∀ store, (eval (ArgumentList.call list typeName gap) store).1 =
      (valuesFrom eval list.arguments store).flatten

section
variable {Store Component : Type} (meaning : VectorMeaning Store Component)

theorem valuesFrom_concat (eval : Text → Store → List Component × Store) (expressions : List Text)
    (last : Text) (store : Store) :
    ∃ value, valuesFrom eval (expressions ++ [last]) store =
      valuesFrom eval expressions store ++ [value] := by
  induction expressions generalizing store with
  | nil => exact ⟨_, rfl⟩
  | cons expression expressions ih =>
      obtain ⟨value, behind⟩ := ih (eval expression store).2
      exact ⟨value, congrArg ((eval expression store).1 :: ·) behind⟩

private theorem exists_kept (list : ArgumentList) {first second : Text} {others : List Text}
    {last : Text} (split : list.arguments = first :: second :: others ++ [last]) :
    ∃ kept : ArgumentList, kept.arguments = first :: second :: others ∧
      kept.call "float3" [] = "float3(" ++ Text.join ", " (first :: second :: others) ++ ")" := by
  have known : ∀ argument ∈ first :: second :: others,
      argument.trim = argument ∧ Nested [','] argument ∧ Uncommented argument := by
    intro argument member
    have among : argument ∈ list.arguments := split ▸ List.mem_append_left _ member
    obtain ⟨part, written, rfl⟩ := List.mem_map.mp among
    obtain ⟨before, after, _left, _right, same⟩ := Text.exists_trim part
    refine ⟨Text.trim_eq_self (Text.trimmed_trim part), (list.nested part written).trim, ?_⟩
    exact List.IsChain.infix (list.plain part written) ⟨before, after, same.symm⟩
  obtain ⟨head, rest⟩ := List.forall_mem_cons.mp known
  have spaced : ∀ part ∈ (second :: others).map (' ' :: ·),
      Nested [','] part ∧ Uncommented part := by
    intro part member
    obtain ⟨argument, among, rfl⟩ := List.mem_map.mp member
    obtain ⟨_trimmed, nested, plain⟩ := rest argument among
    refine ⟨.plain (by decide) (by decide) (by decide) nested, List.isChain_cons.mpr ⟨?_, plain⟩⟩
    intro _next _begins same
    exact absurd same (by decide)
  refine ⟨⟨first :: (second :: others).map (' ' :: ·), by simp, ?_, ?_⟩, ?_, ?_⟩
  · exact List.forall_mem_cons.mpr ⟨head.2.1, fun part member => (spaced part member).1⟩
  · exact List.forall_mem_cons.mpr ⟨head.2.2, fun part member => (spaced part member).2⟩
  · unfold ArgumentList.arguments
    rw [List.map_cons, head.1, List.map_map]
    refine congrArg (first :: ·) ((List.map_congr_left fun argument member => ?_).trans (List.map_id _))
    obtain ⟨trimmed, _nested, _plain⟩ := rest argument member
    exact (Text.trim_blank_append (by decide : Blank [' ']) argument).trans trimmed
  · unfold ArgumentList.call ArgumentList.inner
    rw [join_spaced]
    rfl

variable {list : ArgumentList} {typeName gap before after : Text}
  (known : typeName ∈ (["float4", "half4"] : List Text)) (blank : Blank gap) (left : Blank before)
  (right : Blank after)
include known blank left right

theorem eval_truncateToRgb (store : Store) :
    (meaning.eval (truncateToRgb (before ++ list.call typeName gap ++ after)) store).1 =
      (valuesFrom meaning.eval list.arguments store).dropLast.flatten := by
  rcases truncateToRgb_call list known blank left right with
    ⟨color, last, split, made⟩ | ⟨first, second, others, last, split, made⟩
  · rw [split, made]
    exact (List.append_nil _).symm
  · obtain ⟨kept, arguments, written⟩ := exists_kept list split
    obtain ⟨value, values⟩ := valuesFrom_concat meaning.eval (first :: second :: others) last store
    rw [made, ← written, meaning.eval_call "float3" (by decide) kept [] (List.forall_mem_nil _), arguments, split,
      values, List.dropLast_concat]

/-- The first three of four components are left just when the last argument has a single one. -/
theorem truncateToRgb_keeps_rgb_iff (store : Store)
    (four : ((valuesFrom meaning.eval list.arguments store).map List.length).sum = 4) :
    (meaning.eval (truncateToRgb (before ++ list.call typeName gap ++ after)) store).1 =
        (meaning.eval (list.call typeName gap) store).1.take 3 ↔
      (valuesFrom meaning.eval list.arguments store).getLast?.map List.length = some 1 := by
  have vector := meaning.eval_call typeName (List.mem_cons_of_mem _ known) list gap blank store
  rw [eval_truncateToRgb meaning known blank left right store, vector]
  generalize valuesFrom meaning.eval list.arguments store = values at four
  induction values using List.reverseRecOn with
  | nil => cases four
  | append_singleton values last _ih =>
      rw [List.map_append, List.sum_append] at four
      rw [List.dropLast_concat, List.flatten_append, List.getLast?_concat]
      have length : values.flatten.length + last.length = 4 := by
        rw [List.length_flatten]
        simpa using four
      constructor
      · intro same
        have counted := congrArg List.length same
        simp only [List.length_take, List.length_append, List.flatten_cons, List.flatten_nil,
          List.append_nil] at counted
        refine congrArg some ?_
        omega
      · intro single
        have one : last.length = 1 := Option.some.inj single
        have three : values.flatten.length = 3 := by omega
        rw [← three, List.take_left]

end

private def capitalsOf (text : Text) : List Char := text.filter Char.isUpper

private theorem capitalsOf_blank {blanks : Text} (blank : Blank blanks) : capitalsOf blanks = [] := by
  apply List.filter_eq_nil_iff.mpr
  intro char member capital
  have letter : isWord char = true := by
    apply isWord_of_isIdentifierStart
    unfold isIdentifierStart Char.isAlpha
    rw [capital]
    rfl
  exact absurd (letter.symm.trans (isWord_of_isBlank (blank char member))) nofun

private theorem capitalsOf_trim (text : Text) : capitalsOf text.trim = capitalsOf text := by
  obtain ⟨before, after, left, right, same⟩ := Text.exists_trim text
  have split : capitalsOf text =
      capitalsOf before ++ capitalsOf text.trim ++ capitalsOf after := by
    conv_lhs => rw [same]
    unfold capitalsOf
    rw [List.filter_append, List.filter_append]
  rw [split, capitalsOf_blank left, capitalsOf_blank right, List.append_nil, List.nil_append]

private theorem capitalsOf_join (parts : List Text) :
    capitalsOf (Text.join "," parts) = (parts.map capitalsOf).flatten := by
  induction parts with
  | nil => rfl
  | cons part parts ih =>
      cases parts with
      | nil =>
          have single : Text.join "," [part] = part := List.append_nil part
          rw [single]
          exact (List.append_nil _).symm
      | cons next parts =>
          rw [Text.join_cons_cons, List.map_cons, List.flatten_cons, ← ih]
          exact List.filter_append part _

private theorem valuesFrom_capitalsOf (parts : List Text) :
    valuesFrom (fun expression store => (capitalsOf expression, store)) (parts.map Text.trim) () =
      parts.map capitalsOf := by
  induction parts with
  | nil => rfl
  | cons part parts ih =>
      rw [List.map_cons, List.map_cons, valuesFrom, ih, capitalsOf_trim]

/-- The meaning in which each capital letter of an expression is a component of its value. -/
def capitals : VectorMeaning Unit Char where
  eval expression store := (capitalsOf expression, store)
  eval_call := by
    intro typeName known list gap blank _store
    have small : ∀ name ∈ (["float3", "float4", "half4"] : List Text), capitalsOf name = [] := by
      decide
    have split : capitalsOf (list.call typeName gap) =
        capitalsOf typeName ++ (capitalsOf gap ++ (capitalsOf list.inner ++ [])) := by
      unfold ArgumentList.call capitalsOf
      rw [List.filter_append, List.filter_append, List.filter_cons_of_neg (by decide),
        List.filter_append]
      rfl
    unfold ArgumentList.arguments
    rw [valuesFrom_capitalsOf, ← capitalsOf_join, split, small typeName known,
      capitalsOf_blank blank, List.nil_append, List.nil_append, List.append_nil]
    rfl

/-- Two arguments of two components each. -/
def pairs : ArgumentList where
  parts := ["RG", " BA"]
  several := by decide
  nested := fun part member => nested_of_flat (by revert part; decide)
  plain := by
    unfold Uncommented
    decide

theorem truncateToRgb_of_pairs :
    ((valuesFrom capitals.eval pairs.arguments ()).map List.length).sum = 4 ∧
      (capitals.eval (truncateToRgb (" " ++ pairs.call "float4" [] ++ "\n")) ()).1 ≠
        (capitals.eval (pairs.call "float4" []) ()).1.take 3 := by
  have four : ((valuesFrom capitals.eval pairs.arguments ()).map List.length).sum = 4 := by decide
  have gap : Blank [] := by decide
  have before : Blank " " := by decide
  have after : Blank "\n" := by decide
  refine ⟨four, fun same => ?_⟩
  have single := (truncateToRgb_keeps_rgb_iff capitals (by decide) gap before after () four).mp same
  exact absurd single (by decide)

end Export
end ShaderBridge
