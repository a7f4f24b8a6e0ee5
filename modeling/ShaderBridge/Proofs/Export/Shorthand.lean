import ShaderBridge.Export.Unreal
import ShaderBridge.Proofs.Code.Declared
set_option autoImplicit false

/-! The constructor calls of an artifact, written out. Every call that repeats a scalar is written out,
nothing else is touched, and once is enough (`tryExpandVectorCalls_spec`). Whether an argument is a
scalar is told by the names that are found right behind a vector type, so a call keeps a vector just
when its name is found so, and that a declaration of several names does for the first one only
(`declared_vector_kept_iff`). -/

namespace ShaderBridge
namespace Export

open Code
open Text (Blank IsOneWord)

theorem wellNamed_hlslVectors : WellNamed hlslVectors := by
  have words : ∀ entry ∈ hlslVectors, entry.1 ≠ [] ∧ entry.1.all isWord = true := by decide
  exact ⟨fun entry member => ⟨(words entry member).1, List.all_eq_true.mp (words entry member).2⟩,
    by decide⟩

private theorem size_hlslVectors :
    ∀ entry ∈ hlslVectors, 1 < entry.2 ∧ CapacityProblem.ofListLength? (entry.2 : Nat) = none := by
  decide

private theorem mem_of_mem_expandedSizes {types : VectorTypes} {vectors : List Text} {sites size : Nat}
    {before : Option Char} {text : Text}
    (member : size ∈ expandedSizes types vectors sites before text) :
    ∃ name, (name, size) ∈ types := by
  induction sites generalizing before text with
  | zero => cases member
  | succ sites ih =>
      rw [expandedSizes] at member
      cases next : expandFrom.nextCall types before text with
      | none =>
          rw [next] at member
          cases member
      | some call =>
          obtain ⟨passed, count, rest⟩ := call
          obtain ⟨_front, name, _gap, known, _blank, _passed, _whole, _call, _first⟩ :=
            nextCall_eq_some next
          rw [next] at member
          simp only at member
          split at member
          · rcases List.mem_cons.mp member with rfl | later
            · exact ⟨name, known⟩
            · exact ih later
          · exact ih member

theorem tryExpandVectorCalls_eq_ok (vectors : List Text) (code : Text) :
    tryExpandVectorCalls hlslVectors vectors code = .ok (expandVectorCalls hlslVectors vectors code) := by
  have fits : (expandedSizes hlslVectors vectors (code.count '(') none code).findSome?
      (fun size : Nat => CapacityProblem.ofListLength? size) = none := by
    apply List.findSome?_eq_none_iff.mpr
    intro size member
    obtain ⟨name, known⟩ := mem_of_mem_expandedSizes member
    exact (size_hlslVectors _ known).2
  unfold tryExpandVectorCalls
  rw [fits]

/-- Writing out ends, with the sites of the calls that repeat a scalar written out and everything else
as it was, and a text that was written out stays as it is. -/
theorem tryExpandVectorCalls_spec (code : Text) (given : Option (List Text)) :
    let vectors := given.getD (declaredVectors hlslVectors code)
    ∃ result stretches, tryExpandVectorCalls hlslVectors vectors code = .ok result ∧
      (∀ rounds, code.count '(' ≤ rounds →
        expandFrom hlslVectors vectors rounds none code = result) ∧
      code = stretches.flatMap Stretch.text ∧ result = stretches.flatMap Stretch.written ∧
      (∀ size opened inner closed, Stands stretches size opened inner closed ↔
        code = opened ++ (inner ++ closed) ∧
          Site hlslVectors vectors none size opened inner closed) ∧
      tryExpandVectorCalls hlslVectors (given.getD (declaredVectors hlslVectors result)) result =
        .ok result := by
  intro vectors
  obtain ⟨stretches, texts, written, stands⟩ := exists_stretches wellNamed_hlslVectors none code
  refine ⟨expandVectorCalls hlslVectors vectors code, stretches, tryExpandVectorCalls_eq_ok _ _,
    fun rounds enough => expandFrom_eq_expandAfter enough, texts.symm, written.symm, stands, ?_⟩
  rw [declaredVectors_expandVectorCalls wellNamed_hlslVectors, tryExpandVectorCalls_eq_ok]
  exact congrArg _ (expandAfter_expandAfter wellNamed_hlslVectors (List.Subset.refl _) none code)

/-- A call is given a variable of the name, or a member of the name. -/
def Passes (call : Call hlslVectors) (name : Text) : Prop :=
  call.inner.trim = name ∨
    ∃ owner, isAccessChain owner = true ∧ call.inner.trim = owner ++ '.' :: name

section
variable {call : Call hlslVectors} {name : Text} (named : isIdentifier name = true)
  (passed : Passes call name)
include named passed

private theorem not_mem_of_passes : '(' ∉ call.inner := by
  have letters := (isIdentifier_iff.mp named).1.2
  have argument : '(' ∉ call.inner.trim := by
    rcases passed with whole | ⟨owner, accesses, whole⟩
    · rw [whole]
      exact fun member => absurd (letters '(' member) (by decide)
    · have chain := List.count_eq_zero.mp
        (count_of_isAccessChain (by decide : isWord '(' = false) (by decide) accesses)
      rw [whole]
      simp only [List.mem_append, List.mem_cons, not_or]
      exact ⟨chain, by decide, fun member => absurd (letters '(' member) (by decide)⟩
  obtain ⟨before, after, left, right, same⟩ := Text.exists_trim call.inner
  have absent : ∀ {blanks : Text}, Blank blanks → '(' ∉ blanks :=
    fun blank member => absurd (blank '(' member) (by decide)
  rw [same]
  simp only [List.mem_append, not_or]
  exact ⟨⟨absent left, argument⟩, absent right⟩

private theorem lastComponent_of_passes : lastComponent call.inner.trim = name := by
  have letters : ∀ char ∈ name.reverse, (char != '.') = true := by
    intro char member
    have letter := (isIdentifier_iff.mp named).1.2 char (List.mem_reverse.mp member)
    refine bne_iff_ne.mpr ?_
    rintro rfl
    exact absurd letter (by decide)
  unfold lastComponent Text.afterLast
  rcases passed with whole | ⟨owner, _accesses, whole⟩
  · rw [whole, List.takeWhile_eq_self_iff.mpr letters, List.reverse_reverse]
  · rw [whole, List.reverse_append, List.reverse_cons, List.append_assoc,
      List.takeWhile_append_of_pos letters, List.singleton_append,
      List.takeWhile_cons_of_neg (by decide), List.append_nil, List.reverse_reverse]

end

/-- A call that is given a declared vector keeps it just when the name is found among the declared ones,
or when the argument looks like no scalar. A name is found right behind a vector type, so of a list of
names the first one is. -/
theorem declared_vector_kept_iff (list : DeclarationList hlslVectors) {front back : Text}
    (outside : front.getLast?.any joinsName = false) {call : Call hlslVectors}
    (occurs : call.code = front ++ (list.text ++ back)) {name : Text} (declared : name ∈ list.names)
    (passed : Passes call name) :
    let known := declaredVectors hlslVectors call.code
    ∃ result, tryExpandVectorCalls hlslVectors known call.code = .ok result ∧
      (result = call.kept known ↔ name ∈ known ∨ isSimpleScalar call.inner.trim = false) ∧
      (name ∈ known → ∃ before declaration after, call.code = before ++ (declaration ++ after) ∧
        Declares hlslVectors declaration name) ∧
      (¬ EndsInType hlslVectors front → list.first.name ∈ known) := by
  intro known
  obtain ⟨declarator, _member, rfl⟩ := List.mem_map.mp declared
  have plain := not_mem_of_passes declarator.named passed
  refine ⟨expandVectorCalls hlslVectors known call.code, tryExpandVectorCalls_eq_ok _ _, ?_,
    exists_declares wellNamed_hlslVectors, ?_⟩
  · rw [call.expand_eq_kept_iff wellNamed_hlslVectors plain]
    constructor
    · intro stays
      by_contra neither
      obtain ⟨unknown, scalar⟩ := not_or.mp neither
      refine stays ⟨(size_hlslVectors _ call.known).1, Bool.eq_true_of_not_eq_false scalar, ?_⟩
      rwa [lastComponent_of_passes declarator.named passed]
    · rintro (found | complex) ⟨_several, simple, scalar⟩
      · rw [lastComponent_of_passes declarator.named passed] at scalar
        exact scalar found
      · exact absurd (simple.symm.trans complex) nofun
  · intro alone
    have first := list.first_mem wellNamed_hlslVectors outside alone back
    rwa [← occurs] at first

/-- Two vectors in one declaration. -/
def twoVectors : DeclarationList hlslVectors where
  typeName := "float3"
  size := 3
  first := ⟨" ", "a", " ", "= x", by decide, by decide, by decide⟩
  others := [⟨" ", "b", " ", "= y", by decide, by decide, by decide⟩]
  known := by decide
  apart := by decide

/-- A copy of the second of them. -/
def copyOfSecond : Call hlslVectors where
  front := "float3 a = x, b = y;\nfloat3 c = "
  typeName := "float3"
  size := 3
  gap := []
  inner := "b"
  closed := ");\n"
  known := by decide
  apart := by decide
  blank := List.forall_mem_nil _
  closes := by decide

theorem second_vector_broadcast :
    let known := declaredVectors hlslVectors copyOfSecond.code
    copyOfSecond.code = "float3 a = x, b = y;\nfloat3 c = float3(b);\n" ∧
      ∃ result, tryExpandVectorCalls hlslVectors known copyOfSecond.code = .ok result ∧
        result ≠ copyOfSecond.kept known := by
  intro known
  have unknown : ("b" : Text) ∉ known := by decide +kernel
  have outside : ([] : Text).getLast?.any joinsName = false := rfl
  have occurs : copyOfSecond.code =
      [] ++ (twoVectors.text ++ ("\nfloat3 c = float3(b);\n" : Text)) := by decide
  have declared : ("b" : Text) ∈ twoVectors.names := by decide
  have passed : Passes copyOfSecond "b" := .inl (by decide)
  obtain ⟨result, written, kept, _found, _first⟩ :=
    declared_vector_kept_iff twoVectors outside occurs declared passed
  refine ⟨by decide, result, written, fun same => ?_⟩
  rcases kept.mp same with found | complex
  · exact unknown found
  · exact absurd complex (by decide)

end Export
end ShaderBridge
