import ShaderBridge.Proofs.Code.Access
import ShaderBridge.Proofs.Code.CallSite
set_option autoImplicit false

/-! Passes that bring no comment into a text. A comment begins with two marks, and no pass over names,
constructor calls or loops moves one mark next to another. -/

namespace ShaderBridge
namespace Code

open Text (startsWord endsWord tokens)

variable {text : Text}

theorem uncommented_iff :
    Uncommented text ↔ ¬ ['/', '/'] <:+: text ∧ ¬ ['/', '*'] <:+: text := by
  unfold Uncommented
  induction text with
  | nil => simp
  | cons char text ih =>
      cases text with
      | nil => simp [List.infix_cons_iff]
      | cons next text =>
          have step (mark : Char) : ['/', mark] <:+: char :: next :: text ↔
              char = '/' ∧ next = mark ∨ ['/', mark] <:+: next :: text := by
            rw [List.infix_cons_iff, List.cons_prefix_cons, List.cons_prefix_cons]
            simp only [List.nil_prefix, and_true, eq_comm]
          rw [List.isChain_cons_cons, ih, step, step]
          grind

theorem infix_tokens_marks_iff {first second : Char} (mark : isWord first = false)
    (other : isWord second = false) :
    [.mark first, .mark second] <:+: tokens text ↔ [first, second] <:+: text := by
  constructor
  · rintro ⟨before, after, same⟩
    have whole := congrArg Text.spell same
    rw [Text.spell_tokens] at whole
    refine ⟨Text.spell before, Text.spell after, ?_⟩
    rw [← whole, Text.spell_append, Text.spell_append]
    rfl
  · rintro ⟨before, after, rfl⟩
    refine ⟨tokens before, tokens after, ?_⟩
    have split : before ++ [first, second] ++ after = before ++ first :: second :: after :=
      List.append_assoc _ _ _
    rw [split, Text.tokens_append_mark mark, Text.tokens_cons_mark other]
    exact List.append_assoc _ _ _

theorem Uncommented.of_infix {other : Text} (plain : Uncommented text)
    (kept : ∀ mark ∈ ['/', '*'], ['/', mark] <:+: other → ['/', mark] <:+: text) :
    Uncommented other := by
  obtain ⟨line, block⟩ := uncommented_iff.mp plain
  exact uncommented_iff.mpr ⟨mt (kept '/' (by decide)) line, mt (kept '*' (by decide)) block⟩

theorem Uncommented.rename {table : Renames} (plain : Uncommented text)
    (ends : ∀ old ∈ table.keys, startsWord old = true ∧ endsWord old = true)
    (identifiers : ∀ entry ∈ table, isIdentifier entry.2 = true) :
    Uncommented (rename table text) := by
  have renamed := renamed_rename ends identifiers text
  refine plain.of_infix fun mark known inside => ?_
  have apart : isWord mark = false := (by decide : ∀ mark ∈ ['/', '*'], isWord mark = false) mark known
  rw [← infix_tokens_marks_iff (by decide) apart] at inside ⊢
  exact renamed.infix_of_infix (fun _entry _member => by simp) inside

theorem Uncommented.renameTemporaries (plain : Uncommented text) :
    Uncommented (renameTemporaries text) := by
  obtain ⟨table, same, covers⟩ := renameTemporaries_eq text
  have ofWords := isRenaming_temporary.ofWords covers.within
  rw [same]
  refine plain.rename (fun old key => ?_) fun entry member => (ofWords entry member).2
  have one := ofWords.oneWord key
  exact ⟨one.startsWord, one.endsWord⟩

theorem Uncommented.boundLoops {bounded : Text} (plain : Uncommented text)
    (done : boundLoops iterationCeiling text = .ok bounded) : Uncommented bounded := by
  have apart : ∀ mark ∈ ['/', '*'], 'f' ∉ ['/', mark] ∧ ')' ∉ ['/', mark] := by decide
  exact plain.of_infix fun mark known inside =>
    infix_of_infix_boundLoops List.mem_cons_self (apart mark known).1 (apart mark known).2 done inside

private theorem infix_of_infix_arguments {mark : Char} (flat : isCloser mark = false)
    {vectors : List Text} {size : Nat} {rest arguments closing : Text}
    (out : expandedArguments vectors size rest = some (arguments, closing))
    (inside : ['/', mark] <:+: arguments ++ closing) : ['/', mark] <:+: rest := by
  obtain ⟨⟨argument, behind⟩, found, same⟩ := Option.map_eq_some_iff.mp out
  cases same
  obtain ⟨inner, rfl, rfl, closes, repeats⟩ := repeatedArgument?_eq_some_iff.mp found
  cases closing with
  | nil => cases closes
  | cons closer closing =>
      have apart : closer ∉ ['/', mark] := by
        intro member
        have closed : isCloser closer = true := closes
        rcases List.mem_cons.mp member with rfl | member
        · cases closed
        · rw [List.mem_singleton.mp member, flat] at closed
          cases closed
      rw [Text.infix_append_cons_iff apart] at inside ⊢
      refine inside.imp_left fun copied => ?_
      -- A simple scalar holds no slash, so no comment begins in its copies.
      have absent : '/' ∉ inner := repeats.not_mem ⟨by decide, by decide⟩ (by decide)
      obtain ⟨_before, _after, _left, _right, whole⟩ := Text.exists_trim inner
      obtain ⟨part, member, held⟩ :=
        (Text.mem_join (by decide) _).mp (copied.subset List.mem_cons_self)
      rw [List.eq_of_mem_replicate member] at held
      refine absurd ?_ absent
      rw [whole]
      exact List.mem_append_left _ (List.mem_append_right _ held)

private theorem infix_of_infix_expandFrom {mark : Char} (opens : isOpener mark = false)
    (closes : isCloser mark = false) {types : VectorTypes} {vectors : List Text} (sites : Nat)
    (before : Option Char) (text : Text)
    (inside : ['/', mark] <:+: expandFrom types vectors sites before text) :
    ['/', mark] <:+: text := by
  have round : '(' ∉ ['/', mark] := by
    intro member
    rcases List.mem_cons.mp member with same | member
    · exact absurd same (by decide)
    · rw [← List.mem_singleton.mp member] at opens
      cases opens
  induction sites generalizing before text with
  | zero => exact inside
  | succ sites ih =>
      rcases expandFrom_cases types vectors sites before text with
        ⟨_none, same⟩ | ⟨passed, size, rest, next, call⟩
      · rwa [same] at inside
      · obtain ⟨front, name, blanks, _known, _blank, rfl, whole, _call⟩ := nextCall_eq_some next
        have cut : ∀ behind : Text, ['/', mark] <:+: front ++ (name ++ blanks ++ ['(']) ++ behind ↔
            ['/', mark] <:+: front ++ (name ++ blanks) ∨ ['/', mark] <:+: behind := by
          intro behind
          have split : front ++ (name ++ blanks ++ ['(']) ++ behind =
              front ++ (name ++ blanks) ++ '(' :: behind := by
            simp
          rw [split, Text.infix_append_cons_iff round]
        rw [whole, cut]
        rcases call with ⟨_stays, same⟩ | ⟨arguments, closing, out, same⟩
        · rw [same, cut] at inside
          exact inside.imp_right (ih _ _)
        · rw [same, cut] at inside
          exact inside.imp_right fun later => infix_of_infix_arguments closes out (ih _ _ later)

theorem Uncommented.expandVectorCalls (plain : Uncommented text) (types : VectorTypes)
    (vectors : List Text) : Uncommented (expandVectorCalls types vectors text) := by
  have flat : ∀ mark ∈ ['/', '*'], isOpener mark = false ∧ isCloser mark = false := by decide
  exact plain.of_infix fun mark known inside =>
    infix_of_infix_expandFrom (flat mark known).1 (flat mark known).2 _ _ _ inside

end Code
end ShaderBridge
