import ShaderBridge.Text.Blank
import ShaderBridge.Text.DecimalDigit
import ShaderBridge.Text.Word
set_option autoImplicit false

/-! How the classes of characters lie to each other: white space is never part of a word, and
decimal digits always are. A character that is part of no word is a mark. -/

namespace ShaderBridge

theorem isBlank_line_feed : isBlank '\n' = true := by decide

theorem isBlank_of_isSpaceOrTab {char : Char} (space : isSpaceOrTab char = true) :
    isBlank char = true := by
  rcases Bool.or_eq_true_iff.mp space with same | same
  · rw [eq_of_beq same]
    decide
  · rw [eq_of_beq same]
    decide

private theorem isWord_of_blankRange :
    ∀ range ∈ blankRanges, ∀ step < range.2 + 1 - range.1,
      isWord (Char.ofNat (range.1 + step)) = false := by
  decide +kernel

theorem isWord_of_isBlank {char : Char} (blank : isBlank char = true) : isWord char = false := by
  obtain ⟨⟨first, last⟩, member, bounds⟩ := List.any_eq_true.mp blank
  obtain ⟨low, high⟩ := Bool.and_eq_true_iff.mp bounds
  have lower := of_decide_eq_true low
  have upper := of_decide_eq_true high
  have inside := isWord_of_blankRange (first, last) member (char.toNat - first) (by omega)
  rwa [show first + (char.toNat - first) = char.toNat by omega, Char.ofNat_toNat] at inside

theorem isBlank_of_isWord {char : Char} (letter : isWord char = true) : isBlank char = false := by
  cases blank : isBlank char with
  | false => rfl
  | true => exact absurd (letter.symm.trans (isWord_of_isBlank blank)) nofun

private theorem isWord_of_firstDigit :
    ∀ first ∈ digitZeros, first = 0x30 ∨
      128 ≤ first ∧ wordRanges.any (fun range => range.1 ≤ first && first + 9 ≤ range.2) = true := by
  decide +kernel

private theorem isWord_of_asciiDigit :
    ∀ step < 10, isWord (Char.ofNat (0x30 + step)) = true := by
  decide

theorem isWord_of_isDecimalDigit {char : Char} (digit : isDecimalDigit char = true) :
    isWord char = true := by
  unfold isDecimalDigit digitValue? at digit
  rw [Option.isSome_map, List.find?_isSome] at digit
  obtain ⟨first, member, bounds⟩ := digit
  obtain ⟨low, high⟩ := Bool.and_eq_true_iff.mp bounds
  have lower := of_decide_eq_true low
  have upper := of_decide_eq_true high
  rcases isWord_of_firstDigit first member with rfl | ⟨beyond, within⟩
  · have inside := isWord_of_asciiDigit (char.toNat - 0x30) (by omega)
    rwa [show 0x30 + (char.toNat - 0x30) = char.toNat by omega, Char.ofNat_toNat] at inside
  · obtain ⟨⟨lowest, highest⟩, range, limits⟩ := List.any_eq_true.mp within
    obtain ⟨start, stop⟩ := Bool.and_eq_true_iff.mp limits
    have starts := of_decide_eq_true start
    have stops := of_decide_eq_true stop
    have large : ¬ char.toNat < 128 := by omega
    unfold isWord
    rw [if_neg large]
    refine List.any_eq_true.mpr ⟨(lowest, highest), range, ?_⟩
    simp only [Bool.and_eq_true, decide_eq_true_eq] at starts stops ⊢
    omega

theorem count_eq_zero_of_marks {mark : Char} {others text : Text} (apart : isWord mark = false)
    (other : mark ∉ others) (each : ∀ char ∈ text, isWord char = true ∨ char ∈ others) :
    text.count mark = 0 := by
  refine List.count_eq_zero.mpr fun member => ?_
  rcases each mark member with letter | here
  · exact absurd (apart.symm.trans letter) nofun
  · exact other here

end ShaderBridge
