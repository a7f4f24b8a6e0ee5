import ShaderBridge.Text.Utf8
set_option autoImplicit false

/-! Bytes that are cut off. The first bytes of a string are read as the beginning of what the whole
string is read as, but for one replacement character behind it where the cut goes through a character
(`decodeLenient_take`). -/

namespace ShaderBridge
namespace Utf8

/-- What is read of a character from bytes that are cut off is the same, or all of them. -/
theorem continuation_take (following low high bits count : Nat) (bytes : Bytes) :
    continuation following low high bits (bytes.take count) =
        continuation following low high bits bytes ∨
      continuation following low high bits (bytes.take count) = (none, (bytes.take count).length) := by
  induction bytes generalizing following low high bits count with
  | nil => exact .inl (by rw [List.take_nil])
  | cons byte bytes ih =>
      cases following with
      | zero => exact .inl (by rw [continuation, continuation])
      | succ following =>
          cases count with
          | zero => exact .inr rfl
          | succ count =>
              rw [List.take_succ_cons, continuation, continuation]
              split
              · rcases ih following 0x80 0xBF (64 * bits + (byte.toNat - 0x80)) count with same | ended
                · exact .inl (by rw [same])
                · exact .inr (by rw [ended]; rfl)
              · exact .inl rfl

private theorem partsFrom_length (bytes : Bytes) : partsFrom bytes.length bytes = [] := by
  induction bytes with
  | nil => rfl
  | cons byte bytes ih => exact ih

/-- The parts of bytes that are cut off are parts of the whole string, up to an ill-formed last one. -/
theorem partsFrom_take (skip count : Nat) (bytes : Bytes) :
    ∃ kept tail, partsFrom skip (bytes.take count) = kept ++ tail ∧ kept <+: partsFrom skip bytes ∧
      (tail = [] ∨ tail = [none]) := by
  have nothing : ∀ (whole : List (Option Char)), ∃ kept tail, ([] : List (Option Char)) = kept ++ tail ∧
      kept <+: whole ∧ (tail = [] ∨ tail = [none]) := fun whole => ⟨[], [], rfl, List.nil_prefix, .inl rfl⟩
  induction bytes generalizing skip count with
  | nil =>
      rw [List.take_nil]
      cases skip <;> exact nothing _
  | cons byte bytes ih =>
      cases count with
      | zero => cases skip <;> exact nothing _
      | succ count =>
          have behind : ∀ (first : Option Char) (more : Nat), ∃ kept tail,
              first :: partsFrom more (bytes.take count) = kept ++ tail ∧
                kept <+: first :: partsFrom more bytes ∧ (tail = [] ∨ tail = [none]) := by
            intro first more
            obtain ⟨kept, tail, same, begins, short⟩ := ih more count
            exact ⟨first :: kept, tail, congrArg (first :: ·) same,
              List.cons_prefix_cons.mpr ⟨rfl, begins⟩, short⟩
          rw [List.take_succ_cons]
          cases skip with
          | succ skip => exact ih skip count
          | zero =>
              rw [partsFrom, partsFrom]
              split
              · exact behind _ 0
              · split
                · exact behind none 0
                · next lead _announced =>
                    rcases continuation_take lead.following lead.low lead.high lead.bits count bytes
                      with same | ended
                    · rw [same]
                      exact behind _ _
                    · rw [ended]
                      exact ⟨[], [none], congrArg (none :: ·) (partsFrom_length _), List.nil_prefix,
                        .inr rfl⟩

/-- The text of the first bytes of a string is the beginning of its text, but for a replacement
character where the cut goes through a character. -/
theorem decodeLenient_take (count : Nat) (bytes : Bytes) :
    ∃ kept tail, decodeLenient (bytes.take count) = kept ++ tail ∧ kept <+: decodeLenient bytes ∧
      (tail = [] ∨ tail = ['\uFFFD']) := by
  obtain ⟨kept, tail, same, begins, short⟩ := partsFrom_take 0 count bytes
  unfold decodeLenient
  rw [same, List.map_append]
  refine ⟨_, _, rfl, begins.map _, ?_⟩
  rcases short with rfl | rfl
  · exact .inl rfl
  · exact .inr rfl

end Utf8
end ShaderBridge
