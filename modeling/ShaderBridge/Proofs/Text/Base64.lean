import Mathlib.Algebra.GroupWithZero.Nat
import Mathlib.Data.List.Basic
import ShaderBridge.Text.Base64
set_option autoImplicit false

/-! Base64 in its standard form: the bits of all bytes in a row, six of them to a character, with
zeros behind the last bit and padding behind the last character. What is encoded has this form
(`isStandard_encode`), and reading it gives the bytes back (`decode_encode`). -/

namespace ShaderBridge
namespace Base64

def alphabet : Text := "ABCDEFGHIJKLMNOPQRSTUVWXYZabcdefghijklmnopqrstuvwxyz0123456789+/"

def bits : (width number : Nat) → List Bool
  | 0, _ => []
  | width + 1, number => number.testBit width :: bits width number

/-- The text of some bytes in standard form. The bits alone say how many zeros and how much padding
there are. -/
def IsStandard (bytes : Bytes) (text : Text) : Prop :=
  ∃ (values : List Nat) (zeros padding : Nat),
    text.map some = values.map (alphabet[·]?) ++ List.replicate padding (some '=') ∧
      values.flatMap (bits 6) =
        (bytes.flatMap fun byte => bits 8 byte.toNat) ++ List.replicate zeros false ∧
      zeros < 6 ∧ padding < 4 ∧ 4 ∣ text.length

section
variable {value : Nat} (small : value < 64)
include small

theorem alphabet_digit : alphabet[value]? = some (digit value) := by
  have all : ∀ number : Fin 64, alphabet[number.val]? = some (digit number) := by
    decide +kernel
  exact all ⟨value, small⟩

theorem digitBits?_digit : digitBits? (digit value) = some value := by
  have all : ∀ number : Fin 64, digitBits? (digit number) = some number.val := by decide
  exact all ⟨value, small⟩

theorem digit_ne_padding : digit value ≠ '=' := by
  have all : ∀ number : Fin 64, digit number ≠ '=' := by decide
  exact all ⟨value, small⟩

end

/-- The bits of two numbers that are put together stand one behind the other. -/
theorem bits_append (high low number : Nat) {rest : Nat} (small : rest < 2 ^ low) :
    bits (high + low) (number * 2 ^ low + rest) = bits high number ++ bits low rest := by
  have bit (index : Nat) : (number * 2 ^ low + rest).testBit index =
      if index < low then rest.testBit index else number.testBit (index - low) := by
    rw [Nat.mul_comm]
    exact Nat.testBit_two_pow_mul_add number small index
  have lower : ∀ width ≤ low, bits width (number * 2 ^ low + rest) = bits width rest := by
    intro width
    induction width with
    | zero =>
        intro _within
        rfl
    | succ width ih =>
        intro within
        rw [bits, bits, bit, if_pos (by omega), ih (by omega)]
  induction high with
  | zero => rw [Nat.zero_add, lower low (Nat.le_refl low), bits, List.nil_append]
  | succ high ih =>
      rw [Nat.add_right_comm, bits, bit, if_neg (by omega), ih, Nat.add_sub_cancel, bits,
        List.cons_append]

theorem bits_cut (high low number : Nat) :
    bits (high + low) number = bits high (number / 2 ^ low) ++ bits low (number % 2 ^ low) := by
  rw [← bits_append high low _ (Nat.mod_lt number (Nat.two_pow_pos low)), Nat.div_add_mod']

theorem bits_shifted (high low number : Nat) :
    bits (high + low) (number * 2 ^ low) = bits high number ++ List.replicate low false := by
  have zeros : bits low 0 = List.replicate low false := by
    induction low with
    | zero => rfl
    | succ low ih => rw [bits, ih, Nat.zero_testBit, List.replicate_succ]
  have joined := bits_append high low number (Nat.two_pow_pos low)
  rwa [Nat.add_zero, zeros] at joined

theorem isStandard_encode (bytes : Bytes) : IsStandard bytes (encode bytes) := by
  induction bytes using encode.induct with
  | case1 => exact ⟨[], 0, 0, rfl, rfl, by decide, by decide, Nat.dvd_zero 4⟩
  | case2 a =>
      have byte := a.toNat_lt
      refine ⟨[a.toNat / 4, a.toNat % 4 * 16], 4, 2, ?_, ?_, by decide, by decide, Nat.dvd_refl 4⟩
      · simp [encode, alphabet_digit (show a.toNat / 4 < 64 by omega),
          alphabet_digit (show a.toNat % 4 * 16 < 64 by omega)]
      · have first := bits_cut 6 2 a.toNat
        have second : bits 6 (a.toNat % 4 * 16) = bits 2 (a.toNat % 4) ++ List.replicate 4 false :=
          bits_shifted 2 4 (a.toNat % 4)
        simp [first, second]
  | case3 a b =>
      have first := a.toNat_lt
      have second := b.toNat_lt
      refine ⟨[a.toNat / 4, a.toNat % 4 * 16 + b.toNat / 16, b.toNat % 16 * 4], 2, 1, ?_, ?_,
        by decide, by decide, Nat.dvd_refl 4⟩
      · simp [encode, alphabet_digit (show a.toNat / 4 < 64 by omega),
          alphabet_digit (show a.toNat % 4 * 16 + b.toNat / 16 < 64 by omega),
          alphabet_digit (show b.toNat % 16 * 4 < 64 by omega)]
      · have middle : bits 6 (a.toNat % 4 * 16 + b.toNat / 16) =
            bits 2 (a.toNat % 4) ++ bits 4 (b.toNat / 16) :=
          bits_append 2 4 (a.toNat % 4) (show b.toNat / 16 < 2 ^ 4 by omega)
        have last : bits 6 (b.toNat % 16 * 4) = bits 4 (b.toNat % 16) ++ List.replicate 2 false :=
          bits_shifted 4 2 (b.toNat % 16)
        simp [bits_cut 6 2 a.toNat, bits_cut 4 4 b.toNat, middle, last]
  | case4 a b c bytes ih =>
      obtain ⟨values, zeros, padding, written, same, few, short, whole⟩ := ih
      have first := a.toNat_lt
      have second := b.toNat_lt
      have third := c.toNat_lt
      refine ⟨a.toNat / 4 :: (a.toNat % 4 * 16 + b.toNat / 16) :: (b.toNat % 16 * 4 + c.toNat / 64)
        :: c.toNat % 64 :: values, zeros, padding, ?_, ?_, few, short, ?_⟩
      · simp [encode, written, alphabet_digit (show a.toNat / 4 < 64 by omega),
          alphabet_digit (show a.toNat % 4 * 16 + b.toNat / 16 < 64 by omega),
          alphabet_digit (show b.toNat % 16 * 4 + c.toNat / 64 < 64 by omega),
          alphabet_digit (show c.toNat % 64 < 64 by omega)]
      · have early : bits 6 (a.toNat % 4 * 16 + b.toNat / 16) =
            bits 2 (a.toNat % 4) ++ bits 4 (b.toNat / 16) :=
          bits_append 2 4 (a.toNat % 4) (show b.toNat / 16 < 2 ^ 4 by omega)
        have late : bits 6 (b.toNat % 16 * 4 + c.toNat / 64) =
            bits 4 (b.toNat % 16) ++ bits 2 (c.toNat / 64) :=
          bits_append 4 2 (b.toNat % 16) (show c.toNat / 64 < 2 ^ 2 by omega)
        simp [same, bits_cut 6 2 a.toNat, bits_cut 4 4 b.toNat, bits_cut 2 6 c.toNat, early, late]
      · simpa [encode, Nat.add_assoc] using Nat.dvd_add whole (Nat.dvd_refl 4)

private theorem isAscii_encode (bytes : Bytes) :
    (encode bytes).all (fun char => char.toNat < 128) = true := by
  obtain ⟨values, zeros, padding, written, _same, _few, _short, _whole⟩ := isStandard_encode bytes
  refine List.all_eq_true.mpr ?_
  intro char member
  have among : some char ∈ values.map (alphabet[·]?) ++ List.replicate padding (some '=') := by
    rw [← written]
    exact List.mem_map_of_mem member
  rcases List.mem_append.mp among with letter | filler
  · obtain ⟨value, _member, found⟩ := List.mem_map.mp letter
    have all : alphabet.all (fun char => char.toNat < 128) = true := by decide
    exact List.all_eq_true.mp all char (List.mem_of_getElem? found)
  · rw [Option.some.inj (List.mem_replicate.mp filler).2]
    decide

section
variable {value : Nat} (small : value < 64) (carry padding digits : Nat) (text : Text)
include small

private theorem decodeFrom_first :
    decodeFrom 0 carry padding digits (digit value :: text) =
      decodeFrom 1 value 0 (digits + 1) text := by
  simp only [decodeFrom, if_neg (digit_ne_padding small), digitBits?_digit small]

private theorem decodeFrom_second :
    decodeFrom 1 carry padding digits (digit value :: text) =
      (decodeFrom 2 (value % 16) 0 (digits + 1) text).map
        (UInt8.ofNat (carry * 4 + value / 16) :: ·) := by
  simp only [decodeFrom, if_neg (digit_ne_padding small), digitBits?_digit small]

private theorem decodeFrom_third :
    decodeFrom 2 carry padding digits (digit value :: text) =
      (decodeFrom 3 (value % 4) 0 (digits + 1) text).map
        (UInt8.ofNat (carry * 16 + value / 4) :: ·) := by
  simp only [decodeFrom, if_neg (digit_ne_padding small), digitBits?_digit small]

private theorem decodeFrom_fourth :
    decodeFrom 3 carry padding digits (digit value :: text) =
      (decodeFrom 0 0 0 (digits + 1) text).map (UInt8.ofNat (carry * 64 + value) :: ·) := by
  simp only [decodeFrom, if_neg (digit_ne_padding small), digitBits?_digit small]

end

private theorem byte_eq {byte : UInt8} {number : Nat} (same : number = byte.toNat) :
    UInt8.ofNat number = byte := by
  rw [same, UInt8.ofNat_toNat]

theorem decodeFrom_encode (bytes : Bytes) (digits : Nat) :
    decodeFrom 0 0 0 digits (encode bytes) = .ok bytes := by
  induction bytes using encode.induct generalizing digits with
  | case1 => rfl
  | case2 a =>
      have byte := a.toNat_lt
      have first := byte_eq (show a.toNat / 4 * 4 + a.toNat % 4 * 16 / 16 = a.toNat by omega)
      rw [encode, decodeFrom_first (by omega), decodeFrom_second (by omega), first]
      rfl
  | case3 a b =>
      have byte := a.toNat_lt
      have other := b.toNat_lt
      have first := byte_eq
        (show a.toNat / 4 * 4 + (a.toNat % 4 * 16 + b.toNat / 16) / 16 = a.toNat by omega)
      have second := byte_eq (show (a.toNat % 4 * 16 + b.toNat / 16) % 16 * 16
        + b.toNat % 16 * 4 / 4 = b.toNat by omega)
      rw [encode, decodeFrom_first (by omega), decodeFrom_second (by omega),
        decodeFrom_third (by omega), first, second]
      rfl
  | case4 a b c bytes ih =>
      have byte := a.toNat_lt
      have other := b.toNat_lt
      have last := c.toNat_lt
      have first := byte_eq
        (show a.toNat / 4 * 4 + (a.toNat % 4 * 16 + b.toNat / 16) / 16 = a.toNat by omega)
      have second := byte_eq (show (a.toNat % 4 * 16 + b.toNat / 16) % 16 * 16
        + (b.toNat % 16 * 4 + c.toNat / 64) / 4 = b.toNat by omega)
      have third := byte_eq (show (b.toNat % 16 * 4 + c.toNat / 64) % 4 * 64
        + c.toNat % 64 = c.toNat by omega)
      rw [encode, decodeFrom_first (by omega), decodeFrom_second (by omega),
        decodeFrom_third (by omega), decodeFrom_fourth (by omega), first, second, third, ih]
      rfl

theorem decode_encode (bytes : Bytes) : decode (encode bytes) = .ok bytes := by
  unfold decode
  rw [if_pos (isAscii_encode bytes)]
  exact decodeFrom_encode bytes 0

end Base64
end ShaderBridge
