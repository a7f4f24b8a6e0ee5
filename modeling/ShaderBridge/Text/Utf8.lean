import ShaderBridge.Text.Basic
set_option autoImplicit false

/-! UTF-8. Decoding cuts the bytes into well-formed characters and maximal ill-formed beginnings
of one; a strict reader accepts no ill-formed part, a lenient one puts the replacement character
in the place of each. -/

namespace ShaderBridge

abbrev Bytes := List UInt8

namespace Utf8

def encode (text : Text) : Bytes := text.flatMap String.utf8EncodeChar

/-- What a first byte of several announces: how many bytes follow, the range of the first of them,
and the bits that the first byte itself gives. -/
structure Lead where
  following : Nat
  low : Nat
  high : Nat
  bits : Nat

def lead? (byte : UInt8) : Option Lead :=
  let code := byte.toNat
  if 0xC2 ≤ code && code ≤ 0xDF then some ⟨1, 0x80, 0xBF, code - 0xC0⟩
  else if code = 0xE0 then some ⟨2, 0xA0, 0xBF, 0⟩
  else if code = 0xED then some ⟨2, 0x80, 0x9F, 0xD⟩
  else if 0xE1 ≤ code && code ≤ 0xEF then some ⟨2, 0x80, 0xBF, code - 0xE0⟩
  else if code = 0xF0 then some ⟨3, 0x90, 0xBF, 0⟩
  else if 0xF1 ≤ code && code ≤ 0xF3 then some ⟨3, 0x80, 0xBF, code - 0xF0⟩
  else if code = 0xF4 then some ⟨3, 0x80, 0x8F, 4⟩
  else none

/-- Reads `following` more bytes of a character, the next of which lies in the given range. Gives
the character, or none where the bytes stop being well formed, and how many bytes were read. -/
def continuation : (following low high bits : Nat) → Bytes → Option Char × Nat
  | 0, _, _, bits, _ => (some (Char.ofNat bits), 0)
  | _ + 1, _, _, _, [] => (none, 0)
  | following + 1, low, high, bits, byte :: bytes =>
    if low ≤ byte.toNat && byte.toNat ≤ high then
      let (char, read) := continuation following 0x80 0xBF (64 * bits + (byte.toNat - 0x80)) bytes
      (char, read + 1)
    else (none, 0)

/-- The parts of a string of bytes of which the first `skip` belong to a part already given out:
a character, or none for a maximal ill-formed beginning of one. -/
def partsFrom : (skip : Nat) → Bytes → List (Option Char)
  | _, [] => []
  | skip + 1, _ :: bytes => partsFrom skip bytes
  | 0, byte :: bytes =>
    if byte.toNat < 0x80 then some (Char.ofNat byte.toNat) :: partsFrom 0 bytes
    else
      match lead? byte with
      | none => none :: partsFrom 0 bytes
      | some lead =>
        let (char, read) := continuation lead.following lead.low lead.high lead.bits bytes
        char :: partsFrom read bytes

def decode? (bytes : Bytes) : Option Text := (partsFrom 0 bytes).mapM id

/-- The text of any bytes, with the replacement character for each ill-formed part. -/
def decodeLenient (bytes : Bytes) : Text := (partsFrom 0 bytes).map (·.getD '\uFFFD')

end Utf8
end ShaderBridge
