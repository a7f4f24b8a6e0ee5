import ShaderBridge.Text.Utf8
set_option autoImplicit false

/-! Base64 with the standard alphabet and padding. Decoding is lenient: characters outside the
alphabet are skipped, and padding counts only where it completes a group. -/

namespace ShaderBridge
namespace Base64

def digit (bits : Nat) : Char :=
  if bits < 26 then Char.ofNat (bits + 65)
  else if bits < 52 then Char.ofNat (bits + 71)
  else if bits < 62 then Char.ofNat (bits - 4)
  else if bits = 62 then '+'
  else '/'

def digitBits? (char : Char) : Option Nat :=
  if char.isUpper then some (char.toNat - 65)
  else if char.isLower then some (char.toNat - 71)
  else if char.isDigit then some (char.toNat + 4)
  else if char = '+' then some 62
  else if char = '/' then some 63
  else none

/-- Groups of three bytes as four characters, the last group padded. -/
def encode : Bytes → Text
  | [] => []
  | [a] => [digit (a.toNat / 4), digit (a.toNat % 4 * 16), '=', '=']
  | [a, b] =>
    [digit (a.toNat / 4), digit (a.toNat % 4 * 16 + b.toNat / 16), digit (b.toNat % 16 * 4), '=']
  | a :: b :: c :: bytes =>
    digit (a.toNat / 4) :: digit (a.toNat % 4 * 16 + b.toNat / 16)
      :: digit (b.toNat % 16 * 4 + c.toNat / 64) :: digit (c.toNat % 64) :: encode bytes

inductive Problem where
  /-- The text ends inside a group. -/
  | incompletePadding
  /-- One character is left over; `digits` characters of the alphabet were read. -/
  | strayDigit (digits : Nat)
  /-- The text holds a character beyond ASCII. -/
  | beyondAscii
  deriving DecidableEq, Repr

def Problem.message : Problem → Text
  | .incompletePadding => "Incorrect padding"
  | .strayDigit digits =>
    "Invalid base64-encoded string: number of data characters (" ++ Text.decimal digits
      ++ ") cannot be 1 more than a multiple of 4"
  | .beyondAscii => "string argument should contain only ASCII characters"

/-- Decodes what is left, with `place` characters of the current group read, `carry` their bits
that made no byte yet, `padding` padding characters since, and `digits` characters read so far. -/
def decodeFrom : (place carry padding digits : Nat) → Text → Except Problem Bytes
  | 0, _, _, _, [] => .ok []
  | 1, _, _, digits, [] => .error (.strayDigit digits)
  | _, _, _, _, [] => .error .incompletePadding
  | place, carry, padding, digits, char :: text =>
    if char = '=' then
      if 2 ≤ place && 4 ≤ place + padding + 1 then .ok []
      else decodeFrom place carry (if 2 ≤ place then padding + 1 else padding) digits text
    else
      match digitBits? char with
      | none => decodeFrom place carry padding digits text
      | some bits =>
        match place with
        | 0 => decodeFrom 1 bits 0 (digits + 1) text
        | 1 => (decodeFrom 2 (bits % 16) 0 (digits + 1) text).map
            (UInt8.ofNat (carry * 4 + bits / 16) :: ·)
        | 2 => (decodeFrom 3 (bits % 4) 0 (digits + 1) text).map
            (UInt8.ofNat (carry * 16 + bits / 4) :: ·)
        | _ => (decodeFrom 0 0 0 (digits + 1) text).map (UInt8.ofNat (carry * 64 + bits) :: ·)

def decode (text : Text) : Except Problem Bytes :=
  if text.all fun char => char.toNat < 128 then decodeFrom 0 0 0 0 text else .error .beyondAscii

end Base64
end ShaderBridge
