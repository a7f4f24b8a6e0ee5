import ShaderBridge.Text.Raw
set_option autoImplicit false

/-! The Unicode form of a JSON body. A byte order mark tells it; without one the zeros among the
first bytes do, because JSON begins with characters of ASCII. -/

namespace ShaderBridge.Http

inductive ByteOrder where
  | little
  | big
  deriving DecidableEq, Repr

inductive BodyForm where
  | utf8
  | utf16 (order : ByteOrder)
  | utf32 (order : ByteOrder)
  deriving DecidableEq, Repr

namespace ByteOrder

def value (order : ByteOrder) (bytes : Bytes) : Nat :=
  let ordered : Bytes := match order with
    | little => bytes.reverse
    | big => bytes
  ordered.foldl (fun number byte => 256 * number + byte.toNat) 0

def units16 (order : ByteOrder) : Bytes → Option (List Nat)
  | [] => some []
  | a :: b :: bytes => (units16 order bytes).map (order.value [a, b] :: ·)
  | [_] => none

def units32 (order : ByteOrder) : Bytes → Option (List Nat)
  | [] => some []
  | a :: b :: c :: d :: bytes => (units32 order bytes).map (order.value [a, b, c, d] :: ·)
  | _ => none

end ByteOrder

namespace BodyForm

def ofMark? : Bytes → Option (BodyForm × Bytes)
  | 0x00 :: 0x00 :: 0xFE :: 0xFF :: bytes => some (utf32 .big, bytes)
  | 0xFF :: 0xFE :: 0x00 :: 0x00 :: bytes => some (utf32 .little, bytes)
  | 0xFE :: 0xFF :: bytes => some (utf16 .big, bytes)
  | 0xFF :: 0xFE :: bytes => some (utf16 .little, bytes)
  | 0xEF :: 0xBB :: 0xBF :: bytes => some (utf8, bytes)
  | _ => none

def ofZeros : Bytes → BodyForm
  | a :: b :: c :: d :: _ =>
    if a = 0 then if b = 0 then utf32 .big else utf16 .big
    else if b = 0 then if c = 0 ∧ d = 0 then utf32 .little else utf16 .little
    else utf8
  | [a, b] => if a = 0 then utf16 .big else if b = 0 then utf16 .little else utf8
  | _ => utf8

/-- The string of bytes in a form; none when they are ill formed. -/
def decode (bytes : Bytes) : BodyForm → Option RawText
  | utf8 => (Utf8.decode? bytes).map RawText.ofText
  | utf16 order => (order.units16 bytes).map RawText.ofUnits16
  | utf32 order => (order.units32 bytes).bind RawText.ofUnits32

end BodyForm

def decodeBody (bytes : Bytes) : Option RawText :=
  match BodyForm.ofMark? bytes with
  | some (form, bytes) => form.decode bytes
  | none => (BodyForm.ofZeros bytes).decode bytes

end ShaderBridge.Http
