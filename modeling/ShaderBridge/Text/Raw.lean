import ShaderBridge.Text.Utf8
set_option autoImplicit false

/-! Raw text: characters and surrogates without a partner, for which there is no Unicode character.
Only raw text without them has a UTF-8 form. -/

namespace ShaderBridge

/-- One unit of raw text: a character, or the code of a surrogate that stands for half of one. -/
inductive TextUnit where
  | char (char : Char)
  | surrogate (code : Nat)
  deriving DecidableEq, Repr

namespace TextUnit

def ofCode (code : Nat) : TextUnit :=
  if 0xD800 ≤ code ∧ code ≤ 0xDFFF then surrogate code else char (Char.ofNat code)

def paired? (high low : Nat) : Option TextUnit :=
  if 0xD800 ≤ high ∧ high ≤ 0xDBFF ∧ 0xDC00 ≤ low ∧ low ≤ 0xDFFF then
    some (char (Char.ofNat (0x10000 + (high - 0xD800) * 0x400 + (low - 0xDC00))))
  else none

def char? : TextUnit → Option Char
  | char value => some value
  | surrogate _ => none

end TextUnit

abbrev RawText := List TextUnit

namespace RawText

def ofText (text : Text) : RawText := text.map .char

instance : Coe Text RawText := ⟨ofText⟩

def toText? : RawText → Option Text
  | [] => some []
  | .char value :: raw => (toText? raw).map (value :: ·)
  | .surrogate _ :: _ => none

def lenient (raw : RawText) : Text := raw.map fun unit => unit.char?.getD '\uFFFD'

def encode? (raw : RawText) : Option Bytes := raw.toText?.map Utf8.encode

def startsWith (opening : Text) (raw : RawText) : Bool := (ofText opening).isPrefixOf raw

def ofUnits16 : List Nat → RawText
  | [] => []
  | [code] => [.ofCode code]
  | high :: low :: codes =>
    match TextUnit.paired? high low with
    | some unit => unit :: ofUnits16 codes
    | none => .ofCode high :: ofUnits16 (low :: codes)

/-- The raw text that 32-bit units spell; surrogates are not put together. -/
def ofUnits32 (codes : List Nat) : Option RawText :=
  if codes.all (· ≤ 0x10FFFF) then some (codes.map .ofCode) else none

@[simp] theorem ofText_append (front back : Text) :
    ofText (front ++ back) = ofText front ++ ofText back := List.map_append

theorem toText?_ofText (text : Text) : toText? (ofText text) = some text := by
  induction text with
  | nil => rfl
  | cons char text ih => exact congrArg (·.map (char :: ·)) ih

theorem encode?_ofText (text : Text) : encode? (ofText text) = some (Utf8.encode text) := by
  unfold encode?
  rw [toText?_ofText]
  rfl

theorem lenient_ofText (text : Text) : lenient (ofText text) = text := by
  induction text with
  | nil => rfl
  | cons char text ih => exact congrArg (char :: ·) ih

theorem eq_of_toText? {raw : RawText} {text : Text} (read : raw.toText? = some text) :
    raw = .ofText text := by
  induction raw generalizing text with
  | nil =>
    cases read
    rfl
  | cons unit raw ih =>
    cases unit with
    | surrogate code => cases read
    | char value =>
      obtain ⟨rest, found, rfl⟩ := Option.map_eq_some_iff.mp read
      rw [ih found]
      rfl

theorem toText?_eq_none_iff {raw : RawText} :
    raw.toText? = none ↔ ∃ code, TextUnit.surrogate code ∈ raw := by
  induction raw with
  | nil => simp [toText?]
  | cons unit raw ih =>
    cases unit with
    | surrogate code => simp [toText?]
    | char value => simpa [toText?] using ih

theorem surrogate_not_mem_ofText (code : Nat) (text : Text) :
    TextUnit.surrogate code ∉ ofText text := by
  simp [ofText]

theorem toText?_append_ofText (raw : RawText) (text : Text) :
    toText? (raw ++ ofText text) = raw.toText?.map (· ++ text) := by
  cases read : raw.toText? with
  | some front =>
    rw [eq_of_toText? read, ← ofText_append, toText?_ofText]
    rfl
  | none =>
    obtain ⟨code, broken⟩ := toText?_eq_none_iff.mp read
    exact toText?_eq_none_iff.mpr ⟨code, List.mem_append_left _ broken⟩

end RawText
end ShaderBridge
