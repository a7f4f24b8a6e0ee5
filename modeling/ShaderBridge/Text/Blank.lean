import ShaderBridge.Text.Basic
set_option autoImplicit false

/-! White space in the sense of the Unicode bidirectional and space-separator classes, and the
trimming of it from the ends of a text. -/

namespace ShaderBridge

def blankRanges : List (Nat × Nat) :=
  [(0x09, 0x0D), (0x1C, 0x20), (0x85, 0x85), (0xA0, 0xA0), (0x1680, 0x1680), (0x2000, 0x200A),
    (0x2028, 0x2029), (0x202F, 0x202F), (0x205F, 0x205F), (0x3000, 0x3000)]

def isBlank (char : Char) : Bool :=
  blankRanges.any fun (first, last) => first ≤ char.toNat && char.toNat ≤ last

def isSpaceOrTab (char : Char) : Bool := char == ' ' || char == '\t'

namespace Text

def trimStart (text : Text) : Text := text.dropWhile isBlank

def trimEnd (text : Text) : Text := (text.reverse.dropWhile isBlank).reverse

def trim (text : Text) : Text := trimEnd (trimStart text)

def isBlankText (text : Text) : Bool := text.all isBlank

end Text
end ShaderBridge
