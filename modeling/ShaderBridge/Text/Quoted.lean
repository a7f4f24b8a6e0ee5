import ShaderBridge.Text.Printable
set_option autoImplicit false

/-! Quoted texts for error messages. A text stands between single quotes, or between double quotes
when it holds a single quote and no double quote; the quote in use and the backslash are escaped,
line feed, carriage return and tab have their letters, and other characters that cannot be shown
are written by their code. -/

namespace ShaderBridge
namespace Text

def hexadecimal (digits : Nat) (code : Nat) : Text :=
  let written := Nat.toDigits 16 code
  List.replicate (digits - written.length) '0' ++ written

def quotedChar (quote char : Char) : Text :=
  if char = quote ∨ char = '\\' then ['\\', char]
  else if char = '\n' then ['\\', 'n']
  else if char = '\r' then ['\\', 'r']
  else if char = '\t' then ['\\', 't']
  else if isPrintable char then [char]
  else if char.toNat < 0x100 then '\\' :: 'x' :: hexadecimal 2 char.toNat
  else if char.toNat < 0x10000 then '\\' :: 'u' :: hexadecimal 4 char.toNat
  else '\\' :: 'U' :: hexadecimal 8 char.toNat

def quoted (text : Text) : Text :=
  let quote := if text.contains '\'' && !text.contains '"' then '"' else '\''
  quote :: text.flatMap (quotedChar quote) ++ [quote]

end Text
end ShaderBridge
