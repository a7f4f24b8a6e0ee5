import ShaderBridge.Text.Scan
set_option autoImplicit false

/-! Reading ASCII words without regard to case. Besides the capital letters a few characters
beyond ASCII fold to a small ASCII letter: the long s, the dotless and the dotted i, and the
Kelvin sign. -/

namespace ShaderBridge

def foldCase (char : Char) : Char :=
  if char = '\u017f' then 's'
  else if char = '\u0130' ∨ char = '\u0131' then 'i'
  else if char = '\u212a' then 'k'
  else char.toLower

def Scan.anyCase : (expected text : Text) → Option Text
  | [], text => some text
  | _ :: _, [] => none
  | letter :: expected, char :: text =>
    if foldCase char = letter then Scan.anyCase expected text else none

end ShaderBridge
