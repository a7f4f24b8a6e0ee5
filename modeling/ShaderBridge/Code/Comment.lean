import ShaderBridge.Text.Pattern
set_option autoImplicit false

/-! Comments of the shading languages: from two slashes to the end of the line, and from slash star
to star slash. `commentLength` measures the comment that starts at a position and is what every
scanner of code skips by; `stripComments` removes closed block comments first and line comments
after that. -/

namespace ShaderBridge
namespace Code

def closeBlock : Scan
  | [] => some []
  | '*' :: '/' :: text => some text
  | _ :: text => closeBlock text

def closeBlock? : Scan
  | [] => none
  | '*' :: '/' :: text => some text
  | _ :: text => closeBlock? text

/-- A comment. An unclosed block comment reaches to the end of the text. -/
def comment : Scan
  | '/' :: '/' :: text => Scan.restOfLine text
  | '/' :: '*' :: text => closeBlock text
  | _ => none

def commentLength (text : Text) : Nat :=
  match comment text with
  | some rest => text.length - rest.length
  | none => 0

def blockComment : Pattern := Scan.anywhere (Scan.literal "/*" >=> closeBlock?)

def lineComment : Pattern := Scan.anywhere (Scan.literal "//" >=> Scan.restOfLine)

/-- The text without closed block comments, and then without line comments. -/
def stripComments (text : Text) : Text := lineComment.remove (blockComment.remove text)

end Code
end ShaderBridge
