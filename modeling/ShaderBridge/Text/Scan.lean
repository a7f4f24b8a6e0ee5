import ShaderBridge.Text.Blank
import ShaderBridge.Text.Word
set_option autoImplicit false

/-! Scans read something off the front of a text and return what follows it. They are joined with
`>=>`, each starting where the one before stopped. A scan never looks back; what a pattern needs
of the character before it is said in `ShaderBridge.Text.Pattern`. -/

namespace ShaderBridge

/-- Reads something off the front of a text, or fails; on success gives the rest. -/
abbrev Scan := Text → Option Text

namespace Scan

def literal (text : Text) : Scan := Text.after? text

def zeroOrMore (inClass : Char → Bool) : Scan := fun text => some (text.dropWhile inClass)

def oneOrMore (inClass : Char → Bool) : Scan
  | [] => none
  | char :: text => if inClass char then some (text.dropWhile inClass) else none

def blanks : Scan := zeroOrMore isBlank

def someBlanks : Scan := oneOrMore isBlank

def word : Scan := oneOrMore isWord

/-- An identifier: a letter of the ASCII alphabet or a low line, then word characters. -/
def identifier : Scan
  | [] => none
  | char :: text => if isIdentifierStart char then some (text.dropWhile isWord) else none

def optional (scan : Scan) : Scan := fun text => some ((scan text).getD text)

def orElse (first second : Scan) : Scan := fun text => (first text).orElse fun _ => second text

def notBefore (scan : Scan) : Scan := fun text => if (scan text).isSome then none else some text

def endOf (inClass : Char → Bool) : Scan
  | [] => some []
  | char :: text => if inClass char then none else some (char :: text)

def wordEnd : Scan := endOf isWord

def restOfLine : Scan := zeroOrMore (· != '\n')

/-- The blank end of a line. All white space that follows is read, but when text comes after it
the last line feed in it is left in place, and there has to be one. -/
def blankLineEnd : Scan := fun text =>
  match text.dropWhile isBlank with
  | [] => some []
  | after@(_ :: _) =>
    let blank := text.takeWhile isBlank
    if blank.contains '\n' then
      some ('\n' :: ((blank.reverse.takeWhile (· != '\n')).reverse ++ after))
    else none

def accepts (scan : Scan) (text : Text) : Bool := scan text == some []

end Scan
end ShaderBridge
