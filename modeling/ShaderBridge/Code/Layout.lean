import ShaderBridge.Text.Pattern
import ShaderBridge.Text.Lines
set_option autoImplicit false

namespace ShaderBridge
namespace Code

def trailingSpace : Pattern :=
  Scan.anywhere (Scan.oneOrMore isSpaceOrTab >=> Scan.endOf (· != '\n'))

def emptyLines : Pattern :=
  Scan.anywhere (Scan.literal "\n\n" >=> Scan.oneOrMore (· == '\n'))

def collapseBlankLines (text : Text) : Text :=
  emptyLines.replace (fun _ => "\n\n") (trailingSpace.remove text)

/-- The last step of every export: collapsed, trimmed, and ended by one line feed. -/
def finish (text : Text) : Text := (collapseBlankLines text).trim ++ "\n"

def trimLineFeeds (text : Text) : Text :=
  ((text.dropWhile (· == '\n')).reverse.dropWhile (· == '\n')).reverse

def indentation (line : Text) : Nat := (line.takeWhile isBlank).length

def commonIndentation (lines : List Text) : Nat :=
  (((lines.filter (!·.isBlankText)).map indentation).min?).getD 0

/-- Drops the line feeds at both ends and the indentation that all lines share; blank lines become
empty. -/
def dedent (body : Text) : Text :=
  let lines := (trimLineFeeds body).lines
  let common := commonIndentation lines
  Text.unlines (lines.map fun line => if line.isBlankText then [] else line.drop common)

def indent (margin : Text) (text : Text) : Text :=
  Text.unlines (text.lines.map fun line => if line.isBlankText then [] else margin ++ line)

end Code
end ShaderBridge
