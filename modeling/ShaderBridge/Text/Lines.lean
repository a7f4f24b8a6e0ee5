import ShaderBridge.Text.Basic
set_option autoImplicit false

/-! Lines. Source text is cut at line feeds alone; tool output is cut at every character that
Unicode counts as a line boundary. -/

namespace ShaderBridge
namespace Text

/-- The parts of a text between its line feeds; never empty. -/
def lines (text : Text) : List Text := text.splitOn '\n'

def unlines (lines : List Text) : Text := join ['\n'] lines

theorem unlines_lines (text : Text) : unlines (lines text) = text :=
  List.intercalate_splitOn '\n'

theorem lines_unlines {parts : List Text} (flat : ∀ part ∈ parts, '\n' ∉ part)
    (some : parts ≠ []) : lines (unlines parts) = parts :=
  List.splitOn_intercalate '\n' flat some

/-- The number of lines; a last line without a line feed counts, an empty one does not. -/
def countLines (text : Text) : Nat :=
  text.count '\n' + if text.isEmpty || endsWith ['\n'] text then 0 else 1

/-- Every line end becomes a single line feed: a carriage return counts as one, together with the
line feed after it if there is one. -/
def normalizeNewlines : Text → Text
  | [] => []
  | '\r' :: '\n' :: text => '\n' :: normalizeNewlines text
  | char :: text => (if char = '\r' then '\n' else char) :: normalizeNewlines text

def isLineBoundary (char : Char) : Bool :=
  char ∈ ['\n', '\r', '\x0b', '\x0c', '\x1c', '\x1d', '\x1e', '\u0085', '\u2028', '\u2029']

def printedLinesFrom (current : Text) : Text → List Text
  | [] => if current.isEmpty then [] else [current.reverse]
  | '\r' :: '\n' :: text => current.reverse :: printedLinesFrom [] text
  | char :: text =>
    if isLineBoundary char then current.reverse :: printedLinesFrom [] text
    else printedLinesFrom (char :: current) text

def printedLines (text : Text) : List Text := printedLinesFrom [] text

end Text
end ShaderBridge
