import ShaderBridge.Text.Pattern
import ShaderBridge.Text.Lines
set_option autoImplicit false

/-! Preprocessor lines. Line markers, matrix packing pragmas and conditional groups that guard
platform-specific code are removed; other directives stay. -/

namespace ShaderBridge
namespace Code

def directive (name : Text) : Scan := Scan.literal "#" >=> Scan.blanks >=> Scan.literal name

/-- The opening of a conditional group: if, ifdef or ifndef as a whole word. -/
def conditional : Scan :=
  Scan.blanks >=> directive "if"
    >=> Scan.optional (Scan.optional (Scan.literal "n") >=> Scan.literal "def") >=> Scan.wordEnd

def isWordBoundary (before after : Option Char) : Bool := before.any isWord != after.any isWord

def boundedNames (names : List Text) : Pattern := fun before text =>
  names.findSome? fun name =>
    match Scan.literal name text with
    | none => none
    | some rest =>
      let last := if name.isEmpty then before else name.getLast?
      if isWordBoundary before text.head? && isWordBoundary last rest.head? then some name.length
      else none

def opensGuarded (guards : List Text) (line : Text) : Bool :=
  match conditional line with
  | some rest => (boundedNames guards).occursAfter (some 'f') rest
  | none => false

def isBookkeeping (line : Text) : Bool :=
  ((directive "line" >=> Scan.wordEnd) line).isSome
    || ((directive "pragma" >=> Scan.someBlanks >=> Scan.literal "pack_matrix" >=> Scan.wordEnd)
      line).isSome

/-- The lines that stay, `depth` conditional groups deep inside a group that goes. -/
def keptLines (guards : List Text) : (depth : Nat) → List Text → List Text
  | _, [] => []
  | depth + 1, line :: lines =>
    let trimmed := line.trim
    if (directive "if" trimmed).isSome then keptLines guards (depth + 2) lines
    else if ((directive "endif" >=> Scan.wordEnd) trimmed).isSome then keptLines guards depth lines
    else keptLines guards (depth + 1) lines
  | 0, line :: lines =>
    if opensGuarded guards line then keptLines guards 1 lines
    else if isBookkeeping line.trim then keptLines guards 0 lines
    else line :: keptLines guards 0 lines

/-- The text without bookkeeping directives and without the conditional groups whose opening names
one of the guards. -/
def stripBookkeeping (guards : List Text) (text : Text) : Text :=
  Text.unlines (keptLines guards 0 text.lines)

end Code
end ShaderBridge
