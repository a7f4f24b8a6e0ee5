import ShaderBridge.Module.Symbols
import ShaderBridge.Code.Directive
import ShaderBridge.Code.Layout
set_option autoImplicit false

namespace ShaderBridge
namespace Export

open Code

def wgsl (mode : ExecutionMode) (artifact : Text) : Text :=
  finish (renameTemporaries (rename (mangledNames mode) artifact.normalizeNewlines))

/-- A line marker, with the white space in front of it. -/
def markerLine : Pattern :=
  Scan.atLineStart (Scan.blanks >=> Scan.literal "#line" >=> Scan.wordEnd >=> Scan.restOfLine)

def metal (mode : ExecutionMode) (artifact : Text) : Text :=
  finish (renameTemporaries (rename (mangledNames mode)
    (markerLine.remove artifact.normalizeNewlines)))

def platformGuards : List Text := ["SLANG_HLSL_ENABLE_NVAPI", "__DXC_VERSION_MAJOR"]

/-- A declared name with the number of its block in front. -/
def flattened (name : Text) : Pattern :=
  Scan.atWordStart (Scan.literal "_" >=> Scan.oneOrMore isDecimalDigit >=> Scan.literal "_"
    >=> Scan.literal name >=> Scan.wordEnd)

def flattenedNames (mode : ExecutionMode) (text : Text) : Renames :=
  (modeSymbols mode).foldl (fun table symbol =>
    ((flattened symbol.name).occurrences text).foldl
      (fun table member => table.put member symbol.name) table) []

def hlsl (mode : ExecutionMode) (artifact : Text) : Text :=
  let text := stripBookkeeping platformGuards artifact.normalizeNewlines
  let text := rename (mangledNames mode) text
  finish (renameTemporaries (rename (flattenedNames mode text) text))

end Export
end ShaderBridge
