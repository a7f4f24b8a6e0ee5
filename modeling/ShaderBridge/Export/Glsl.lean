import ShaderBridge.Module.Symbols
import ShaderBridge.Code.Function
import ShaderBridge.Code.Layout
import ShaderBridge.Code.Loop
set_option autoImplicit false

/-! GLSL export. A module with the markers around the user's code gives back that code. GLSL that
was converted from SPIR-V becomes an image function in the ShaderToy manner. Any other text, such
as an export, is only laid out. -/

namespace ShaderBridge
namespace Export

open Code

def userSection? (text : Text) : Option Text := do
  let (_, rest) ← Text.breakOn? startMarker text
  let (inside, _) ← Text.breakOn? endMarker rest
  return inside

/-- What a uniform is in ShaderToy: the resolution has three components there and the frame number
is an integer. -/
def uniformExpression (symbol : HeaderSymbol) : Text :=
  if symbol.givenName = "iResolution".toList ∧ symbol.components = 2 then "iResolution.xy"
  else if symbol.givenName = "iFrame".toList then "float(iFrame)"
  else symbol.givenName

def versionLine : Pattern :=
  Scan.atLineStart (Scan.blanks >=> Scan.literal "#version" >=> Scan.wordEnd >=> Scan.restOfLine)

def precisionLine : Pattern :=
  Scan.atLineStart (Scan.blanks >=> Scan.literal "precision" >=> Scan.someBlanks >=> Scan.word
    >=> Scan.someBlanks >=> Scan.word >=> Scan.blanks >=> Scan.literal ";" >=> Scan.blankLineEnd)

def flatBraces : Scan :=
  Scan.literal "\x7b" >=> Scan.zeroOrMore (fun char => char != '{' && char != '}')
    >=> Scan.literal "\x7d"

def parameterStruct : Pattern :=
  Scan.atWordStart (Scan.literal "struct" >=> Scan.someBlanks >=> Scan.literal "GlobalParams"
    >=> Scan.zeroOrMore isWord >=> Scan.blanks >=> flatBraces >=> Scan.blanks >=> Scan.literal ";")

def optionalLayout : Scan :=
  Scan.optional (Scan.literal "layout(" >=> Scan.zeroOrMore (· != ')') >=> Scan.literal ")"
    >=> Scan.blanks)

def parameterLine : Pattern :=
  Scan.atLineStart (Scan.blanks >=> optionalLayout >=> Scan.literal "uniform" >=> Scan.someBlanks
    >=> Scan.literal "GlobalParams" >=> Scan.zeroOrMore isWord >=> Scan.someBlanks >=> Scan.word
    >=> Scan.blanks >=> Scan.literal ";" >=> Scan.blankLineEnd)

def inputLine (name : Text) : Pattern :=
  let declared := Scan.literal ("input_" ++ name) >=> Scan.blanks >=> Scan.literal ";"
    >=> Scan.blankLineEnd
  let typeWord := Scan.word >=> Scan.someBlanks
  Scan.atLineStart (Scan.blanks >=> optionalLayout
    >=> Scan.orElse (Scan.literal "varying") (Scan.literal "in") >=> Scan.someBlanks
    >=> Scan.orElse (typeWord >=> typeWord >=> declared) (typeWord >=> declared))

/-- Drops the version, the precisions, and the declarations of parameters and inputs. -/
def dropDeclarations (mode : ExecutionMode) (text : Text) : Text :=
  let text := parameterLine.remove (parameterStruct.remove
    (precisionLine.remove (versionLine.remove text)))
  (varyings mode).foldl (fun text symbol => (inputLine symbol.name).remove text) text

def parameterAccesses (symbol : HeaderSymbol) : List Text :=
  ["globalParams." ++ symbol.name, "globalParams." ++ symbol.name ++ "_0",
    "globalParams_0." ++ symbol.name, "globalParams_0." ++ symbol.name ++ "_0"]

def inputNames (mode : ExecutionMode) : Renames :=
  let parameters : Renames := (uniforms mode).flatMap fun symbol =>
    (parameterAccesses symbol).map fun access => (access, uniformExpression symbol)
  let inputs : Renames := (varyings mode).map fun symbol =>
    ("input_" ++ symbol.name, symbol.name)
  (parameters ++ inputs).foldl (fun table (old, new) => table.put old new) []

def outputElement : Pattern :=
  Scan.atWordStart (Scan.literal "gl_FragData" >=> Scan.blanks >=> Scan.literal "["
    >=> Scan.blanks >=> Scan.literal "0" >=> Scan.blanks >=> Scan.literal "]")

def mapInputs (mode : ExecutionMode) (text : Text) : Text :=
  outputElement.replace (fun _ => outputVariable) (rename (inputNames mode) text)

def entrySetup : ExecutionMode → Text
  | .materialLibrary => Text.unlines
    ["vec2 uv = fragCoord / iResolution.xy;", "vec3 normal = vec3(0.0, 0.0, 1.0);",
      "vec3 position = vec3(uv, 0.0);"]
  | .shaderToy => "vec2 uv = fragCoord / iResolution.xy;"

def imageFunctionHead : Pattern :=
  Scan.atWordStart (Scan.literal "void" >=> Scan.someBlanks >=> Scan.literal userEntryPoint
    >=> Scan.blanks >=> Scan.literal "(")

def margin : Text := "    "

/-- Turns the entry function into an image function, behind a comment on what it reads and writes;
a module that already has an image function keeps what stands in front of its entry function. -/
def imageFunction (mode : ExecutionMode) (text : Text) : Text :=
  match findFunction text [glslEntryPoint] with
  | none => text
  | some span =>
    let preamble := Text.trim (text.take span.start)
    if imageFunctionHead.occursIn preamble then preamble
    else
      let body := dedent ((text.take span.bodyEnd).drop span.bodyStart)
      let remarks : List Text :=
        ["// Uniforms: iResolution, iTime, iTimeDelta, iFrame, iFrameRate",
          "// Output: fragColor (vec4)", []]
      let declarations : List Text := if preamble.isEmpty then [] else [preamble, []]
      let function : List Text :=
        ["void mainImage(out vec4 fragColor, in vec2 fragCoord)", "\x7b",
          indent margin (entrySetup mode), [], indent margin body, "\x7d"]
      Text.unlines (remarks ++ declarations ++ function)

/-- Whether a text is a GLSL module: it has a version line and an entry function. -/
def isGlslModule (text : Text) : Bool :=
  (Scan.atLineStart (Scan.blanks >=> Scan.literal "#version" >=> Scan.wordEnd)).occursIn text
    && (findFunction text [glslEntryPoint]).isSome

def highPrecision : Pattern := Scan.atWordStart (Scan.literal "highp" >=> Scan.someBlanks)

def glsl (mode : ExecutionMode) (artifact : Text) : Except NumeralProblem Text :=
  let text := artifact.normalizeNewlines
  match userSection? text with
  | some inside => (boundLoops iterationCeiling (dedent inside)).map finish
  | none =>
    if isGlslModule text then
      let text := mapInputs mode (dropDeclarations mode text)
      let text := highPrecision.remove (renameTemporaries (rename (mangledNames mode) text))
      (boundLoops iterationCeiling text).map fun text => finish (imageFunction mode text)
    else .ok (finish text)

end Export
end ShaderBridge
