import ShaderBridge.Export.Glsl
import ShaderBridge.Export.Plain
import ShaderBridge.Export.Return
set_option autoImplicit false

/-! Export as an Unreal custom node. A node holds the body of a function: it reads material inputs
by name and returns its value. The body of the entry function is taken out of the module, accesses
to parameters and inputs become the node's inputs, and helper functions go in front where they are
needed. -/

namespace ShaderBridge
namespace Export

open Code

def hlslVectors : VectorTypes :=
  (["float", "half", "int", "uint", "bool"] : List String).flatMap fun scalar =>
    [2, 3, 4].map fun size => (scalar.toList ++ Text.decimal size, size)

def unrealInput? (symbol : HeaderSymbol) : Option Text :=
  ([("iResolution", "Resolution"), ("iTime", "Time"), ("iTimeDelta", "DeltaTime"),
    ("iFrame", "Frame"), ("iFrameRate", "FrameRate"), ("iUV", "UV"), ("iNormal", "Normal"),
    ("iPosition", "Position"), ("uv", "UV")] : List (Text × Text)).lookup symbol.givenName

def resolutionLine : ExecutionMode → String
  | .shaderToy => "float3 Resolution = float3(View.ViewSizeAndInvSize.xy, 1.0);"
  | .materialLibrary => "float2 Resolution = View.ViewSizeAndInvSize.xy;"

/-- The declarations of the inputs in front of a node body. -/
def nodeHeader (mode : ExecutionMode) : Text :=
  block
    ["// Unreal Engine Custom Material Node",
      "// Connect these inputs in the Material Editor:",
      "//   - Time: Use \"Time\" node",
      "//   - UV: Use \"TexCoord[0]\" node",
      "//   - Normal: Use \"VertexNormalWS\" node",
      "//   - Position: Use \"WorldPosition\" node",
      "//   - Resolution: Use \"ViewSize\" node or create a parameter",
      "",
      "// Input variables (connect via Material Editor)",
      "float Time = View.RealTime;",
      "float2 UV = TexCoords[0].xy;",
      "float3 Normal = Parameters.TangentToWorld[2];",
      "float3 Position = GetWorldPosition(Parameters);",
      resolutionLine mode,
      "",
      "// Additional variables (if needed)",
      "float DeltaTime = View.DeltaTime;",
      "float Frame = View.FrameNumber;",
      "float FrameRate = 1.0 / max(View.DeltaTime, 0.001);"]

def privateGlobal (name : Text) : Pattern :=
  Scan.atWordStart (Scan.literal "static" >=> Scan.someBlanks >=> Scan.word >=> Scan.someBlanks
    >=> Scan.literal name >=> Scan.blanks >=> Scan.literal ";")

/-- What accesses to a uniform become: accesses by the names that Slang writes, the bare name it
writes, and the block members in the preamble. -/
def uniformInputs (preamble : Text) (symbol : HeaderSymbol) (input : Text) : Renames :=
  [("globalParams_0." ++ symbol.name ++ "_0", input), ("globalParams." ++ symbol.name, input),
    (symbol.name ++ "_0", input)]
  ++ ((flattened symbol.name).occurrences preamble).map fun member => (member, input)

/-- What accesses to a varying become; its bare name is one where the preamble declares it as a
private global. -/
def varyingInputs (preamble : Text) (symbol : HeaderSymbol) (input : Text) : Renames :=
  [("input_0." ++ symbol.name ++ "_0", input), ("input." ++ symbol.name, input)]
  ++ if (privateGlobal symbol.name).occursIn preamble then [(symbol.name, input)] else []

/-- What accesses to the symbols of a mode become in a node. -/
def nodeInputs (mode : ExecutionMode) (preamble : Text) : Renames :=
  let entries (read : HeaderSymbol → Text → Renames) (symbols : List HeaderSymbol) : Renames :=
    symbols.flatMap fun symbol => ((unrealInput? symbol).map (read symbol)).getD []
  (entries (uniformInputs preamble) (uniforms mode)
    ++ entries (varyingInputs preamble) (varyings mode)).foldl
      (fun table (old, new) => table.put old new) []

def isTypeChar (char : Char) : Bool := isWord char || char == '<' || char == '>'

def recordDeclaration : Pattern :=
  Scan.atWordStart (Scan.orElse (Scan.literal "struct") (Scan.literal "cbuffer")
    >=> Scan.someBlanks >=> Scan.word >=> Scan.zeroOrMore (fun char => char != '{' && char != ';')
    >=> flatBraces >=> Scan.blanks >=> Scan.optional (Scan.literal ";"))

def staticLine : Pattern :=
  Scan.atLineStart (Scan.blanks >=> Scan.literal "static" >=> Scan.someBlanks
    >=> Scan.zeroOrMore (fun char => char != ';' && char != '(') >=> Scan.literal ";"
    >=> Scan.blankLineEnd)

def registerLine : Pattern :=
  let bound := Scan.oneOrMore isTypeChar >=> Scan.someBlanks >=> Scan.word >=> Scan.blanks
    >=> Scan.literal ":" >=> Scan.blanks >=> Scan.literal "register("
    >=> Scan.zeroOrMore (· != ')') >=> Scan.literal ")" >=> Scan.blanks >=> Scan.literal ";"
    >=> Scan.blankLineEnd
  Scan.atLineStart (Scan.blanks
    >=> Scan.orElse (Scan.literal "uniform" >=> Scan.someBlanks >=> bound) bound)

/-- The function definitions of a preamble: what stays without records, globals and resources. -/
def helperFunctions (preamble : Text) : Text :=
  Text.trim (registerLine.remove (staticLine.remove (recordDeclaration.remove preamble)))

def parametersAndBrace : Scan := fun text =>
  let inside := text.takeWhile fun char => char != ';' && char != '{'
  if inside.contains ')' then Scan.literal "\x7b" (text.drop inside.length) else none

def definitionHead : Pattern :=
  Scan.atLineStart (Scan.blanks >=> Scan.oneOrMore isTypeChar >=> Scan.someBlanks
    >=> Scan.identifier >=> Scan.blanks >=> Scan.literal "(" >=> parametersAndBrace)

def definedName (head : Text) : Text :=
  (((head.dropWhile isBlank).dropWhile isTypeChar).dropWhile isBlank).takeWhile isWord

def callsAny (body helpers : Text) : Bool :=
  ((definitionHead.occurrences helpers).map definedName).any fun name =>
    Pattern.occursIn
      (Scan.atWordStart (Scan.literal name >=> Scan.blanks >=> Scan.literal "(")) body

/-- A text with its constructor calls written out and its loops bounded. -/
def spellOut (vectors : List Text) (text : Text) : Except NumeralProblem Text :=
  boundLoops iterationCeiling (expandVectorCalls hlslVectors vectors text)

/-- The helper functions that go in front of a node body, if any: in ShaderToy mode all, in
material mode all when the body calls one of them. -/
def nodeHelpers (mode : ExecutionMode) (inputs : Renames) (vectors : List Text)
    (preamble body : Text) : Except NumeralProblem (List Text) :=
  let helpers := helperFunctions preamble
  if !helpers.isEmpty && (mode == .shaderToy || callsAny body helpers) then
    let helpers := renameTemporaries (rename inputs helpers)
    (spellOut (vectors ++ declaredVectors hlslVectors helpers) helpers).map fun helpers => [helpers]
  else .ok []

/-- An HLSL artifact as the body of a custom node. A text without an entry function is a node body
already. -/
def unreal (mode : ExecutionMode) (artifact : Text) : Except NumeralProblem Text := do
  let text := stripBookkeeping platformGuards artifact.normalizeNewlines
  let vectors := declaredVectors hlslVectors (nodeHeader mode ++ text)
  match findFunction text entryFunctions with
  | none => return finish (← spellOut vectors (rename (nodeInputs mode text) text))
  | some span =>
    let preamble := text.take span.start
    let inputs := nodeInputs mode preamble
    let body := renameTemporaries
      (rename inputs ((text.take span.bodyEnd).drop span.bodyStart))
    let head := (text.take span.bodyStart).drop span.start
    let vectors := vectors ++ declaredVectors hlslVectors (head ++ body)
    let body := writeAsReturn (← spellOut vectors body)
    let helpers ← nodeHelpers mode inputs vectors preamble body
    let parts : List Text :=
      [nodeHeader mode, "// Shader logic"] ++ helpers ++ [dedent body]
    return finish (Text.unlines parts)

end Export
end ShaderBridge
