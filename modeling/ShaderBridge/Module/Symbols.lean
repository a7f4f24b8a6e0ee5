import ShaderBridge.Module.Template
import ShaderBridge.Code.Identifier
set_option autoImplicit false

/-! The symbols of the templates as compilers write them. An export sees the artifact alone, so it
works with the symbols of both languages of a mode. -/

namespace ShaderBridge

def structuralNames : List Text :=
  ["GlobalParams", "GlobalParams_std140", "globalParams", "VSInput", "input", outputVariable,
    "fragCoord", userEntryPoint]

def entryFunctions : List Text := [slangEntryPoint, "frag_main"]

def outputNames : List Text :=
  [outputVariable, outputVariable ++ "_0", "outFragColor", "_entryPointOutput"]

def modeSymbols (mode : ExecutionMode) : List HeaderSymbol :=
  ((Vocabulary.members (α := SourceLanguage)).flatMap fun language =>
    (template language mode).symbols).foldl
      (fun seen symbol =>
        if seen.any fun other => other.name == symbol.name then seen else seen ++ [symbol]) []

def uniforms (mode : ExecutionMode) : List HeaderSymbol :=
  (modeSymbols mode).filter fun symbol => symbol.kind == .uniform

def varyings (mode : ExecutionMode) : List HeaderSymbol :=
  (modeSymbols mode).filter fun symbol => symbol.kind == .varying

/-- Names that Slang writes with a zero behind them, back to what the templates declare. -/
def mangledNames (mode : ExecutionMode) : Code.Renames :=
  let names := structuralNames ++ (modeSymbols mode).flatMap fun symbol =>
    [symbol.name, symbol.givenName]
  names.eraseDups.map fun name => (name ++ "_0", name)

end ShaderBridge
