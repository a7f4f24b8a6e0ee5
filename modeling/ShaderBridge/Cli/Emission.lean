import ShaderBridge.Cli.Moment
import ShaderBridge.Cli.Terminal
import ShaderBridge.Pipeline.Result
set_option autoImplicit false

/-! What becomes of an artifact: it is written to a file, or printed when there is none. Text may
carry a comment header that says where it comes from. -/

namespace ShaderBridge

def programVersion : Text := "0.1.0"

namespace Cli

inductive Format where
  | plain
  | commented
  deriving DecidableEq, Repr

def Format.ofText? (name : Text) : Option Format :=
  if name = "plain".toList then some plain
  else if name = "commented".toList then some commented
  else none

def commentHeader (name : RawText) (target : TargetFormat) (mode : ExecutionMode) (now : Moment) :
    RawText :=
  .ofText ("// Generated by shadercross v" ++ programVersion
      ++ "\n// Generation time: " ++ now.toText
      ++ "\n// Source file: ")
    ++ name
    ++ .ofText ("\n// Target: " ++ target.displayName
      ++ "\n// Mode: " ++ wireName mode ++ "\n\n")

variable {σ : Type}

def save (path : Path) (content : Bytes) : Action σ Unit := do
  let world ← get
  match world.store.write path content with
  | .ok store => set { world with store := store }
  | .error failure => throw (.storage ⟨failure, path.toText⟩)

/-- Writes a text to a file. The file is opened before the text is encoded, so that a text without
a UTF-8 form leaves it empty. -/
def saveText (path : Path) (text : RawText) : Action σ Unit := do
  save path (text.encode?.getD [])
  if text.encode?.isSome then pure () else throw .unencodable

/-- Emits an artifact, a text behind a header. Binary data is printed in Base64; a printed text
ends with a line feed. -/
def emit (output : Option Path) (header : RawText) : Artifact → Action σ Unit
  | .encoded base64 =>
    match output with
    | none => printLine base64
    | some path =>
      match Base64.decode base64 with
      | .ok data => do
        save path data
        Action.log .info ("Wrote " ++ Text.decimal data.length ++ " bytes to " ++ path.toText)
      | .error problem => throw (.unforeseen problem.message)
  | .source text =>
    let code := header ++ .ofText text
    match output with
    | none =>
      match code.toText? with
      | some code => if Text.endsWith ['\n'] code then printText code else printLine code
      | none => throw .unencodable
    | some path => do
      saveText path code
      Action.log .info ("Shader code exported to " ++ path.toText)

end Cli
end ShaderBridge
