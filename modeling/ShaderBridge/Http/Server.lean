import ShaderBridge.Http.Answer
import ShaderBridge.Pipeline.Compile
set_option autoImplicit false

/-! The server: which path is answered how. Names are checked before anything is compiled, the
target first, then the language, then the mode. An unusable tool is answered with status 503, an
unusable workspace with 500; faults that nobody expects are internal errors. -/

namespace ShaderBridge.Http

variable {σ : Type}

structure Request where
  method : Text
  path : Text
  body : Bytes := []
  deriving DecidableEq, Repr

inductive Endpoint where
  | health
  | compile
  | tools
  | targets
  deriving DecidableEq, Repr

namespace Endpoint

def all : List Endpoint := [health, compile, tools, targets]

def path : Endpoint → Text
  | health => "/api/health"
  | compile => "/api/compile"
  | tools => "/api/tools"
  | targets => "/api/targets"

def method : Endpoint → Text
  | compile => "POST"
  | health | tools | targets => "GET"

/-- A path whose escaped characters, each a percent sign and two hexadecimal digits, are read.
Only those of ASCII are told apart, because no endpoint has others. -/
def unescaped : Text → Text
  | '%' :: high :: low :: path =>
    match JsonReader.hexDigit? high, JsonReader.hexDigit? low with
    | some high, some low =>
      (if high < 8 then Char.ofNat (16 * high + low) else '\uFFFD') :: unescaped path
    | _, _ => '%' :: unescaped (high :: low :: path)
  | char :: path => char :: unescaped path
  | [] => []

/-- The endpoint at a path, without its query and regardless of slashes at its end. -/
def ofPath? (path : Text) : Option Endpoint :=
  let plain := unescaped (path.takeWhile fun char => char != '?' && char != '#')
  let trimmed := (plain.reverse.dropWhile (· == '/')).reverse
  all.find? fun endpoint => endpoint.path == trimmed

end Endpoint

inductive BadName where
  | target (name : RawText)
  | language (name : RawText)
  | mode (name : RawText)
  deriving DecidableEq, Repr

def BadName.message : BadName → RawText
  | .target name => .ofText "Unsupported target: " ++ name
  | .language name => .ofText "Unsupported source language: " ++ name
  | .mode name => .ofText "Unsupported mode: " ++ name

def named {α : Type} [Vocabulary α] (problem : RawText → BadName) (name : RawText) :
    Except BadName α :=
  match name.toText?.bind (ofWireName? α) with
  | some member => .ok member
  | none => .error (problem name)

def CompileBody.request (body : CompileBody) : Except BadName CompilationRequest := do
  let target ← named .target body.target
  let language ← named .language body.language
  let mode ← named .mode body.mode
  return ⟨body.source, language, target, mode, body.clean⟩

def answerRequest (compilation : Action σ CompilationResult) : Action σ Answer := do
  try
    let result ← compilation
    return .ofValue (if result.succeeded then 200 else 400) (CompileAnswer.ofResult result).toJson
  catch fault =>
    match fault with
    | .toolUnavailable .. =>
      Action.log .error fault.message
      return .detail 503 fault.message
    | .workspace .. =>
      Action.log .error fault.message
      return .detail 500 fault.message
    | _ => throw fault

def answerCompile (toolbox : Toolbox σ) (config : ToolchainConfig) (body : CompileBody) :
    Action σ Answer :=
  match body.request with
  | .error name => do
    match name.message.toText? with
    | some message => Action.log .warning message
    | none => pure ()
    return .ofValue 400 (CompileAnswer.ofBadName body name.message).toJson
  | .ok request => answerRequest (compile toolbox config request)

def Endpoint.answer (toolbox : Toolbox σ) (config : ToolchainConfig) (body : Bytes) :
    Endpoint → Action σ Answer
  | health => return .ofValue 200 (.ofFields [("status", .text "ok")])
  | compile =>
    match CompileBody.ofBytes body with
    | .ok body => answerCompile toolbox config body
    | .error problem => return .ofBodyProblem problem
  | tools => do
    let statuses ← probeToolchain toolbox config
    return .ofValue 200 (.ofFields [("tools", .array (statuses.map .ofToolStatus))])
  | targets =>
    return .ofValue 200 (.ofFields
      [("targets", .array ((supportedTargets config).map .ofTarget))])

def answer (toolbox : Toolbox σ) (config : ToolchainConfig) (request : Request)
    (world : World σ) : Answer × World σ :=
  match Endpoint.ofPath? request.path with
  | none => (.detail 404 "Not Found", world)
  | some endpoint =>
    if endpoint.method ≠ request.method then (.detail 405 "Method Not Allowed", world)
    else
      match endpoint.answer toolbox config request.body world with
      | (.ok answer, world) => (answer, world)
      | (.error _, world) => (.internalError, world)

end ShaderBridge.Http
