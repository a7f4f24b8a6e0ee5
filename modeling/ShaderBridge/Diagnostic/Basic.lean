import ShaderBridge.Vocabulary
set_option autoImplicit false

namespace ShaderBridge

/-- A problem that a tool reported, in terms of the user's code. -/
structure Diagnostic where
  message : Text
  /-- The line of the user's code, counted from one. -/
  line : Option Int := none
  severity : Severity := .error
  code : Option Text := none
  deriving DecidableEq, Repr

namespace Diagnostic

def format (diagnostic : Diagnostic) : Text :=
  let code := match diagnostic.code with
    | none | some [] => []
    | some code => ' ' :: code
  let line := match diagnostic.line with
    | some line => Text.ofInt line
    | none => "?"
  wireName diagnostic.severity ++ code ++ " (line " ++ line ++ "): " ++ diagnostic.message

end Diagnostic

/-- The line of user code for a line of a module that has `offset` lines in front of the code; none
for a line in front of the code or, where the number of its lines is known, behind it. -/
def remapLine (line offset : Int) (userLines : Option Int) : Option Int :=
  let own := line - offset
  if own ≤ 0 then none
  else if userLines.any fun count => count < own then none
  else some own

end ShaderBridge
