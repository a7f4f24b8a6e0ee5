import ShaderBridge.Script.Tools
set_option autoImplicit false

namespace ShaderBridge.Script

def redirectionProblem (writing : Bool) (target : Text) (failure : StorageFailure) : Text :=
  let verb : Text := if writing then "cannot create " else "cannot open "
  let reason := match failure with
    | .missing | .notDirectory =>
      if writing then "Directory nonexistent" else "No such file"
    | other => String.ofList (wording other)
  verb ++ target ++ ": " ++ reason

def lead (descriptor : Nat) (sink : Option Sink) : Exec Unit :=
  modify fun shell =>
    let others := shell.sinks.filter (·.1 != descriptor)
    { shell with sinks := (sink.map (descriptor, ·)).toList ++ others }

def openOutput (descriptor : Nat) (target : Text) (truncated : Bool) : Exec Bool := do
  let shell ← get
  match String.ofList target with
  | "/dev/null" => lead descriptor (some .nowhere); return true
  | "/dev/stdout" => lead descriptor (shell.sinks.lookup 1); return true
  | "/dev/stderr" => lead descriptor (shell.sinks.lookup 2); return true
  | _ =>
    let path := Path.absolute shell.store.workingDirectory (Path.ofText target)
    let failure? ← Exec.change fun store =>
      let path := Path.ofText target
      if store.holds path && !truncated && !store.isDirectory path then .ok store
      else store.write path []
    match failure? with
    | none => lead descriptor (some (.file path)); return true
    | some failure =>
      Exec.complainWithin (redirectionProblem true target failure)
      return false

def redirect (redirection : Redirection) (target : Text) : Exec Bool := do
  let shell ← get
  match redirection.direction with
  | .output => openOutput redirection.descriptor target true
  | .append => openOutput redirection.descriptor target false
  | .duplicate =>
    match ((String.ofList target).toNat?).bind fun number => shell.sinks.lookup number with
    | some sink =>
      lead redirection.descriptor (some sink)
      return true
    | none =>
      if target = ['-'] then
        lead redirection.descriptor none
        return true
      Exec.complainWithin (target ++ ": Bad file descriptor")
      return false
  | .inline =>
    modify fun shell => { shell with input := Utf8.encode target }
    return true
  | .input =>
    match Tool.contentOf shell.store target with
    | .ok bytes =>
      modify fun shell => { shell with input := bytes }
      return true
    | .error failure =>
      Exec.complainWithin (redirectionProblem false target failure)
      return false

end ShaderBridge.Script
