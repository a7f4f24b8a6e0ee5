import ShaderBridge.Script.Run
import ShaderBridge.Toolchain.Config
import ShaderBridge.Toolchain.Launch
set_option autoImplicit false

namespace ShaderBridge.Script

def shellOf (environment : Environment) (call : ToolCall) (store : FileStore) : Shell :=
  let directory := Path.absolute store.workingDirectory call.directory
  let bindings := ("PWD".toList, directory.toText) :: environment
    ++ [("PATH".toList, standardPath)]
  { store := { store with workingDirectory := directory }
    name := call.executable
    arguments := call.arguments
    bindings := bindings
    exported := bindings.map (·.1)
    limit := call.timeout }

def exitCode : Except Stop Nat → Option Int
  | .ok status => some status
  | .error (.exited status) | .error (.returned status) => some status
  | .error (.left ..) => some 0
  | .error (.killed signal) => some (-signal)
  | .error .outOfTime => none

/-- Starts a program. Without any time it is stopped before it does anything. -/
def startProgram (environment : Environment) (call : ToolCall) (store : FileStore) :
    Except StorageFailure ProcessEnd × FileStore :=
  if (call.executable :: call.arguments).any (·.contains '\x00') then
    (.error .nullCharacter, store)
  else
    let shell := shellOf environment call store
    let places :=
      if call.executable.contains '/' then [call.executable]
      else searchPlaces shell call.executable
    let start (place : Text) : Exec (Except StorageFailure Nat) :=
      runFile maxNesting call.executable place call.arguments
    let ran := (startFirst start places).run shell
    let after := { ran.2.store with workingDirectory := store.workingDirectory }
    let ended (outcome : Except Stop Nat) : Except StorageFailure ProcessEnd × FileStore :=
      if call.timeout ≤ 0 then (.ok { exitCode := none }, store)
      else (.ok ⟨exitCode outcome, ran.2.written 1, ran.2.written 2⟩, after)
    match ran.1 with
    | .ok (.error failure) => (.error failure, store)
    | .ok (.ok status) => ended (.ok status)
    | .error stop => ended (.error stop)

def scriptMachine {σ : Type} (environment : Environment) : Machine σ where
  start call state store :=
    let (outcome, store) := startProgram environment call store
    (outcome, state, store)

end ShaderBridge.Script
