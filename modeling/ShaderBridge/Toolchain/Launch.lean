import ShaderBridge.World
set_option autoImplicit false

/-! Launching of tools as processes. A nonzero exit status is an ordinary outcome; only a tool that
cannot be started, or a directory that is not there, is a fault. Of each output stream no more than
a limit is kept, with a notice where something was cut off; a limit that cannot be read up to is
found out when the process has ended. -/

namespace ShaderBridge

structure ProcessEnd where
  exitCode : Option Int
  stdout : Bytes := []
  stderr : Bytes := []
  deriving DecidableEq, Repr

structure Machine (σ : Type) where
  start : ToolCall → σ → FileStore → Except StorageFailure ProcessEnd × σ × FileStore

/-- The text of the first bytes of an output stream; a negative limit counts from its end. -/
def readBounded (limit : Int) (stream : Bytes) : Text :=
  let data := if limit + 1 < 0 then stream else stream.take (limit + 1).toNat
  let kept :=
    if 0 ≤ limit then data.take limit.toNat else data.take (data.length - limit.natAbs)
  let notice : Text :=
    if limit < data.length then "\n[output truncated at " ++ Text.ofInt limit ++ " bytes]" else []
  Utf8.decodeLenient kept ++ notice

def readHeld (limit : Int) (stream : Bytes) : Except CapacityProblem Text :=
  match CapacityProblem.ofIndex? (limit + 1) with
  | some problem => .error problem
  | none => .ok (readBounded limit stream)

def launchReason (executable : Text) : StorageFailure → Text
  | .missing => "not found"
  | .notPermitted => "not executable"
  | failure => (StorageProblem.mk failure executable).message

/-- The largest time limit whose length in seconds is a number that a clock can count to. -/
def maxTimeout : Int := 1000 * (Int.pow 2 1024 - Int.pow 2 970)

def producedFile (call : ToolCall) (ended : ProcessEnd) (store : FileStore) :
    Except Fault (Option Path) :=
  match call.output with
  | none => .ok none
  | some path =>
    if ended.exitCode != some 0 then .ok none
    else
      match store.ask path fun _ => true with
      | .ok found => .ok (if found then some path else none)
      | .error failure => .error (.storage ⟨failure, path.toText⟩)

def toolRunOf (call : ToolCall) (limit : Int) (ended : ProcessEnd) (produced : Option Path) :
    ToolRun :=
  let stdout := readBounded limit ended.stdout
  let stderr := readBounded limit ended.stderr
  let timedOut := ended.exitCode.isNone
  let message := (Path.ofText call.executable).name ++ " timed out after "
    ++ Text.ofInt call.timeout ++ " ms"
  { exitedCleanly := ended.exitCode == some 0
    stdout := stdout
    stderr :=
      if !timedOut then stderr
      else if stderr.isEmpty then message
      else message ++ "\n" ++ stderr
    produced := produced
    exitCode := ended.exitCode
    timedOut := timedOut }

def launcher {σ : Type} (machine : Machine σ) (limit : Int) : Toolbox σ where
  run call state store :=
    match store.ask call.directory (· == .directory) with
    | .error failure =>
      (.error (.storage ⟨failure, call.directory.toText⟩), state, store)
    | .ok false => (.error (.workspace .noWorkingDirectory (some call.directory)), state, store)
    | .ok true =>
      match machine.start call state store with
      | (.error .nullCharacter, state, store) =>
        (.error (.storage ⟨.nullCharacter, call.executable⟩), state, store)
      | (.error failure, state, store) =>
        (.error (.toolUnavailable (Path.ofText call.executable).name call.executable
          (launchReason call.executable failure)), state, store)
      | (.ok ended, state, store) =>
        if maxTimeout < call.timeout.natAbs then (.error .endlessTimeout, state, store)
        else
          match CapacityProblem.ofFileRead? (limit + 1) with
          | some problem => (.error (.capacity problem), state, store)
          | none => ((producedFile call ended store).map (toolRunOf call limit ended), state, store)

end ShaderBridge
