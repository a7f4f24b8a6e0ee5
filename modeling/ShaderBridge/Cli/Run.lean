import ShaderBridge.Cli.Command
import ShaderBridge.Cli.Watch
import ShaderBridge.Toolchain.Probe
set_option autoImplicit false

/-! Execution of a command line. The exit status is 0 when all went well, 1 when a shader does not
compile or a tool is missing from the overview, and 2 for a bad command line or unusable
surroundings. A fault that no command expects ends the program with status 1. -/

namespace ShaderBridge.Cli

variable {σ : Type}

def compileFailureStatus : Nat := 1

def operationalStatus : Nat := 2

inductive Stop where
  | exit (status : Nat)
  | fault (fault : Fault)
  deriving DecidableEq, Repr

abbrev Step (σ α : Type) := ExceptT Stop (StateM (World σ)) α

inductive Event where
  | schedule (directory : Path) (recursive : Bool)
  | start
  | stop
  | join
  | serve (title version host : Text) (port : Int)
  deriving DecidableEq, Repr

/-- What happens while a watch sleeps: files are written, then changes are reported. -/
structure Tick where
  written : List (Path × Bytes) := []
  modified : List Text := []
  deriving DecidableEq, Repr

/-- The surroundings of a command. A watch is interrupted after the last tick. -/
structure Surroundings where
  environment : Environment
  now : Moment
  ticks : List Tick := []
  /-- Bytes of the command line that belong to no character, with what stands for them in its
  words. -/
  strays : List (Char × UInt8) := []
  deriving DecidableEq, Repr

/-- A word of the command line as a message quotes it: a byte that belongs to no character is a
surrogate there. -/
def Surroundings.spelling (surroundings : Surroundings) (word : Text) : RawText :=
  word.map fun char =>
    match surroundings.strays.lookup char with
    | some byte => .surrogate (0xDC00 + byte.toNat)
    | none => .char char

structure Completion where
  status : Nat := 0
  fault : Option Fault := none
  verbose : Bool := false
  events : List Event := []
  deriving DecidableEq, Repr

namespace Step

def ofAction {α : Type} (action : Action σ α) : Step σ α := fun world =>
  match action world with
  | (.ok value, world) => (.ok value, world)
  | (.error fault, world) => (.error (.fault fault), world)

def refuse {α : Type} (message : Text) : Step σ α := do
  ofAction (Action.log .error message)
  throw (.exit operationalStatus)

def guarded {α : Type} (action : Action σ α) : Step σ α := fun world =>
  match action world with
  | (.ok value, world) => (.ok value, world)
  | (.error fault, world) =>
    if fault.isOperational then refuse fault.message world else (.error (.fault fault), world)

def completion (step : Step σ Unit) (world : World σ) : Completion × World σ :=
  match step world with
  | (.ok (), world) => ({}, world)
  | (.error (.exit status), world) => ({ status := status }, world)
  | (.error (.fault fault), world) => ({ status := 1, fault := some fault }, world)

end Step

def choices (α : Type) [Vocabulary α] : Text :=
  Text.join ", " ((Vocabulary.members (α := α)).map wireName)

def choose {α : Type} [Vocabulary α] (kind name : Text) : Step σ α :=
  match ofWireName? α name with
  | some member => return member
  | none => Step.refuse ("Unknown " ++ kind ++ ": " ++ name ++ ". Choose one of: " ++ choices α)

def chooseLanguage (file name : Text) : Step σ SourceLanguage :=
  if name.isEmpty then return languageOfFile file else choose "language" name

def configured (surroundings : Surroundings) : Step σ ToolchainConfig :=
  Step.ofAction (Action.ofExcept (ToolchainConfig.ofEnvironment surroundings.environment))

def runCompile (toolbox : Toolbox σ) (surroundings : Surroundings) (options : JobOptions)
    (formatName : Text) : Step σ Unit := do
  let target ← choose "target" options.target
  let mode ← choose "mode" options.mode
  let language ← chooseLanguage options.file options.language
  let format ← match Format.ofText? formatName with
    | some format => pure format
    | none => Step.refuse ("Unknown format: " ++ formatName ++ ". Choose one of: plain, commented")
  let config ← configured surroundings
  let job : Job := ⟨options.file, language, target, mode, options.clean⟩
  match ← Step.guarded (compileFile toolbox config job) with
  | none => throw (.exit operationalStatus)
  | some result =>
    match result.ending with
    | .failed stage _ =>
      Step.ofAction (Action.log .error ("Compilation failed at stage " ++ wireName stage))
      throw (.exit compileFailureStatus)
    | .produced artifact _ =>
      let header := match format with
        | .plain => []
        | .commented =>
          let name := surroundings.spelling (options.file.afterLast '/')
          commentHeader name target mode surroundings.now
      Step.ofAction (emit options.output header artifact)

def watchOf (surroundings : Surroundings) (options : JobOptions) :
    Step σ (Watch × ToolchainConfig) := do
  let file := Path.absolute (← get).store.workingDirectory (Path.ofText options.file)
  let config ← configured surroundings
  let target ← choose "target" options.target
  let language ← chooseLanguage options.file options.language
  let mode ← choose "mode" options.mode
  return (⟨⟨file.toText, language, target, mode, options.clean⟩, options.output⟩, config)

def Watch.sleep (watch : Watch) (tick : Tick) (flag : Bool) : Action σ Bool := do
  modify fun world => { world with store := tick.written.foldl install world.store }
  tick.modified.foldlM (fun flag changed => watch.notice changed flag) flag
where
  /-- The store with a file written. -/
  install (store : FileStore) (file : Path × Bytes) : FileStore :=
    store.install file.1 file.2 false

/-- The loop of a watch: rebuilds when the flag is set, then sleeps for a tick. -/
def Watch.loop (watch : Watch) (toolbox : Toolbox σ) (config : ToolchainConfig) :
    List Tick → (flag : Bool) → Action σ Unit
  | [], flag => do
    if flag then let _ ← watch.rebuild toolbox config
    Action.log .info "Keyboard interrupt received, stopping..."
  | tick :: ticks, flag => do
    if flag then let _ ← watch.rebuild toolbox config
    watch.loop toolbox config ticks (← watch.sleep tick false)

/-- Watches a file until the last tick. The watcher is stopped however the loop ends, but a fault
of the first rebuild leaves it running. -/
def runWatch (toolbox : Toolbox σ) (surroundings : Surroundings) (options : JobOptions)
    (world : World σ) : Completion × World σ :=
  match watchOf surroundings options world with
  | (.error (.exit status), world) => ({ status := status }, world)
  | (.error (.fault fault), world) => ({ status := 1, fault := some fault }, world)
  | (.ok (watch, config), world) =>
    let started : List Event := [.schedule (Path.ofText watch.job.file).parent false, .start]
    let first : Action σ Bool := do
      Action.log .info ("Watching " ++ options.file ++ " (press Ctrl+C to exit)...")
      watch.rebuild toolbox config
    match first world with
    | (.error fault, world) => ({ status := 1, fault := some fault, events := started }, world)
    | (.ok _, world) =>
      let (completion, world) :=
        Step.completion (Step.ofAction (watch.loop toolbox config surroundings.ticks false)) world
      ({ completion with events := started ++ [.stop, .join] }, world)

def runTools (toolbox : Toolbox σ) (surroundings : Surroundings) : Step σ Unit := do
  let statuses ← Step.ofAction (probeToolchain toolbox (← configured surroundings))
  Step.ofAction (statuses.forM fun status =>
    printLine (wireName status.tool ++ ": " ++ detail status))
  if !statuses.all ToolStatus.isAvailable then throw (.exit compileFailureStatus)
where
  /-- What is printed about a tool. -/
  detail (status : ToolStatus) : Text :=
    match status.availability with
    | .unavailable error => "not available (" ++ error ++ ")"
    | .available version? =>
      let version := match version? with
        | some (char :: version) => char :: version
        | _ => "available".toList
      version ++ " (" ++ status.path ++ ")"

def runTargets (surroundings : Surroundings) : Step σ Unit := do
  let config ← configured surroundings
  Step.ofAction ((supportedTargets config).forM fun target =>
    printLine (wireName target ++ "\t" ++ target.displayName ++ "\t" ++ target.description))

def serverTitle : Text := "shadercross API"

def runServe (surroundings : Surroundings) (host : Text) (port : Int) (world : World σ) :
    Completion × World σ :=
  let step : Step σ Unit := do
    Step.ofAction
      (Action.log .info ("Starting API server on " ++ host ++ ":" ++ Text.ofInt port))
    let _ ← configured surroundings
  let (completion, world) := step.completion world
  match completion.fault with
  | some _ => (completion, world)
  | none => ({ completion with events := [.serve serverTitle programVersion host port] }, world)

def Command.run (toolbox : Toolbox σ) (surroundings : Surroundings) (world : World σ) :
    Command → Completion × World σ
  | .compile options format => (runCompile toolbox surroundings options format).completion world
  | .watch options => runWatch toolbox surroundings options world
  | .tools => (runTools toolbox surroundings).completion world
  | .targets => (runTargets surroundings).completion world
  | .serve host port => runServe surroundings host port world

def Command.badOutput? (command : Command) : Option Fault :=
  match command.output? with
  | none => none
  | some path =>
    if path.toText.contains '\x00' then some (.storage ⟨.nullCharacter, path.toText⟩) else none

def run (toolbox : Toolbox σ) (surroundings : Surroundings) (arguments : List Text)
    (world : World σ) : Completion × World σ :=
  match Invocation.ofArguments arguments with
  | .error _ => ({ status := operationalStatus }, world)
  | .ok .help => ({}, world)
  | .ok (.run verbose command) =>
    match command.badOutput? with
    | some fault => ({ status := 1, fault := some fault }, world)
    | none =>
      let (completion, world) := command.run toolbox surroundings world
      ({ completion with verbose := verbose }, world)

def shown (verbose : Bool) (journal : List LogLine) : List LogLine :=
  if verbose then journal else journal.filter fun line => line.level != .debug

end ShaderBridge.Cli
