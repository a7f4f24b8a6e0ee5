import ShaderBridge.Cli.Run
import ShaderBridge.Script.Machine
set_option autoImplicit false

/-! The program. It loads the files that a command line is about into a store, runs the command
there, prints what it printed, and saves the files that it wrote. Tools are the scripts that the
configuration names. -/

namespace ShaderBridge.Program

def load (store : FileStore) (path : Path) : IO FileStore := do
  let whole := Path.absolute store.workingDirectory path
  (List.range (whole.parts.length + 1)).foldlM (fun store depth => do
    let above : Path := ⟨.root, whole.parts.take depth⟩
    let place := (← IO.currentDir) / String.ofList above.toText
    if (store.entryAt? above.parts).isSome then return store
    else if ← place.isDir then return store.put above.parts .directory
    else if ← place.pathExists then
      return store.put above.parts (.file (← IO.FS.readBinFile place).toList true)
    else return store) store

def save (before after : FileStore) : IO Unit :=
  after.entries.forM fun (place, entry) => do
    match entry with
    | .directory => return
    | .file content _ =>
      if before.entryAt? place = some entry then return
      IO.FS.writeBinFile (String.ofList (Path.toText ⟨.root, place⟩)) ⟨content.toArray⟩

/-- Prints what was printed and the lines of the log that are shown. -/
def report (verbose : Bool) (world : World Unit) : IO Unit := do
  (Cli.shown verbose world.journal).forM fun line =>
    IO.eprintln (String.ofList (line.level.label ++ ": ".toList ++ line.message))
  IO.print (String.ofList world.printed)
  (← IO.getStdout).flush

def variableNames : List String :=
  ["GLSLANG_PATH", "SPIRV_CROSS_PATH", "SLANG_PATH", "SHADERCROSS_WORKSPACE_ROOT",
    "SHADERCROSS_DIRECT_TIMEOUT_MS", "SHADERCROSS_MULTISTAGE_TIMEOUT_MS"]

def environment : IO Environment := do
  let found ← variableNames.mapM fun name => do
    return (← IO.getEnv name).map fun value => (name.toList, value.toList)
  return found.filterMap id

def now : IO Moment := do
  let (_, place) ← IO.FS.createTempFile
  let seconds := (← place.metadata).modified.sec
  IO.FS.removeFile place
  return .ofSeconds seconds.toNat

def paths (environment : Environment) (command : Cli.Command) : List Path :=
  let tools := (environment.filter fun setting => setting.2.contains '/').map fun setting =>
    Path.ofText setting.2
  match command with
  | .compile job _ | .watch job => Path.ofText job.file :: job.output.toList ++ tools
  | .tools | .targets | .serve .. => tools

def toolbox (environment : Environment) : Toolbox Unit :=
  launcher (Script.scriptMachine environment) ({} : ToolchainConfig).outputLimit

/-- Watches a file on the disk: looks for changes ten times a second. -/
partial def follow (verbose : Bool) (watch : Cli.Watch) (config : ToolchainConfig)
    (environment : Environment) (world : World Unit) : IO Unit := do
  report verbose world
  IO.sleep 100
  let path := Path.ofText watch.job.file
  let fresh ← load { world.store with
    entries := world.store.entries.filter fun entry => entry.1 != path.parts } path
  let tick : Cli.Tick := match fresh.read path with
    | .ok content =>
      if (world.store.read path).toOption == some content then {}
      else { written := [(path, content)], modified := [watch.job.file] }
    | .error _ => {}
  let world := { world with journal := [], printed := [] }
  let round : Action Unit Unit := do
    if ← watch.sleep tick false then
      let _ ← watch.rebuild (toolbox environment) config
  match round world with
  | (.error fault, after) =>
    report verbose after
    IO.eprintln (String.ofList fault.message)
  | (.ok (), after) =>
    save fresh after.store
    follow verbose watch config environment after

def run (verbose : Bool) (command : Cli.Command) : IO UInt32 := do
  let environment ← environment
  let directory := Path.ofText (← IO.currentDir).toString.toList
  let temporary := Path.ofText "/tmp".toList
  let store ← (directory :: temporary :: paths environment command).foldlM load
    ⟨[], directory, temporary⟩
  let surroundings : Cli.Surroundings := { environment := environment, now := ← now }
  let world : World Unit := { store := store, tools := () }
  match command with
  | .watch job =>
    match Cli.watchOf surroundings job world with
    | (.ok (watch, config), world) =>
      let first := watch.rebuild (toolbox environment) config world
      save store first.2.store
      follow verbose watch config environment first.2
      return 1
    | (.error _, world) =>
      report verbose world
      return 2
  | _ =>
    let (completion, world) := command.run (toolbox environment) surroundings world
    save store world.store
    report verbose world
    match completion.fault with
    | some fault => IO.eprintln (String.ofList fault.message)
    | none => pure ()
    return completion.status.toUInt32

end ShaderBridge.Program

open ShaderBridge in
def main (arguments : List String) : IO UInt32 := do
  match Cli.Invocation.ofArguments (arguments.map String.toList) with
  | .error _ =>
    IO.eprintln "Usage: shadercross [--verbose] compile|watch|tools|targets|serve ..."
    return 2
  | .ok .help =>
    IO.println "Usage: shadercross [--verbose] compile|watch|tools|targets|serve ..."
    return 0
  | .ok (.run verbose command) => Program.run verbose command
