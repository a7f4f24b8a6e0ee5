import ShaderBridge.Script.Fields
import ShaderBridge.Script.Format
set_option autoImplicit false

/-! The state of a shell that runs a script, and what commands do to it. Time passes only where a
script sleeps; a script that sleeps beyond its time limit is stopped there, and what it wrote until
then is kept. A command in the background does at once what it does before it first sleeps, and the
rest when so much time has passed. -/

namespace ShaderBridge.Script

inductive Sink where
  | buffer (number : Nat)
  | file (path : Path)
  | nowhere
  deriving DecidableEq, Repr

/-- Why a script does not go on with the next command. -/
inductive Stop where
  | exited (status : Nat)
  | returned (status : Nat)
  /-- So many loops are left, or the outermost of them goes on with its next round. -/
  | left (loops : Nat) (goesOn : Bool)
  | killed (signal : Nat)
  | outOfTime
  deriving DecidableEq, Repr

/-- A command in the background that has begun to sleep: when it ends, with which status, what it
still writes to which buffers, and which entries it still makes or removes. -/
structure Job where
  number : Nat
  finish : Nat
  status : Nat
  pieces : List (Nat × Bytes) := []
  changes : List (Place × Option Entry) := []
  /-- Buffers that it can write to. -/
  holds : List Nat := []
  /-- The signal that ended it. -/
  signal? : Option Nat := none
  /-- Whether another shell started it. -/
  foreign : Bool := false
  deriving DecidableEq, Repr

structure ShellOptions where
  /-- A failure ends the script, unless it is under a condition. -/
  strict : Bool := false
  /-- The use of a variable without a value ends the script. -/
  needsValues : Bool := false
  /-- Commands are printed before they run. -/
  traced : Bool := false
  /-- Fields do not stand for names of files. -/
  literal : Bool := false
  deriving DecidableEq, Repr

structure Shell where
  /-- The files; their working directory is that of the shell. -/
  store : FileStore
  /-- What the script is called in messages. -/
  name : Text
  /-- What the program that runs is called in its messages. -/
  called : Text := []
  /-- The command or file that the text comes from that the script runs now, for messages. -/
  within : Text := []
  arguments : List Text
  bindings : List (Text × Text) := []
  /-- Variables that programs see. -/
  exported : List Text := []
  /-- Variables that may not be set any more. -/
  constants : List Text := []
  /-- The former values of the local variables of the function that runs, none outside of one. -/
  locals : Option (List (Text × Option Text)) := none
  functions : List (Text × Command) := []
  /-- What is run on a signal, the end of the script being number 0; nothing for one that is passed
  over. -/
  traps : List (Nat × Text) := []
  /-- What signals have called for that is not run yet. -/
  caught : List Text := []
  status : Nat := 0
  line : Nat := 1
  input : Bytes := []
  sinks : List (Nat × Sink) := [(1, .buffer 1), (2, .buffer 2)]
  /-- What was written to each buffer, the last piece first. -/
  buffers : List (Nat × List Bytes) := []
  nextBuffer : Nat := 3
  /-- Milliseconds that have passed, and after how many the script is stopped. -/
  elapsed : Nat := 0
  limit : Int
  /-- Commands in the background, the last one first. -/
  jobs : List Job := []
  options : ShellOptions := {}
  /-- How many conditions the current command stands in. -/
  conditions : Nat := 0
  /-- How many loops the current command stands in. -/
  loops : Nat := 0
  /-- Whether the shell is a part of another one, with the number of its process. -/
  isInner : Bool := false

abbrev Exec (α : Type) := ExceptT Stop (StateM Shell) α

namespace Shell

def written (shell : Shell) (number : Nat) : Bytes :=
  ((shell.buffers.lookup number).getD []).reverse.flatten

def add (shell : Shell) (number : Nat) (bytes : Bytes) : Shell :=
  let pieces := bytes :: (shell.buffers.lookup number).getD []
  { shell with buffers := (number, pieces) :: shell.buffers.filter (·.1 != number) }

def valueOf? (shell : Shell) (name : Text) : Option Text := shell.bindings.lookup name

def unset (shell : Shell) (name : Text) : Shell :=
  { shell with bindings := shell.bindings.filter (·.1 != name) }

def set (shell : Shell) (name value : Text) : Shell :=
  { shell with bindings := (name, value) :: (shell.unset name).bindings }

def restore (shell : Shell) (name : Text) : Option Text → Shell
  | some value => shell.set name value
  | none => shell.unset name

def environment (shell : Shell) : List (Text × Text) :=
  shell.bindings.filter fun entry => shell.exported.contains entry.1

def separators (shell : Shell) : Text := (shell.valueOf? "IFS").getD [' ', '\t', '\n']

/-- What an inner shell leaves behind in the outer one: files, output, time and its status, but not
its variables, directory and settings. -/
def leave (outer inner : Shell) : Shell :=
  let started := inner.jobs.length - outer.jobs.length
  let known := List.zipWith (fun now before => { now with foreign := before.foreign })
    (inner.jobs.drop started) outer.jobs
  { outer with
    jobs := (inner.jobs.take started).map (fun job => { job with foreign := true }) ++ known
    caught := inner.caught
    store := { inner.store with workingDirectory := outer.store.workingDirectory }
    input := inner.input
    buffers := inner.buffers
    nextBuffer := inner.nextBuffer
    elapsed := inner.elapsed
    status := inner.status }

def finishJob (shell : Shell) (job : Job) : Shell :=
  let shell := job.pieces.foldl (fun shell (number, bytes) => shell.add number bytes) shell
  let store := job.changes.foldl (fun (store : FileStore) (place, found?) =>
    match found? with
    | some entry => store.put place entry
    | none => store.without place) shell.store
  { shell with store := store }

/-- The shell after what the jobs do that end until a time. What a job did is done once. -/
def finishJobs (shell : Shell) (time : Nat) : Shell :=
  let due := (shell.jobs.filter (·.finish ≤ time)).mergeSort fun a b => a.finish ≤ b.finish
  let jobs := shell.jobs.map fun job =>
    if job.finish ≤ time then { job with pieces := [], changes := [] } else job
  due.foldl finishJob { shell with jobs := jobs }

def firstProcess : Nat := 4000

def nextProcess (shell : Shell) : Nat := firstProcess + 1 + shell.jobs.length

end Shell

namespace Exec

def emit (descriptor : Nat) (bytes : Bytes) : Exec Unit := do
  let shell ← get
  match shell.sinks.lookup descriptor with
  | some (.buffer number) => set (shell.add number bytes)
  | some (.file path) =>
    let before := (shell.store.read path).toOption.getD []
    match shell.store.write path (before ++ bytes) with
    | .ok store => set { shell with store := store }
    | .error _ => return
  | some .nowhere | none => return

def complain (message : Text) : Exec Unit := emit 2 (Utf8.encode (message ++ ['\n']))

def complainHere (message : Text) : Exec Unit := do
  let shell ← get
  complain (shell.name ++ ": " ++ Text.decimal shell.line ++ ": " ++ message)

def complainWithin (message : Text) : Exec Unit := do complainHere ((← get).within ++ message)

def finish (status : Nat) : Exec Unit := modify fun shell => { shell with status := status }

def abort {α : Type} (message : Text) : Exec α := do
  complainHere message
  throw (.exited 2)

def abortWithin {α : Type} (message : Text) : Exec α := do abort ((← get).within ++ message)

def takeInput : Exec Bytes := do
  let shell ← get
  set { shell with input := [] }
  return shell.input

def pass (milliseconds : Nat) : Exec Unit := do
  let shell ← get
  let time := shell.elapsed + milliseconds
  let reached := if shell.limit ≤ time then shell.limit.toNat else time
  set { shell.finishJobs reached with elapsed := time }
  if shell.limit ≤ time then throw .outOfTime

def inner (part : Exec Unit) : Exec Nat := fun shell =>
  let (outcome, after) := part shell
  let outer := shell.leave after
  match outcome with
  | .ok () => (.ok after.status, outer)
  | .error (.exited status) | .error (.returned status) => (.ok status, outer)
  | .error (.left ..) => (.ok after.status, outer)
  | .error (.killed signal) => (.error (.killed signal), outer)
  | .error .outOfTime => (.error .outOfTime, outer)

def capturing (part : Exec Unit) : Exec Bytes := do
  let shell ← get
  let number := shell.nextBuffer
  set { shell with
    nextBuffer := number + 1
    sinks := (1, .buffer number) :: shell.sinks.filter (·.1 != 1) }
  part
  let after ← get
  set { after with sinks := shell.sinks }
  let holders := after.jobs.filter fun job => job.holds.contains number
  let ends := holders.foldl (fun time job => max time job.finish) after.elapsed
  pass (ends - after.elapsed)
  return (← get).written number

def located (written : Text) : Path := Path.ofText written

def change (operation : FileStore → Except StorageFailure FileStore) :
    Exec (Option StorageFailure) := do
  let shell ← get
  match operation shell.store with
  | .ok store =>
    set { shell with store := store }
    return none
  | .error failure => return some failure

def assign (name value : Text) : Exec Unit := do
  if (← get).constants.contains name then abortWithin (name ++ ": is read only")
  modify fun shell => shell.set name value

end Exec

def wording (failure : StorageFailure) : Text := failure.describe.2

end ShaderBridge.Script
