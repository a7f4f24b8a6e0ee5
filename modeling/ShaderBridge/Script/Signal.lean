import ShaderBridge.Script.Parameter
set_option autoImplicit false

namespace ShaderBridge.Script

def signals : List (String × Nat) :=
  [("EXIT", 0), ("HUP", 1), ("INT", 2), ("QUIT", 3), ("ILL", 4), ("TRAP", 5), ("ABRT", 6),
    ("BUS", 7), ("FPE", 8), ("KILL", 9), ("USR1", 10), ("SEGV", 11), ("USR2", 12), ("PIPE", 13),
    ("ALRM", 14), ("TERM", 15), ("CHLD", 17), ("CONT", 18), ("STOP", 19), ("TSTP", 20),
    ("TTIN", 21), ("TTOU", 22), ("URG", 23), ("XCPU", 24), ("XFSZ", 25), ("VTALRM", 26),
    ("PROF", 27), ("WINCH", 28), ("IO", 29), ("PWR", 30), ("SYS", 31)]

def maxSignal : Nat := 64

def signal? (text : Text) : Option Nat :=
  match (String.ofList text).toNat? with
  | some number => if number ≤ maxSignal then some number else none
  | none => signals.lookup (String.ofList (text.map Char.toUpper))

def signalName (number : Nat) : Text :=
  match signals.find? (·.2 = number) with
  | some (name, _) => name.toList
  | none =>
    if number < 34 then Text.decimal number
    else if number = 34 then "RTMIN"
    else if number < 50 then "RTMIN+" ++ Text.decimal (number - 34)
    else if number < maxSignal then "RTMAX-" ++ Text.decimal (maxSignal - number)
    else "RTMAX"

def signalMessage (signal : Nat) : Text :=
  let messages : List (Nat × String) :=
    [(1, "Hangup"), (3, "Quit"), (4, "Illegal instruction"), (5, "Trace/breakpoint trap"),
      (6, "Aborted"), (7, "Bus error"), (8, "Floating point exception"), (9, "Killed"),
      (10, "User defined signal 1"), (11, "Segmentation fault"), (12, "User defined signal 2"),
      (14, "Alarm clock"), (15, "Terminated"), (24, "CPU time limit exceeded"),
      (25, "File size limit exceeded"), (26, "Virtual timer expired"),
      (27, "Profiling timer expired"), (29, "I/O possible"), (30, "Power failure"),
      (31, "Bad system call")]
  ((messages.lookup signal).getD "").toList

def reportSignal (signal : Nat) : Exec Unit := do
  let message := signalMessage signal
  if !message.isEmpty then Exec.complain message

/-- Runs a program and waits for it; one that a signal ends gives a status above 128. -/
def asChild {α : Type} (program : Exec (Except α Nat)) : Exec (Except α Nat) := do
  try program
  catch stop =>
    match stop with
    | .killed signal =>
      reportSignal signal
      return .ok (128 + signal)
    | stop => throw stop

/-- Sends a signal to the script itself. What it has set for a signal is run later; some signals are
passed over by every program, and some stop it for good. -/
def sendSignal (number : Nat) : Exec Unit := do
  let shell ← get
  match shell.traps.lookup number with
  | some action =>
    if number = 9 then throw (.killed number)
    set { shell with
      caught := shell.caught ++ (if action.isEmpty then [] else [action])
      status := 0 }
  | none =>
    if number ∈ [0, 17, 18, 23, 28] then Exec.finish 0
    else if number ∈ [19, 20, 21, 22] then throw .outOfTime
    else throw (.killed number)

def signalProcess (signal : Nat) (target : Text) : Exec Unit := do
  let shell ← get
  if target = ownProcess then sendSignal signal
  else if !(target.all Char.isDigit) then
    Exec.complainHere ("kill: Illegal number: " ++ target)
    Exec.finish 2
  else if shell.jobs.any fun job =>
      Text.decimal job.number == target && shell.elapsed < job.finish then
    let ended (job : Job) : Job :=
      if Text.decimal job.number = target then
        { job with
          finish := shell.elapsed
          status := 128 + signal
          signal? := some signal
          pieces := []
          changes := [] }
      else job
    set { shell with
      jobs := if signal = 0 then shell.jobs else shell.jobs.map ended
      status := 0 }
  else
    Exec.complainHere "kill: No such process\n"
    Exec.finish 1

def killUsage : Text :=
  "kill: Usage: kill [-s sigspec | -signum | -sigspec] [pid | job]... or\nkill -l [exitstatus]"

def killCommand (arguments : List Text) : Exec Unit := do
  let complaint (message : Text) : Exec Unit := do
    Exec.complainHere message
    Exec.finish 2
  let send (signal : Nat) (targets : List Text) : Exec Unit := do
    let targets := if targets.head? = some ['-', '-'] then targets.drop 1 else targets
    if targets.isEmpty then complaint killUsage
    targets.forM (signalProcess signal)
  match arguments with
  | ['-', 'l'] :: [] =>
    Exec.emit 1 ((List.range (maxSignal + 1)).flatMap fun number =>
      Utf8.encode ((if number = 0 then ['0'] else signalName number) ++ ['\n']))
    Exec.finish 0
  | ['-', 'l'] :: number :: _ =>
    match (String.ofList number).toNat? with
    | some number =>
      Exec.emit 1 (Utf8.encode (signalName (number % 128) ++ ['\n']))
      Exec.finish 0
    | none => complaint ("kill: Illegal number: " ++ number)
  | ['-', 's'] :: name :: targets =>
    match signal? name with
    | some signal => send signal targets
    | none => complaint ("kill: invalid signal number or name: " ++ name)
  | ('-' :: letter :: letters) :: targets =>
    if letter = '-' then send 15 arguments
    else
      match signal? (letter :: letters) with
      | some signal => send signal targets
      | none => complaint ("kill: Illegal option -" ++ [letter])
  | targets => send 15 targets

def singleQuoted (text : Text) : Text :=
  Text.join "\"'\"" ((text.splitOn '\'').map fun part => "'" ++ part ++ "'")

def trapCommand (arguments : List Text) : Exec Unit := do
  let arguments := if arguments.head? = some ['-', '-'] then arguments.drop 1 else arguments
  let settings : Option Text × List Text :=
    match arguments with
    | [only] => (none, [only])
    | action :: names =>
      if (signal? action).isSome then (none, arguments)
      else (if action = ['-'] then none else some action, names)
    | [] => (none, [])
  Exec.finish 0
  if arguments.isEmpty then
    let traps := (← get).traps.mergeSort fun a b => a.1 ≤ b.1
    traps.forM fun (number, action) =>
      Exec.emit 1 (Utf8.encode
        ("trap -- " ++ singleQuoted action ++ " " ++ signalName number ++ ['\n']))
  settings.2.forM fun name => do
    match signal? name with
    | none =>
      Exec.complain ("trap: " ++ name ++ ": bad trap")
      Exec.finish 1
    | some number =>
      modify fun shell => { shell with
        traps := (settings.1.map (number, ·)).toList ++ shell.traps.filter (·.1 != number) }

end ShaderBridge.Script
