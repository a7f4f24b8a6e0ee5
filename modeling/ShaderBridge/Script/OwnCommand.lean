import ShaderBridge.Script.Condition
import ShaderBridge.Script.Lookup
import ShaderBridge.Script.Signal
import ShaderBridge.Text.Numeral
set_option autoImplicit false

namespace ShaderBridge.Script

def leaveLoops (loops : Nat) (goesOn : Bool) : Exec Unit := do
  let depth := (← get).loops
  if depth = 0 then Exec.finish 0 else throw (.left (min loops depth - 1) goesOn)

def misuse (message : Text) : Exec Unit := do
  Exec.complainHere message
  Exec.finish 2

def testCommand (name : Text) (words : List Text) : Exec Unit := do
  match Condition.value (← get).store (fun path => isProgramPath path.toText) words with
  | .ok true => Exec.finish 0
  | .ok false => Exec.finish 1
  | .error problem => misuse (name ++ ": " ++ problem.message)

def changeDirectory (arguments : List Text) : Exec Unit := do
  let shell ← get
  let back := arguments = [['-']]
  let isOption (word : Text) : Bool := ["-L", "-P", "--"].contains (String.ofList word)
  let target? := match arguments.filter (!isOption ·) with
    | [] => shell.valueOf? "HOME"
    | word :: _ => if back then shell.valueOf? "OLDPWD" else some word
  let here := shell.store.workingDirectory
  let target := target?.getD []
  let path := Path.absolute here (Path.ofText target)
  if target.isEmpty then Exec.finish 0
  else if shell.store.isDirectory path then
    let moved := { shell with store := { shell.store with workingDirectory := path } }
    set ((moved.set "OLDPWD" here.toText).set "PWD" path.toText)
    if back then Exec.emit 1 (Utf8.encode (path.toText ++ ['\n']))
    Exec.finish 0
  else misuse ("cd: can't cd to " ++ target)

def inputLine (raw : Bool) : Bytes → List (UInt8 × Bool) × Option Bytes
  | [] => ([], none)
  | 92 :: byte :: rest =>
    if raw then
      let (line, after) := inputLine raw (byte :: rest)
      ((92, true) :: line, after)
    else
      let (line, after) := inputLine raw rest
      (if byte = 10 then line else (byte, true) :: line, after)
  | byte :: rest =>
    if byte = 10 then ([], some rest)
    else
      let (line, after) := inputLine raw rest
      ((byte, false) :: line, after)

def lineValues (separators : Bytes) : (count : Nat) → List (UInt8 × Bool) → List Text
  | 0, _ => []
  | count + 1, line =>
    let separates (entry : UInt8 × Bool) : Bool := !entry.2 && separators.contains entry.1
    let isGap (entry : UInt8 × Bool) : Bool := separates entry && entry.1 ∈ [32, 9, 10]
    let line := line.dropWhile isGap
    let first := line.takeWhile (!separates ·)
    let behind := (line.drop first.length).dropWhile isGap
    let rest := match behind with
      | entry :: more => if separates entry then more.dropWhile isGap else behind
      | [] => []
    let text (entries : List (UInt8 × Bool)) : Text := Utf8.decodeLenient (entries.map (·.1))
    if count = 0 then
      [text (if rest.isEmpty then first else (line.reverse.dropWhile isGap).reverse)]
    else text first :: lineValues separators count rest

def readLine (arguments : List Text) : Exec Unit := do
  let rec options : Bool → List Text → Except Text (Bool × List Text)
    | _, ['-', 'r'] :: rest => options true rest
    | raw, ['-', 'p'] :: _ :: rest => options raw rest
    | raw, ['-', '-'] :: rest => .ok (raw, rest)
    | _, ('-' :: letter :: _) :: _ => .error ("Illegal option -" ++ [letter])
    | raw, names => .ok (raw, names)
  match options false arguments with
  | .error problem => misuse ("read: " ++ problem)
  | .ok (_, []) => misuse "read: arg count"
  | .ok (raw, names) =>
    let shell ← get
    let (line, after?) := inputLine raw shell.input
    set { shell with input := after?.getD [], status := if after?.isSome then 0 else 1 }
    let values := lineValues (Utf8.encode shell.separators) names.length line
    (names.zip values).forM fun (name, value) => do
      if !isName name then misuse ("read: " ++ name ++ ": bad variable name")
      else if shell.constants.contains name then misuse ("read: " ++ name ++ ": is read only")
      else modify fun shell => shell.set name value

def countOf (command : Text) (arguments : List Text) (default : Nat) : Exec Nat := do
  match arguments with
  | [] => return default
  | argument :: _ =>
    match (String.ofList argument).toNat? with
    | some number => return number
    | none => Exec.abort (command ++ ": Illegal number: " ++ argument)

def statusOf (command : Text) (arguments : List Text) : Exec Nat := do
  return (← countOf command arguments (← get).status) % 256

def splitAssignment (word : Text) : Text × Option Text :=
  match Text.breakOn? ['='] word with
  | some (name, value) => (name, some value)
  | none => (word, none)

def assignExported (word : Text) : Exec Unit := do
  let (name, value?) := splitAssignment word
  modify fun shell =>
    { (value?.elim shell (shell.set name)) with exported := name :: shell.exported }

/-- Makes a command out of what it does with the name of each variable that it is given; a value is
set first or afterwards. -/
def declaring (command : Text) (mark : Text → Shell → Shell) (arguments : List Text) :
    Exec Unit := do
  Exec.finish 0
  arguments.forM fun word => do
    let (name, value?) := splitAssignment word
    if !isName name then Exec.abort (command ++ ": " ++ name ++ ": bad variable name")
    modify (mark name)
    match value? with
    | none => pure ()
    | some value =>
      if (← get).constants.contains name then
        Exec.abort (command ++ ": " ++ name ++ ": is read only")
      modify fun shell => shell.set name value

def listing (command : Text) (names : List Text) : Exec Unit := do
  let shell ← get
  (sortedNames names.eraseDups).forM fun name =>
    let value : Text := match shell.valueOf? name with
      | some value => "=" ++ singleQuoted value
      | none => []
    Exec.emit 1 (Utf8.encode (command ++ " " ++ name ++ value ++ ['\n']))
  Exec.finish 0

def marking (command : Text) (marked : List Text) (mark : Text → Shell → Shell)
    (arguments : List Text) : Exec Unit :=
  match arguments with
  | [] | [['-', 'p']] => listing command marked
  | ('-' :: letter :: _) :: _ => Exec.abort (command ++ ": Illegal option -" ++ [letter])
  | _ => declaring command mark arguments

def makeConstant (arguments : List Text) : Exec Unit := do
  declaring "readonly" (fun _ shell => shell) arguments
  modify fun shell =>
    { shell with constants := arguments.map (fun word => (splitAssignment word).1)
        ++ shell.constants }

def makeLocal (arguments : List Text) : Exec Unit := do
  if (← get).locals.isNone then Exec.abort "local: not in a function"
  let keep (name : Text) (shell : Shell) : Shell :=
    { shell with locals := shell.locals.map fun former =>
        if (former.lookup name).isSome then former
        else (name, shell.valueOf? name) :: former }
  declaring "local" keep arguments

def unsetCommand (arguments : List Text) : Exec Unit := do
  let (functions, names) := match arguments with
    | ['-', 'f'] :: names => (true, names)
    | ['-', 'v'] :: names => (false, names)
    | names => (false, names)
  Exec.finish 0
  names.forM fun name => do
    match name with
    | '-' :: letter :: _ => Exec.abort ("unset: Illegal option -" ++ [letter])
    | _ =>
      if functions then
        modify fun shell => { shell with functions := shell.functions.filter (·.1 != name) }
      else if !isName name then Exec.abort ("unset: " ++ name ++ ": bad variable name")
      else if (← get).constants.contains name then
        Exec.abort ("unset: " ++ name ++ ": is read only")
      else modify fun shell => shell.unset name

def optionNames : List (String × Char) :=
  [("errexit", 'e'), ("noglob", 'f'), ("ignoreeof", 'I'), ("interactive", 'i'), ("monitor", 'm'),
    ("noexec", 'n'), ("stdin", 's'), ("xtrace", 'x'), ("verbose", 'v'), ("vi", 'V'), ("emacs", 'E'),
    ("noclobber", 'C'), ("allexport", 'a'), ("notify", 'b'), ("nounset", 'u')]

def ShellOptions.changed? (options : ShellOptions) (value : Bool) (letter : Char) :
    Option ShellOptions :=
  match letter with
  | 'e' => some { options with strict := value }
  | 'u' => some { options with needsValues := value }
  | 'x' => some { options with traced := value }
  | 'f' => some { options with literal := value }
  | letter => if optionNames.any (·.2 = letter) then some options else none

def readOptions (options : ShellOptions) : List Text → Except Text (ShellOptions × List Text)
  | ['-', 'o'] :: name :: rest => named true name rest
  | ['+', 'o'] :: name :: rest => named false name rest
  | words@((sign :: letters) :: rest) =>
    if sign ≠ '-' && sign ≠ '+' || letters = ['-'] then .ok (options, words)
    else
      match lettered (sign = '-') options letters with
      | .ok changed => readOptions changed rest
      | .error problem => .error problem
  | words => .ok (options, words)
where
  /-- The options after a row of letters. -/
  lettered (value : Bool) : ShellOptions → Text → Except Text ShellOptions
    | options, [] => .ok options
    | options, letter :: letters =>
      match options.changed? value letter with
      | some changed => lettered value changed letters
      | none => .error ("Illegal option -" ++ [letter])
  /-- Reads on behind the name of an option. -/
  named (value : Bool) (name : Text) (rest : List Text) :
      Except Text (ShellOptions × List Text) :=
    match (optionNames.lookup (String.ofList name)).bind (options.changed? value) with
    | some changed => readOptions changed rest
    | none => .error ("Illegal option -o " ++ name)

def setCommand (arguments : List Text) : Exec Unit := do
  let shell ← get
  match readOptions shell.options arguments with
  | .error problem => Exec.abort ("set: " ++ problem)
  | .ok (options, rest) =>
    set { shell with
      options := options
      arguments := match rest with
        | [] => shell.arguments
        | ['-', '-'] :: rest => rest
        | rest => rest
      status := 0 }

def waitCommand (arguments : List Text) : Exec Unit := do
  Exec.finish 0
  if arguments.isEmpty then
    let shell ← get
    let ends := shell.jobs.foldl (fun time job =>
      if job.foreign then time else max time job.finish) shell.elapsed
    Exec.pass (ends - shell.elapsed)
  arguments.forM fun argument => do
    let shell ← get
    match shell.jobs.find? fun job => !job.foreign && Text.decimal job.number == argument with
    | some job =>
      Exec.pass (job.finish - shell.elapsed)
      job.signal?.forM reportSignal
      Exec.finish job.status
    | none =>
      if argument.all Char.isDigit then Exec.finish 127
      else misuse ("wait: No such job: " ++ argument)

def printfCommand (arguments : List Text) : Exec Unit := do
  let arguments := if arguments.head? = some ['-', '-'] then arguments.drop 1 else arguments
  match arguments with
  | [] => misuse "printf: usage: printf format [arg ...]"
  | format :: rest =>
    let printed := formatted format rest
    Exec.emit 1 printed.bytes
    printed.complaints.forM fun complaint => Exec.complainHere ("printf: " ++ complaint)
    match printed.problem? with
    | some problem => misuse ("printf: " ++ problem)
    | none => Exec.finish (if printed.complaints.isEmpty then 0 else 1)

def typeCommand (names : List Text) : Exec Unit := do
  Exec.finish 0
  names.forM fun name => do
    let found? := described? (← get) false name
    Exec.emit 1 (Utf8.encode (found?.getD (name ++ ": not found") ++ ['\n']))
    if found?.isNone then Exec.finish 127

def ownCommand? (name : Text) (arguments : List Text) : Option (Exec Unit) :=
  match String.ofList name with
  | ":" | "true" => some (Exec.finish 0)
  | "false" => some (Exec.finish 1)
  | "exit" => some do throw (.exited (← statusOf name arguments))
  | "return" => some do throw (.returned (← statusOf name arguments))
  | "break" => some do leaveLoops (← countOf name arguments 1) false
  | "continue" => some do leaveLoops (← countOf name arguments 1) true
  | "cd" => some (changeDirectory arguments)
  | "pwd" => some do Exec.finish (← Tool.pwd)
  | "echo" => some do Exec.emit 1 (echoed arguments); Exec.finish 0
  | "printf" => some (printfCommand arguments)
  | "test" => some (testCommand name arguments)
  | "[" => some <|
    if arguments.getLast? = some [']'] then testCommand name arguments.dropLast
    else misuse "[: missing ]"
  | "kill" => some (killCommand arguments)
  | "shift" => some do
    let count ← countOf name arguments 1
    let shell ← get
    if shell.arguments.length < count then Exec.abort "shift: can't shift that many"
    set { shell with arguments := shell.arguments.drop count, status := 0 }
  | "set" => some (setCommand arguments)
  | "unset" => some (unsetCommand arguments)
  | "export" => some do
    marking name (← get).exported (fun name shell =>
      { shell with exported := name :: shell.exported }) arguments
  | "readonly" => some do
    if arguments.all fun word => word.head? = some '-' then
      marking name (← get).constants (fun _ shell => shell) arguments
    else makeConstant arguments
  | "local" => some (makeLocal arguments)
  | "read" => some (readLine arguments)
  | "wait" => some (waitCommand arguments)
  | "trap" => some (trapCommand arguments)
  | "type" => some (typeCommand arguments)
  | "umask" => some do
    if arguments.isEmpty then Exec.emit 1 (Utf8.encode "0022\n")
    Exec.finish 0
  | "hash" => some (Exec.finish 0)
  | _ => none

/-- What the `echo` program prints; unlike the command of the shell it reads escapes only when it is
told to. -/
def programEcho (arguments : List Text) : Bytes :=
  let isOption : Text → Bool
    | '-' :: letter :: letters => (letter :: letters).all fun char => char ∈ ['n', 'e', 'E']
    | _ => false
  let letters := (arguments.takeWhile isOption).flatten
  let text := Text.join " " (arguments.dropWhile isOption)
  let (bytes, stopped) :=
    if letters.contains 'e' then escapedBytes (text.length + 1) text
    else (Utf8.encode text, false)
  if stopped || letters.contains 'n' then bytes else bytes ++ [10]

def program? (name : Text) (arguments : List Text) : Option (Exec Unit) :=
  match tool? name arguments with
  | some tool => some do Exec.finish (← tool)
  | none =>
    match String.ofList name with
    | "echo" => some do Exec.emit 1 (programEcho arguments); Exec.finish 0
    | "printf" | "pwd" | "test" | "[" => ownCommand? name arguments
    | _ => none

end ShaderBridge.Script
