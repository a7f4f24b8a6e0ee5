import ShaderBridge.Script.OwnCommand
import ShaderBridge.Script.Parameter
import ShaderBridge.Script.Parser
import ShaderBridge.Script.Redirect
set_option autoImplicit false

/-! Running scripts. Every recursion is bounded by how deeply commands and expansions are nested,
and every loop by a number of rounds; a script that goes beyond either is taken for one that never
ends. -/

namespace ShaderBridge.Script

def maxRounds : Nat := 100000

def maxNesting : Nat := 400

def repeating (round : Shell → Except Stop Bool × Shell) : Nat → Shell →
    Except Stop Unit × Shell
  | 0, shell => (.error .outOfTime, shell)
  | rounds + 1, shell =>
    match round shell with
    | (.ok true, shell) => repeating round rounds shell
    | (.ok false, shell) => (.ok (), shell)
    | (.error stop, shell) => (.error stop, shell)

def aroundBody (body : Exec Unit) : Exec Bool := do
  modify fun shell => { shell with loops := shell.loops + 1 }
  let leave : Exec Unit := modify fun shell => { shell with loops := shell.loops - 1 }
  try
    body
    leave
    return true
  catch stop =>
    leave
    match stop with
    | .left 0 goesOn => return goesOn
    | .left (loops + 1) goesOn => throw (.left loops goesOn)
    | stop => throw stop

/-- Starts the first program that can be started. A problem with one of them counts for more than
that others are missing. -/
def startFirst (start : Text → Exec (Except StorageFailure Nat)) (places : List Text) :
    Exec (Except StorageFailure Nat) :=
  places.foldlM (fun outcome place => do
    match outcome with
    | .ok status => return .ok status
    | .error problem =>
      match ← start place with
      | .error .missing | .error .notDirectory => return .error problem
      | outcome => return outcome) (.error .missing)

def interpreter? (content : Bytes) : Option (Text × List Text) :=
  match content with
  | 35 :: 33 :: rest =>
    let line := Utf8.decodeLenient (rest.takeWhile (· != 10))
    let isGap (char : Char) : Bool := char == ' ' || char == '\t'
    let trimmed := ((line.dropWhile isGap).reverse.dropWhile isGap).reverse
    let path := trimmed.takeWhile (!isGap ·)
    let argument := (trimmed.dropWhile (!isGap ·)).dropWhile isGap
    some (path, if argument.isEmpty then [] else [argument])
  | _ => none

inductive ScriptSource where
  | text (script : Text)
  | file (path : Text)
  | input
  deriving DecidableEq, Repr

structure ShellCall where
  source : ScriptSource
  name : Text
  arguments : List Text
  options : ShellOptions
  deriving DecidableEq, Repr

def shellCall (shell : Text) : (inText inInput : Bool) → ShellOptions → List Text →
    Except Text ShellCall
  | inText, inInput, options, ['-', 'o'] :: name :: rest =>
    match (optionNames.lookup (String.ofList name)).bind (options.changed? true) with
    | some changed => shellCall shell inText inInput changed rest
    | none => .error ("Illegal option -o " ++ name)
  | inText, inInput, options, ('-' :: letter :: letters) :: rest =>
    let row := letter :: letters
    if row = ['-'] then operands inText inInput options rest
    else
      let others := row.filter fun letter => letter ≠ 'c' && letter ≠ 's' && letter ≠ 'l'
      match readOptions.lettered true options others with
      | .ok changed =>
        shellCall shell (inText || row.contains 'c') (inInput || row.contains 's') changed rest
      | .error problem => .error problem
  | inText, inInput, options, words => operands inText inInput options words
where
  /-- The call, given what stands behind the options. -/
  operands (inText inInput : Bool) (options : ShellOptions) (words : List Text) :
      Except Text ShellCall :=
    match inText, words with
    | true, [] => .error "-c requires an argument"
    | true, script :: rest => .ok ⟨.text script, rest.headD shell, rest.drop 1, options⟩
    | false, [] => .ok ⟨.input, shell, [], options⟩
    | false, path :: rest =>
      if inInput then .ok ⟨.input, shell, path :: rest, options⟩
      else .ok ⟨.file path, path, rest, options⟩

def Command.redirections : Command → List Redirection
  | .simple command => command.redirections
  | .redirected _ redirections => redirections
  | _ => []

/-- The shell that a part of this one begins as, when that part has a process of its own. -/
def Shell.forked (shell : Shell) : Shell :=
  { shell with isInner := true, traps := shell.traps.filter (·.1 != 0) }

/-- The shell that another process begins as: it knows what programs see, and passes over the
signals that are passed over here. -/
def Shell.begun (shell : Shell) (call : ShellCall) : Shell :=
  let isOwn (name : Text) : Bool := ["IFS", "PWD"].contains (String.ofList name)
  let known := (shell.environment.filter fun entry => !isOwn entry.1)
      ++ [("PWD".toList, shell.store.workingDirectory.toText), ("IFS".toList, [' ', '\t', '\n'])]
  let bindings := if (known.lookup "PATH".toList).isSome then known
    else known ++ [("PATH".toList, standardPath)]
  { shell with
    name := call.name
    arguments := call.arguments
    bindings := bindings
    exported := shell.exported
    constants := []
    locals := none
    functions := []
    traps := shell.traps.filter (·.2.isEmpty)
    caught := []
    status := 0
    line := 1
    within := []
    options := call.options
    conditions := 0
    loops := 0
    isInner := false }

/-- The job that a part in the background becomes, given the shell when it begins, the shell when it
first waits, and how it ends. What it has done until it first waits is not a part of it. -/
def jobOf (begun waiting : Shell) (ended : Except Stop Nat × Shell) : Job :=
  let job : Job :=
    { number := begun.nextProcess
      finish := begun.limit.toNat + 1
      status := 0 }
  let whole (status : Nat) : Job :=
    let pieces := ended.2.buffers.filterMap fun (number, written) =>
      let old := ((waiting.buffers.lookup number).getD []).length
      let new := written.take (written.length - old)
      if new.isEmpty then none else some (number, new.reverse.flatten)
    let made := ended.2.store.entries.filterMap fun (place, entry) =>
      if waiting.store.entries.lookup place = some entry then none else some (place, some entry)
    let lost := waiting.store.entries.filterMap fun (place, _) =>
      if (ended.2.store.entries.lookup place).isSome then none else some (place, none)
    { job with
      finish := ended.2.elapsed
      status := status
      pieces := pieces
      changes := made ++ lost }
  match ended.1 with
  | .ok status | .error (.exited status) | .error (.returned status) => whole status
  | .error (.killed signal) => { whole (128 + signal) with signal? := some signal }
  | .error (.left ..) => whole 0
  | .error .outOfTime => job

mutual

def expandPart : (nesting : Nat) → Part → Exec (List Item)
  | 0, _ => throw .outOfTime
  | nesting + 1, part => do
    match part with
    | .plain text quoted =>
      let chars := text.map fun char => Item.char char quoted false
      return if quoted then .present :: chars else chars
    | .number expression quoted =>
      let items ← expandWord nesting (quotedParts (← get).line expression)
      let text := (unsplit items).text
      let shell ← get
      match evaluate shell.valueOf? text with
      | .ok (value, settings) =>
        settings.forM fun (name, value) => Exec.assign name (Text.ofInt value)
        return itemsOf quoted (Text.ofInt value)
      | .error problem => Exec.abortWithin (problem.message text)
    | .output line script quoted =>
      let bytes ← Exec.capturing do
        let status ← Exec.inner do
          modify Shell.forked
          asWhole nesting (runText nesting line script)
        Exec.finish status
      return itemsOf quoted (printedText bytes)
    | .parameter name edit? quoted =>
      let shell ← get
      let isAll := name = ['@'] || name = ['*']
      let value? := parameterValue shell name
      let isUnset (whenEmpty : Bool) : Bool :=
        value?.isNone || (whenEmpty && value? == some [])
      let needed : Exec Text := do
        match value? with
        | some value => return value
        | none =>
          if shell.options.needsValues && !isAll then
            Exec.abortWithin (missingValue name false [])
          else return []
      let plain : Exec (List Item) := do
        let value ← needed
        return if isAll then
            argumentItems quoted (name == ['*']) shell.separators shell.arguments
          else itemsOf quoted value
      let alternative (word : Text) : Exec (List Item) :=
        expandWord nesting (wordParts shell.line quoted word)
      let pattern (word : Text) : Exec (List Glob) := do
        return (unsplit (← expandWord nesting (wordParts shell.line false word))).pattern
      match edit? with
      | none => plain
      | some .bad => Exec.abortWithin "Bad substitution"
      | some .length =>
        return itemsOf quoted (Text.decimal (Utf8.encode (← needed)).length)
      | some (.otherwise whenEmpty word) =>
        if isUnset whenEmpty then alternative word else plain
      | some (.instead whenEmpty word) =>
        if isUnset whenEmpty then return itemsOf quoted [] else alternative word
      | some (.assign whenEmpty word) =>
        if isUnset whenEmpty then
          let items ← alternative word
          Exec.assign name (unsplit items).text
          return items
        else plain
      | some (.demand whenEmpty word) =>
        if isUnset whenEmpty then
          Exec.abortWithin (missingValue name whenEmpty (unsplit (← alternative word)).text)
        else plain
      | some (.dropEnd longest word) =>
        let value ← needed
        return itemsOf quoted (dropEndMatch longest (← pattern word) value)
      | some (.dropStart longest word) =>
        let value ← needed
        return itemsOf quoted (dropMatch longest (← pattern word) value)
where
  /-- The parts of a text as if it stood in double quotes. -/
  quotedParts (line : Nat) (text : Text) : Word :=
    match readQuoted false (text.length + 1) line text with
    | .ok (parts, _) => parts
    | .error _ => [.plain text true]
  /-- A text without the double quotes in it. -/
  unquoted : Text → Text
    | '\\' :: char :: text =>
      if char = '"' then '"' :: unquoted text else '\\' :: char :: unquoted text
    | '"' :: text => unquoted text
    | char :: text => char :: unquoted text
    | [] => []
  /-- The parts of a word behind an edit; white space in it is kept. -/
  wordParts (line : Nat) (quoted : Bool) (text : Text) : Word :=
    if quoted then quotedParts line (unquoted text)
    else
      match readWordParts (text.length + 1) line text with
      | .ok (parts, rest, _) =>
        if rest.isEmpty then parts else parts ++ [.plain rest false]
      | .error _ => [.plain text false]

def expandWord : (nesting : Nat) → Word → Exec (List Item)
  | 0, _ => throw .outOfTime
  | nesting + 1, word => do
    return (← word.mapM (expandPart nesting)).flatten

/-- Expands words to the texts of their fields. What is assigned by a command that sets variables
stays a single field. -/
def expandWords : (nesting : Nat) → List Word → Exec (List Text)
  | 0, _ => throw .outOfTime
  | nesting + 1, words => do
    let isSetting := match words.head? with
      | some [.plain name false] =>
        ["export", "local", "readonly"].contains (String.ofList name)
      | _ => false
    let found ← words.mapM fun word => do
      let items ← expandWord nesting word
      if isSetting && (Reader.assignment? word).isSome then return [unsplit items]
      return fields (← get).separators items
    let shell ← get
    let texts (field : Field) : List Text :=
      if shell.options.literal then [field.text]
      else field.expand shell.store shell.store.workingDirectory
    return found.flatten.flatMap texts

def redirectAll : (nesting : Nat) → List Redirection → Exec Bool
  | 0, _ => throw .outOfTime
  | nesting + 1, redirections =>
    redirections.foldlM (fun good redirection => do
      if !good then return false
      let target := (unsplit (← expandWord nesting redirection.target)).text
      redirect redirection target) true

def redirected : (nesting : Nat) → List Redirection → Exec Unit → Exec Bool
  | 0, _, _ => throw .outOfTime
  | nesting + 1, redirections, part => do
    let before ← get
    let restore : Exec Unit := modify fun shell =>
      { shell with
        sinks := before.sinks
        input := if redirections.any fun one => one.direction matches .input | .inline
          then before.input else shell.input }
    try
      let good ← redirectAll nesting redirections
      if good then part else Exec.finish 2
      restore
      return good
    catch stop =>
      restore
      throw stop

def runText : (nesting line : Nat) → (script : Text) → Exec Unit
  | 0, _, _ => throw .outOfTime
  | nesting + 1, line, script => do
    let (lines, problem?) := parse line script
    lines.forM (run nesting)
    match problem? with
    | none => pure ()
    | some problem =>
      modify fun shell => { shell with line := problem.line }
      Exec.abortWithin ("Syntax error: " ++ problem.message)

def runWithin : (nesting : Nat) → (source script : Text) → Exec Unit
  | 0, _, _ => throw .outOfTime
  | nesting + 1, source, script => do
    let before ← get
    set { before with within := source ++ ": ", status := 0 }
    let leave : Exec Unit := modify fun shell => { shell with within := before.within }
    try runText nesting 1 script
    catch stop =>
      leave
      throw stop
    leave

def asWhole : (nesting : Nat) → Exec Unit → Exec Unit
  | 0, _ => throw .outOfTime
  | nesting + 1, part => do
    let status ← try
        part
        pure (← get).status
      catch stop =>
        match stop with
        | .exited status | .returned status => pure status
        | .left .. => pure (← get).status
        | stop => throw stop
    match (← get).traps.lookup 0 with
    | some action =>
      modify fun shell =>
        { shell with
          status := status
          traps := shell.traps.filter (·.1 != 0) }
      runText nesting 1 action
    | none => pure ()
    throw (.exited status)

def runShell : (nesting : Nat) → (shell : Text) → List Text → Exec Nat
  | 0, _, _ => throw .outOfTime
  | nesting + 1, shell, arguments => do
    let outer ← get
    let status ← Exec.inner do
      match shellCall shell false false {} arguments with
      | .error problem =>
        Exec.complain (shell ++ ": 0: " ++ problem)
        throw (.exited 2)
      | .ok call =>
        modify (Shell.begun · call)
        match call.source with
        | .text script => asWhole nesting (runText nesting 1 script)
        | .input =>
          let script := Utf8.decodeLenient (← Exec.takeInput)
          asWhole nesting (runText nesting 1 script)
        | .file path =>
          match outer.store.read (Path.ofText path) with
          | .ok content => asWhole nesting (runText nesting 1 (Utf8.decodeLenient content))
          | .error failure =>
            Exec.complain (shell ++ ": 0: cannot open " ++ path ++ ": "
              ++ (if failure = .missing then "No such file".toList else wording failure))
            throw (.exited 2)
    modify fun shell => { shell with caught := outer.caught }
    return status

def runFile : (nesting : Nat) → (called path : Text) → List Text → Exec (Except StorageFailure Nat)
  | 0, _, _, _ => throw .outOfTime
  | nesting + 1, called, path, arguments => do
    let name := (programName? path).getD []
    if isShellName name then return .ok (← runShell nesting called arguments)
    let running (program : Exec Unit) : Exec (Except StorageFailure Nat) := do
      return .ok (← Exec.inner do
        modify fun inner => { inner with called := called }
        program)
    if name = "env" then return ← running (runWithSettings nesting arguments)
    let shell ← get
    match program? name arguments, shell.store.entry (Path.ofText path) with
    | some program, _ => running program
    | none, .error failure => return .error failure
    | none, .ok .directory => return .error .notPermitted
    | none, .ok (.file content executable) =>
      if !executable then return .error .notPermitted
      match interpreter? content with
      | none => return .error .unrunnable
      | some (interpreter, options) =>
        runFile nesting interpreter interpreter (options ++ path :: arguments)

def runProgram : (nesting : Nat) → (name : Text) → List Text → Exec (Except StorageFailure Nat)
  | 0, _, _ => throw .outOfTime
  | nesting + 1, name, arguments => do
    let start (path : Text) : Exec (Except StorageFailure Nat) := do
      match ← runFile nesting name path arguments with
      | .error .unrunnable => return .ok (← runShell nesting "/bin/sh" (path :: arguments))
      | outcome => return outcome
    if name.contains '/' then start name else startFirst start (searchPlaces (← get) name)

def runWithSettings : (nesting : Nat) → List Text → Exec Unit
  | 0, _ => throw .outOfTime
  | _ + 1, [] => do
    let shell ← get
    shell.environment.forM fun (name, value) =>
      Exec.emit 1 (Utf8.encode (name ++ "=" ++ value ++ "\n"))
    Exec.finish 0
  | nesting + 1, word :: words => do
    if word = ['-', '-'] then runWithSettings nesting words
    else if word = "-i".toList || word = ['-'] then
      modify fun shell => { shell with exported := [] }
      runWithSettings nesting words
    else if word = "-u".toList then
      modify fun shell =>
        { shell with exported := shell.exported.filter fun name => some name != words.head? }
      runWithSettings nesting (words.drop 1)
    else if word.contains '=' then
      assignExported word
      runWithSettings nesting words
    else
      match ← runProgram nesting word words with
      | .ok status => Exec.finish status
      | .error failure =>
        Tool.complain (Tool.quoted word ++ ": " ++ wording failure)
        Exec.finish (if failure = .missing then 127 else 126)

def runFunction : (nesting : Nat) → Command → List Text → Exec Unit
  | 0, _, _ => throw .outOfTime
  | nesting + 1, body, arguments => do
    let before ← get
    set { before with arguments := arguments, locals := some [] }
    let leave : Exec Unit := modify fun after =>
      let former := after.locals.getD []
      let restored := former.foldl (fun shell (name, value?) => shell.restore name value?) after
      { restored with arguments := before.arguments, locals := before.locals }
    try
      run nesting body
      leave
    catch stop =>
      leave
      match stop with
      | .returned status => Exec.finish status
      | stop => throw stop

def runNamed : (nesting : Nat) → (plainly : Bool) → (name : Text) → List Text → Exec Unit
  | 0, _, _, _ => throw .outOfTime
  | nesting + 1, plainly, name, arguments => do
    let shell ← get
    match if plainly then none else shell.functions.lookup name with
    | some body => runFunction nesting body arguments
    | none =>
      match String.ofList name with
      | "eval" => runWithin nesting name (Text.join " " arguments)
      | "command" =>
        match arguments with
        | ['-', 'v'] :: sought :: _ =>
          let found? := described? shell true sought
          found?.forM fun found => Exec.emit 1 (Utf8.encode (found ++ ['\n']))
          Exec.finish (if found?.isSome then 0 else 127)
        | ['-', 'V'] :: sought :: _ => typeCommand [sought]
        | inner :: rest =>
          if inner.head? = some '-' then
            match rest with
            | next :: rest => runNamed nesting true next rest
            | [] => Exec.finish 0
          else runNamed nesting true inner rest
        | [] => Exec.finish 0
      | "." =>
        let written := arguments.headD []
        let place? :=
          if written.contains '/' then some written
          else (searchPlaces shell written).find? fun place =>
            (shell.store.read (Path.ofText place)).isOk
        match place?.map fun place => shell.store.read (Path.ofText place) with
        | none => Exec.abort (".: " ++ written ++ ": not found")
        | some (.error _) => Exec.abort (".: cannot open " ++ written ++ ": No such file")
        | some (.ok content) =>
          try runWithin nesting written (Utf8.decodeLenient content)
          catch stop =>
            match stop with
            | .returned status => Exec.finish status
            | stop => throw stop
      | "exec" =>
        match arguments with
        | inner :: rest =>
          let status ← outcome ("exec: " ++ inner) (← runProgram nesting inner rest)
          modify fun shell => { shell with traps := shell.traps.filter (·.1 != 0) }
          throw (.exited status)
        | [] => Exec.finish 0
      | _ =>
        match ownCommand? name arguments with
        | some own => own
        | none =>
          Exec.finish (← outcome name (← asChild (runProgram nesting name arguments)))
where
  /-- The status of a program, or what is said when it cannot be started. -/
  outcome (name : Text) : Except StorageFailure Nat → Exec Nat
    | .ok status => return status
    | .error .missing | .error .notDirectory => do
      Exec.complainWithin (name ++ ": not found")
      return 127
    | .error _ => do
      Exec.complainWithin (name ++ ": Permission denied")
      return 126

/-- Runs a simple command. Settings in front of a command last only as long as it runs, but for the
commands whose settings last. -/
def runSimple : (nesting : Nat) → SimpleCommand → Exec Unit
  | 0, _ => throw .outOfTime
  | nesting + 1, command => do
    modify fun shell => { shell with line := command.line }
    let entry ← get
    let words ← expandWords nesting command.words
    let assign (visible : Bool) : Exec (List Text) :=
      command.assignments.mapM fun (name, value) => do
      let text := (unsplit (← expandWord nesting value)).text
      Exec.assign name text
      if visible then modify fun shell => { shell with exported := name :: shell.exported }
      return name ++ "=" ++ text
    let trace (settings : List Text) : Exec Unit := do
      let shell ← get
      if shell.options.traced && !(settings.isEmpty && words.isEmpty) then
        set { shell with sinks := entry.sinks }
        Exec.complain ("+ " ++ Text.join " " (settings ++ words))
        modify fun after => { after with sinks := shell.sinks }
    match words with
    | [] =>
      let _ ← redirected nesting command.redirections do
        trace (← assign false)
        if (← get).nextBuffer = entry.nextBuffer then Exec.finish 0
    | name :: arguments =>
      let isFunction := (entry.functions.lookup name).isSome
      let isSpecial := specialCommands.contains name && !isFunction
      if name = "exec".toList && arguments.isEmpty && !isFunction then
        trace []
        if ← redirectAll nesting command.redirections then Exec.finish 0 else throw (.exited 2)
      else
        let good ← redirected nesting command.redirections do
          trace (← assign !isSpecial)
          runNamed nesting false name arguments
        if isSpecial then
          if !good then throw (.exited 2)
        else
          let names := command.assignments.map (·.1)
          modify fun shell =>
            let restored := names.foldl (fun shell name =>
              shell.restore name (entry.valueOf? name)) shell
            { restored with
              exported := shell.exported.filter fun name =>
                !names.contains name || entry.exported.contains name }

def run : (nesting : Nat) → Command → Exec Unit
  | 0, _ => throw .outOfTime
  | nesting + 1, command => do
    let tested (part : Exec Unit) : Exec Bool := do
      let before ← get
      set { before with conditions := before.conditions + 1 }
      let restore : Exec Unit := modify fun shell => { shell with conditions := before.conditions }
      try part
      catch stop =>
        restore
        throw stop
      restore
      return (← get).status = 0
    let checked (part : Exec Unit) : Exec Unit := do
      part
      let shell ← get
      if shell.options.strict && shell.conditions = 0 && shell.status ≠ 0 then
        throw (.exited shell.status)
    let forked (part : Exec Unit) : Exec Nat := Exec.inner do
      modify Shell.forked
      asWhole nesting part
    match command with
    | .simple simple => checked (runSimple nesting simple)
    | .sequence commands => commands.forM (run nesting)
    | .both first second => if ← tested (run nesting first) then run nesting second
    | .either first second => if !(← tested (run nesting first)) then run nesting second
    | .pipeline negated stages =>
      let piped : Exec Unit := do
        match stages.reverse with
        | [] => pure ()
        | [only] => run nesting only
        | last :: earlier =>
          let before ← get
          earlier.reverse.forM fun stage => do
            let bytes ← Exec.capturing do Exec.finish (← forked (run nesting stage))
            modify fun shell => { shell with input := bytes }
          Exec.finish (← forked (run nesting last))
          modify fun shell => { shell with input := before.input }
      if negated then
        let good ← tested piped
        Exec.finish (if good then 1 else 0)
      else checked piped
    | .background inside =>
      let before ← get
      let begun := { before with input := [] }
      let waiting := (forked (run nesting inside)).run
        { begun with limit := min before.limit (before.elapsed + 1) }
      let ended := (forked (run nesting inside)).run begun
      let isSilent := inside.redirections.any fun one =>
        one.descriptor = 1 && !(one.direction matches .duplicate)
      let job := match waiting.1 with
        | .error .outOfTime => jobOf before waiting.2 ended
        | outcome => jobOf before waiting.2 (outcome, waiting.2)
      let held := before.sinks.filterMap fun (_, sink) =>
        match sink with
        | .buffer number => if isSilent then none else some number
        | .file _ | .nowhere => none
      let after := before.leave waiting.2
      set { after with
        input := before.input
        elapsed := before.elapsed
        line := before.line
        jobs := { job with holds := held } :: after.jobs
        status := 0 }
    | .subshell inside => checked do Exec.finish (← forked (run nesting inside))
    | .loop untilSuccess condition inside =>
      Exec.finish 0
      let round : Exec Bool := do
        let before := (← get).status
        let good ← tested (run nesting condition)
        if good == untilSuccess then
          Exec.finish before
          return false
        aroundBody (run nesting inside)
      fun shell => repeating round.run maxRounds shell
    | .each name words inside =>
      let values ← match words with
        | some words => expandWords nesting words
        | none => do pure (← get).arguments
      Exec.finish 0
      let _ ← values.foldlM (fun goesOn value => do
        if !goesOn then return false
        Exec.assign name value
        aroundBody (run nesting inside)) true
    | .conditional condition yes no =>
      if ← tested (run nesting condition) then run nesting yes
      else
        match no with
        | some no => run nesting no
        | none => Exec.finish 0
    | .choice subject branches =>
      let text := (unsplit (← expandWord nesting subject)).text
      let chosen ← branches.findM? fun (patterns, _) =>
        patterns.anyM fun pattern => do
          return globMatches (unsplit (← expandWord nesting pattern)).pattern text
      Exec.finish 0
      match chosen with
      | some (_, inside) => run nesting inside
      | none => pure ()
    | .function name body =>
      modify fun shell => { shell with functions := (name, body) :: shell.functions }
      Exec.finish 0
    | .redirected inside redirections =>
      let _ ← redirected nesting redirections (run nesting inside)
    let after ← get
    if !after.isInner && !after.caught.isEmpty then
      set { after with caught := [] }
      after.caught.forM (runText nesting 1)
      Exec.finish after.status

end

end ShaderBridge.Script
