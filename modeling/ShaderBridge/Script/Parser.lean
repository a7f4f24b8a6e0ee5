import ShaderBridge.Script.Lexer
set_option autoImplicit false

namespace ShaderBridge.Script

inductive ScriptProblem where
  /-- Something stands where something else should, or nothing at all. -/
  | unexpected (line : Nat) (found : Text) (wanted : Option Text)
  | unfinished (line : Nat) (what : Open)
  | badVariable (line : Nat)
  | badFunction (line : Nat)
  deriving DecidableEq, Repr

def ScriptProblem.message : ScriptProblem → Text
  | .unexpected _ found none => found ++ " unexpected"
  | .unexpected _ found (some wanted) => found ++ " unexpected (expecting " ++ wanted ++ ")"
  | .unfinished _ what => what.message
  | .badVariable _ => "Bad for loop variable"
  | .badFunction _ => "Bad function name"

def ScriptProblem.line : ScriptProblem → Nat
  | .unexpected line .. | .unfinished line _ | .badVariable line | .badFunction line => line

structure Unread where
  tokens : List Token
  inline : List Word
  lastLine : Nat

abbrev Reader (α : Type) := StateT Unread (Except ScriptProblem) α

namespace Reader

def peek : Reader (Option Token) := do return (← get).tokens.head?

def skip : Reader Unit := modify fun unread => { unread with tokens := unread.tokens.drop 1 }

def nextLine : Reader Nat := do
  match ← peek with
  | some token => return token.line
  | none => return (← get).lastLine

/-- Fails at the next token; `wanted` is what should have stood there. -/
def failing {α : Type} (wanted : Option Text) : Reader α := do
  match ← peek with
  | some ⟨.unfinished what, line⟩ => throw (.unfinished line what)
  | some token => throw (.unexpected token.line token.kind.description wanted)
  | none => throw (.unexpected (← nextLine) "end of file" wanted)

def fail {α : Type} : Reader α := failing none

def bareWord : Reader (Option Text) := do
  match ← peek with
  | some ⟨.word [.plain text false], _⟩ => return some text
  | _ => return none

def atOperator (operator : Text) : Reader Bool := do
  match ← peek with
  | some ⟨.operator found, _⟩ => return found == operator
  | _ => return false

def takeOperator (operator : Text) : Reader Bool := do
  let found ← atOperator operator
  if found then skip
  return found

def takeWord (word : Text) : Reader Bool := do
  let found := (← bareWord) == some word
  if found then skip
  return found

def expectWord (word : Text) : Reader Unit := do
  if !(← takeWord word) then failing (doubleQuoted word)

def expectOperator (operator : Text) : Reader Unit := do
  if !(← takeOperator operator) then failing (doubleQuoted operator)

def skipLines : Reader Unit :=
  modify fun unread => { unread with
    tokens := unread.tokens.dropWhile fun token => token.kind == .operator ['\n'] }

def redirection (descriptor : Option Nat) (operator : Text) (target : Word) : Redirection :=
  let reads := Text.startsWith "<" operator
  let direction : Direction :=
    if operator = ['<'] then .input
    else if Text.endsWith "&" operator then .duplicate
    else if operator = ['>', '>'] then .append
    else .output
  ⟨descriptor.getD (if reads then 0 else 1), direction, target⟩

def takeRedirection : Reader (Option Redirection) := do
  match (← get).tokens with
  | ⟨.redirect descriptor operator, _⟩ :: ⟨.word target, _⟩ :: rest =>
    modify fun unread => { unread with tokens := rest }
    if isInline operator then
      match (← get).inline with
      | text :: more =>
        modify fun unread => { unread with inline := more }
        return some ⟨descriptor.getD 0, .inline, text⟩
      | [] => fail
    else return some (redirection descriptor operator target)
  | ⟨.redirect .., _⟩ :: _ => do skip; fail
  | _ => return none

def redirections : (bound : Nat) → Reader (List Redirection)
  | 0 => return []
  | bound + 1 => do
    match ← takeRedirection with
    | some found => return found :: (← redirections bound)
    | none => return []

def assignment? : Word → Option (Text × Word)
  | .plain text false :: parts =>
    match Text.breakOn? ['='] text with
    | some (name, value) =>
      if isName name then some (name, .plain value false :: parts) else none
    | none => none
  | _ => none

def simpleFrom (command : SimpleCommand) : (bound : Nat) → Reader SimpleCommand
  | 0 => return command
  | bound + 1 => do
    match ← takeRedirection with
    | some found =>
      simpleFrom { command with redirections := command.redirections ++ [found] } bound
    | none =>
      match ← peek with
      | some ⟨.word word, _⟩ =>
        skip
        match assignment? word with
        | some assignment =>
          if command.words.isEmpty then
            simpleFrom { command with assignments := command.assignments ++ [assignment] } bound
          else simpleFrom { command with words := command.words ++ [word] } bound
        | none => simpleFrom { command with words := command.words ++ [word] } bound
      | _ => return command

def wordsFrom : (bound : Nat) → Reader (List Word)
  | 0 => return []
  | bound + 1 => do
    match ← peek with
    | some ⟨.word word, _⟩ =>
      skip
      return word :: (← wordsFrom bound)
    | _ => return []

def patternsFrom : (bound : Nat) → Reader (List Word)
  | 0 => fail
  | bound + 1 => do
    match ← peek with
    | some ⟨.word word, _⟩ =>
      skip
      if ← takeOperator "|" then return word :: (← patternsFrom bound)
      expectOperator ")"
      return [word]
    | some _ => fail
    | none => failing (doubleQuoted ")")

def closers : List Text :=
  ["then", "else", "elif", "fi", "do", "done", "esac", "\x7d"].map String.toList

def atEnd : Reader Bool := do
  match ← peek with
  | none => return true
  | some ⟨.operator operator, _⟩ => return operator == ")".toList || operator == ";;".toList
  | some ⟨.word [.plain text false], _⟩ => return closers.contains text
  | some _ => return false

def loopVariable : Reader Text := do
  match ← bareWord with
  | some name =>
    if isName name then
      skip
      return name
    throw (.badVariable (← nextLine))
  | none => throw (.badVariable (← nextLine))

def wordsEnd : Reader Unit := do
  if !(← takeOperator ";") && !(← atOperator ['\n']) then fail

mutual

def commands : (bound : Nat) → Reader (List Command)
  | 0 => fail
  | bound + 1 => do
    skipLines
    if ← atEnd then return []
    let first ← andOr bound
    if ← takeOperator "&" then return .background first :: (← commands bound)
    if (← takeOperator ";") || (← atOperator ['\n']) then return first :: (← commands bound)
    if ← atEnd then return [first]
    fail

/-- Reads commands as one, of which there has to be one. -/
def body : (bound : Nat) → Reader Command
  | 0 => fail
  | bound + 1 => do
    let found ← commands bound
    if found.isEmpty && (← peek).isSome then fail
    return .sequence found

def andOr : (bound : Nat) → Reader Command
  | 0 => fail
  | bound + 1 => do andOrFrom bound (← pipeline bound)

def andOrFrom : (bound : Nat) → Command → Reader Command
  | 0, _ => fail
  | bound + 1, first => do
    if ← takeOperator "&&" then
      skipLines
      andOrFrom bound (.both first (← pipeline bound))
    else if ← takeOperator "||" then
      skipLines
      andOrFrom bound (.either first (← pipeline bound))
    else return first

def pipeline : (bound : Nat) → Reader Command
  | 0 => fail
  | bound + 1 => do
    if ← takeWord "!" then
      if (← bareWord) == some ['!'] then fail
      return .pipeline true (← stages bound)
    match ← stages bound with
    | [stage] => return stage
    | stages => return .pipeline false stages

def stages : (bound : Nat) → Reader (List Command)
  | 0 => fail
  | bound + 1 => do
    let first ← command bound
    if ← takeOperator "|" then
      skipLines
      return first :: (← stages bound)
    return [first]

def branches : (bound : Nat) → Reader (List (List Word × Command))
  | 0 => fail
  | bound + 1 => do
    skipLines
    if ← takeWord "esac" then return []
    let _ ← takeOperator "("
    let patterns ← patternsFrom bound
    let chosen := Command.sequence (← commands bound)
    if ← takeOperator ";;" then return (patterns, chosen) :: (← branches bound)
    if ← takeWord "esac" then return [(patterns, chosen)]
    failing (doubleQuoted ";;")

def consequences : (bound : Nat) → Reader (Command × Option Command)
  | 0 => fail
  | bound + 1 => do
    expectWord "then"
    let yes ← body bound
    if ← takeWord "elif" then
      let condition ← body bound
      let (more, no) ← consequences bound
      return (yes, some (.conditional condition more no))
    else if ← takeWord "else" then
      let no ← body bound
      expectWord "fi"
      return (yes, some no)
    else
      expectWord "fi"
      return (yes, none)

def command : (bound : Nat) → Reader Command
  | 0 => fail
  | bound + 1 => do
    let compound (found : Command) : Reader Command := do
      match ← redirections bound with
      | [] => return found
      | changed => return .redirected found changed
    if ← takeOperator "(" then
      let inside ← body bound
      expectOperator ")"
      return ← compound (.subshell inside)
    match ← bareWord with
    | none => simple bound
    | some word =>
      if word = "in".toList || closers.contains word then fail
      match String.ofList word with
      | "\x7b" =>
        skip
        let inside ← body bound
        expectWord "\x7d"
        compound inside
      | "while" | "until" =>
        skip
        let condition ← body bound
        expectWord "do"
        let repeated ← body bound
        expectWord "done"
        compound (.loop (word == "until".toList) condition repeated)
      | "for" =>
        skip
        let name ← loopVariable
        skipLines
        let words ←
          if ← takeWord "in" then do
            let words ← wordsFrom bound
            wordsEnd
            pure (some words)
          else do
            let _ ← takeOperator ";"
            pure none
        skipLines
        expectWord "do"
        let repeated ← body bound
        expectWord "done"
        compound (.each name words repeated)
      | "if" =>
        skip
        let condition ← body bound
        let (yes, no) ← consequences bound
        compound (.conditional condition yes no)
      | "case" =>
        skip
        match ← peek with
        | some ⟨.word subject, _⟩ =>
          skip
          skipLines
          expectWord "in"
          compound (.choice subject (← branches bound))
        | _ => failing "word"
      | _ => simple bound

def simple : (bound : Nat) → Reader Command
  | 0 => fail
  | bound + 1 => do
    match (← get).tokens with
    | ⟨.word name, line⟩ :: ⟨.operator ['('], _⟩ :: _ =>
      skip
      if (assignment? name).isSome then fail
      skip
      expectOperator ")"
      let text := plainText name
      if !isName text || specialCommands.contains text then throw (.badFunction line)
      if name ≠ [.plain text false] then throw (.badFunction line)
      skipLines
      return .function text (← command bound)
    | token :: _ =>
      let found ← simpleFrom ⟨token.line, [], [], []⟩ bound
      if found.words.isEmpty && found.assignments.isEmpty && found.redirections.isEmpty then fail
      else return .simple found
    | [] => fail

end

def lineFrom : (bound : Nat) → Reader (List Command)
  | 0 => fail
  | bound + 1 => do
    let first ← andOr bound
    if ← takeOperator "&" then return .background first :: (← more bound)
    if ← takeOperator ";" then return first :: (← more bound)
    return first :: (← ended)
where
  /-- The end of a line. -/
  ended : Reader (List Command) := do
    if (← peek).isNone || (← atOperator ['\n']) then return []
    fail
  /-- Reads on in the line, unless it ends here. -/
  more (bound : Nat) : Reader (List Command) := do
    if (← peek).isNone || (← atOperator ['\n']) then return []
    lineFrom bound

end Reader

def linesFrom : (bound : Nat) → Unread → List Command × Option ScriptProblem
  | 0, _ => ([], none)
  | bound + 1, unread =>
    let tokens := unread.tokens.dropWhile fun token => token.kind == .operator ['\n']
    if tokens.isEmpty then ([], none)
    else
      match (Reader.lineFrom (20 * (tokens.length + 2))).run { unread with tokens := tokens } with
      | .error problem => ([], some problem)
      | .ok (commands, rest) =>
        let (lines, problem?) := linesFrom bound rest
        (.sequence commands :: lines, problem?)

def parse (line : Nat) (script : Text) : List Command × Option ScriptProblem :=
  let (tokens, inline) := tokenize line script
  linesFrom (tokens.length + 1) ⟨tokens, inline, line + script.count '\n'⟩

end ShaderBridge.Script
