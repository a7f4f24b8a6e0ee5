import ShaderBridge.Script.Shell
set_option autoImplicit false

namespace ShaderBridge.Script

def ownProcess : Text := Text.decimal Shell.firstProcess

def itemsOf (quoted : Bool) (text : Text) : List Item :=
  let chars := text.map fun char => Item.char char quoted (!quoted)
  if quoted then .present :: chars else chars

def argumentItems (quoted joined : Bool) (separators : Text) (arguments : List Text) : List Item :=
  if quoted && joined then itemsOf true (Text.join (separators.take 1) arguments)
  else List.intercalate [Item.border] (arguments.map (itemsOf quoted))

def ShellOptions.letters (options : ShellOptions) : Text :=
  [(options.strict, 'e'), (options.needsValues, 'u'), (options.traced, 'x'),
    (options.literal, 'f')].filterMap
    fun (isSet, letter) => if isSet then some letter else none

def parameterValue (shell : Shell) (name : Text) : Option Text :=
  match name with
  | ['?'] => some (Text.decimal shell.status)
  | ['#'] => some (Text.decimal shell.arguments.length)
  | ['$'] => some ownProcess
  | ['!'] => (shell.jobs.find? (!·.foreign)).map fun job => Text.decimal job.number
  | ['-'] => some shell.options.letters
  | ['@'] | ['*'] =>
    if shell.arguments.isEmpty then none else some (Text.join " " shell.arguments)
  | ['0'] => some shell.name
  | _ =>
    match (String.ofList name).toNat? with
    | some place => shell.arguments[place - 1]?
    | none => shell.valueOf? name

def missingValue (name : Text) (whenEmpty : Bool) (word : Text) : Text :=
  let reason : Text :=
    if !word.isEmpty then word
    else if whenEmpty then "parameter not set or null" else "parameter not set"
  name ++ ": " ++ reason

def dropMatch (longest : Bool) (pattern : List Glob) (text : Text) : Text :=
  let lengths := List.range (text.length + 1)
  let tried := if longest then lengths.reverse else lengths
  match tried.find? fun length => globMatches pattern (text.take length) with
  | some length => text.drop length
  | none => text

def dropEndMatch (longest : Bool) (pattern : List Glob) (text : Text) : Text :=
  let lengths := List.range (text.length + 1)
  let tried := if longest then lengths else lengths.reverse
  match tried.find? fun length => globMatches pattern (text.drop length) with
  | some length => text.take length
  | none => text

def printedText (bytes : Bytes) : Text :=
  Utf8.decodeLenient (bytes.reverse.dropWhile (· == 10)).reverse

end ShaderBridge.Script
