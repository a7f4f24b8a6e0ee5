import ShaderBridge.Script.Shell
set_option autoImplicit false

namespace ShaderBridge.Script

namespace Tool

structure Options where
  letters : Text := []
  values : List (Char × Text) := []
  operands : List Text := []
  deriving DecidableEq, Repr

def Options.has (options : Options) (letter : Char) : Bool := options.letters.contains letter

def Options.value? (options : Options) (letter : Char) : Option Text :=
  options.values.reverse.lookup letter

/-- The letters of a row up to one that takes a value, and that one with the value behind it, none
when the next argument is the value. -/
def optionRow (flags valued : Text) : Text → Except Text (Text × Option (Char × Option Text))
  | [] => .ok ([], none)
  | letter :: letters =>
    if valued.contains letter then
      .ok ([], some (letter, if letters.isEmpty then none else some letters))
    else if flags.contains letter then
      (optionRow flags valued letters).map fun (more, last?) => (letter :: more, last?)
    else .error ("invalid option -- '" ++ [letter] ++ "'")

def readArguments (flags valued : Text) : List Text → Except Text Options
  | [] => .ok {}
  | ['-', '-'] :: rest => .ok { operands := rest }
  | word :: rest =>
    match word with
    | '-' :: '-' :: _ => .error ("unrecognized option '" ++ word ++ "'")
    | '-' :: letter :: letters =>
      match optionRow flags valued (letter :: letters) with
      | .error problem => .error problem
      | .ok (row, some (last, none)) =>
        match rest with
        | value :: rest => (readArguments flags valued rest).map fun found =>
            { found with
              letters := row ++ found.letters
              values := (last, value) :: found.values }
        | [] => .error ("option requires an argument -- '" ++ [last] ++ "'")
      | .ok (row, attached) => (readArguments flags valued rest).map fun found =>
          { found with
            letters := row ++ found.letters
            values := (attached.bind fun (letter, value?) => value?.map (letter, ·)).toList
              ++ found.values }
    | _ => (readArguments flags valued rest).map fun found =>
        { found with operands := word :: found.operands }

def complain (message : Text) : Exec Unit := do
  Exec.complain ((← get).called ++ ": " ++ message)

def failing (message : Text) : Exec Nat := do
  complain message
  return 1

def misused (message : Text) : Exec Nat := do
  complain message
  Exec.complain ("Try '" ++ (← get).called ++ " --help' for more information.")
  return 1

def withOptions (flags valued : Text) (arguments : List Text) (tool : Options → Exec Nat) :
    Exec Nat :=
  match readArguments flags valued arguments with
  | .ok options => tool options
  | .error problem => misused problem

def forEach (operands : List Text) (action : Text → Exec Nat) : Exec Nat :=
  operands.foldlM (fun worst operand => do return max worst (← action operand)) 0

def quoted (name : Text) : Text :=
  if name.contains '\'' then "\"" ++ name ++ "\"" else "'" ++ name ++ "'"

def isSpecial (char : Char) : Bool :=
  char ∈ [' ', '\t', '\n', '!', '"', '$', '&', '\'', '(', ')', '*', ';', '<', '=', '>', '?', '[',
    '\\', '^', '\x60', '|']

/-- A name as it is shown, in quotes where the shell would need them. -/
def shown (name : Text) : Text :=
  if name.isEmpty || name.any isSpecial || name.head? = some '#' || name.head? = some '~' then
    quoted name
  else name

def lastPart (written : Text) : Text :=
  let trimmed : Text := (written.reverse.dropWhile (· == '/')).reverse
  trimmed.afterLast '/'

def placeOf (store : FileStore) (operand : Text) : Except StorageFailure Place := do
  if operand.isEmpty then throw .missing
  let place ← store.locate (Path.ofText operand)
  match store.entryAt? place with
  | some (.file ..) => if Text.endsWith "/" operand then throw .notDirectory
  | some .directory | none => pure ()
  return place

def entryOf (store : FileStore) (operand : Text) : Except StorageFailure Entry := do
  match store.entryAt? (← placeOf store operand) with
  | some entry => return entry
  | none => throw .missing

def contentOf (store : FileStore) (operand : Text) : Except StorageFailure Bytes := do
  if operand = "/dev/null".toList then return []
  match ← entryOf store operand with
  | .file content _ => return content
  | .directory => throw .isDirectory

def content (operand : Text) : Exec (Except StorageFailure Bytes) := do
  if operand = ['-'] then return .ok (← Exec.takeInput)
  return contentOf (← get).store operand

def orInput (operands : List Text) : List Text := if operands.isEmpty then [['-']] else operands

/-- What is said about an operand that cannot be opened or read. -/
def unread (operand : Text) (failure : StorageFailure) : Text :=
  if failure = .isDirectory then "error reading " ++ quoted operand ++ ": " ++ wording failure
  else "cannot open " ++ quoted operand ++ " for reading: " ++ wording failure

def printLine (line : Text) : Exec Unit := Exec.emit 1 (Utf8.encode (line ++ ['\n']))

end Tool
end ShaderBridge.Script
