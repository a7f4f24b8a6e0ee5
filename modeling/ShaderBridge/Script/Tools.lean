import ShaderBridge.Script.FileTools
import ShaderBridge.Script.TextTools
import ShaderBridge.Text.Numeral
set_option autoImplicit false

namespace ShaderBridge.Script

namespace Tool

def numberRow (step last : Int) : (bound : Nat) → (first : Int) → List Int
  | 0, _ => []
  | bound + 1, first =>
    if (0 < step && last < first) || (step < 0 && first < last) then []
    else first :: numberRow step last bound (first + step)

def rowOptions : List Text → Text × Bool × List Text
  | ['-', 's'] :: separator :: rest =>
    let (_, padded, operands) := rowOptions rest
    (separator, padded, operands)
  | ['-', 'w'] :: rest =>
    let (separator, _, operands) := rowOptions rest
    (separator, true, operands)
  | ('-' :: 's' :: separator) :: rest =>
    let (_, padded, operands) := rowOptions rest
    (separator, padded, operands)
  | operands => (['\n'], false, operands)

def seq (arguments : List Text) : Exec Nat := do
  let (separator, padded, operands) := rowOptions arguments
  match operands.find? (·.toInt?.isNone) with
  | some operand => misused ("invalid floating point argument: " ++ quoted operand)
  | none =>
    let print (first step last : Int) : Exec Nat := do
      let numbers := numberRow step last ((last - first).natAbs + 1) first
      let texts := numbers.map Text.ofInt
      let width := if padded then (texts.map List.length).foldl max 0 else 0
      let fill (text : Text) : Text := match text with
        | '-' :: digits => '-' :: List.replicate (width - text.length) '0' ++ digits
        | digits => List.replicate (width - digits.length) '0' ++ digits
      if !texts.isEmpty then printLine (Text.join separator (texts.map fill))
      return 0
    match operands.filterMap Text.toInt? with
    | [] => misused "missing operand"
    | [last] => print 1 1 last
    | [first, last] => print first 1 last
    | [first, step, last] =>
      if step = 0 then misused ("invalid Zero increment value: " ++ quoted (Text.ofInt step))
      else print first step last
    | _ => misused ("extra operand " ++ quoted ((operands.drop 3).headD []))

def milliseconds (text : Text) : Option Nat :=
  if text = "infinity".toList || text = "inf".toList then some 1000000000000000
  else
    let (whole, rest) := (text.takeWhile Char.isDigit, text.dropWhile Char.isDigit)
    let (fraction, unit) := match rest with
      | '.' :: rest => (rest.takeWhile Char.isDigit, rest.dropWhile Char.isDigit)
      | rest => ([], rest)
    let factor := match unit with
      | [] | ['s'] => some 1
      | ['m'] => some 60
      | ['h'] => some 3600
      | ['d'] => some 86400
      | _ => none
    if whole.isEmpty && fraction.isEmpty then none
    else factor.map fun factor =>
      let digits := (whole ++ (fraction ++ List.replicate 3 '0').take 3)
      factor * digits.foldl (fun value digit => value * 10 + (digit.toNat - 48)) 0

def sleep (arguments : List Text) : Exec Nat :=
  withOptions [] [] arguments fun options => do
    match options.operands.find? fun operand => (milliseconds operand).isNone with
    | some operand => misused ("invalid time interval " ++ quoted operand)
    | none =>
      if options.operands.isEmpty then return ← misused "missing operand"
      Exec.pass ((options.operands.filterMap milliseconds).foldl (· + ·) 0)
      return 0

def trimmedPath (written : Text) : Text :=
  let trimmed := (written.reverse.dropWhile (· == '/')).reverse
  if trimmed.isEmpty && !written.isEmpty then ['/'] else trimmed

def basename (arguments : List Text) : Exec Nat :=
  withOptions [] [] arguments fun options => do
    match options.operands with
    | [] => misused "missing operand"
    | _ :: _ :: extra :: _ => misused ("extra operand " ++ quoted extra)
    | written :: more =>
      let trimmed := trimmedPath written
      let name := if trimmed = ['/'] then trimmed else lastPart trimmed
      let ending := more.headD []
      printLine (if Text.endsWith ending name && name ≠ ending then
        name.take (name.length - ending.length) else name)
      return 0

def dirname (arguments : List Text) : Exec Nat :=
  withOptions [] [] arguments fun options => do
    if options.operands.isEmpty then return ← misused "missing operand"
    forEach options.operands fun written => do
      let trimmed := trimmedPath written
      let front := trimmed.take (trimmed.length - (lastPart trimmed).length)
      printLine (if front.isEmpty then ['.'] else trimmedPath front)
      return 0

def pwd : Exec Nat := do
  printLine (← get).store.workingDirectory.toText
  return 0

end Tool

def tool? (name : Text) (arguments : List Text) : Option (Exec Nat) :=
  match String.ofList name with
  | "cat" => some (Tool.cat arguments)
  | "ls" => some (Tool.ls arguments)
  | "mkdir" => some (Tool.mkdir arguments)
  | "rmdir" => some (Tool.rmdir arguments)
  | "rm" => some (Tool.rm arguments)
  | "mv" => some (Tool.transfer true arguments)
  | "cp" => some (Tool.transfer false arguments)
  | "touch" => some (Tool.touch arguments)
  | "chmod" => some (Tool.chmod arguments)
  | "tr" => some (Tool.tr arguments)
  | "head" => some (Tool.printEnds true arguments)
  | "tail" => some (Tool.printEnds false arguments)
  | "wc" => some (Tool.wc arguments)
  | "sort" => some (Tool.sort arguments)
  | "uniq" => some (Tool.uniq arguments)
  | "cut" => some (Tool.cut arguments)
  | "tee" => some (Tool.tee arguments)
  | "yes" => some (Tool.yes arguments)
  | "seq" => some (Tool.seq arguments)
  | "sleep" => some (Tool.sleep arguments)
  | "basename" => some (Tool.basename arguments)
  | "dirname" => some (Tool.dirname arguments)
  | "true" => some (pure 0)
  | "false" => some (pure 1)
  | _ => none

end ShaderBridge.Script
