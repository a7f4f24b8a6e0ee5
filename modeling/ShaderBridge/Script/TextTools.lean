import ShaderBridge.Script.Tool
set_option autoImplicit false

namespace ShaderBridge.Script

namespace Tool

def byteLines (bytes : Bytes) : List Bytes :=
  bytes.foldr (fun byte lines =>
    match lines with
    | line :: rest => if byte = 10 then [10] :: line :: rest else (byte :: line) :: rest
    | [] => [[byte]]) []

def column (width number : Nat) : Text :=
  let digits := Text.decimal number
  List.replicate (width - digits.length) ' ' ++ digits

/-- Lines with their numbers; a line that only a line feed makes can be passed over. -/
def numbered (all : Bool) : (next : Nat) → List Bytes → List Bytes
  | _, [] => []
  | next, line :: lines =>
    if line = [10] && !all then line :: numbered all next lines
    else (Utf8.encode (column 6 next ++ ['\t']) ++ line) :: numbered all (next + 1) lines

def cat (arguments : List Text) : Exec Nat :=
  withOptions "AbeEnstTuv" [] arguments fun options => do
    let (bytes, status) ← (orInput options.operands).foldlM (fun (bytes, status) operand => do
      match ← content operand with
      | .ok more => return (bytes ++ more, status)
      | .error failure =>
        complain (shown operand ++ ": " ++ wording failure)
        return (bytes, 1)) (([], 0) : Bytes × Nat)
    let ends := options.has 'E' || options.has 'e' || options.has 'A'
    let lines := (byteLines bytes).map fun line =>
      if ends && line.getLast? = some 10 then line.dropLast ++ [36, 10] else line
    let counts := options.has 'n' || options.has 'b'
    Exec.emit 1 (if counts then (numbered (!options.has 'b') 1 lines).flatten
      else if ends then lines.flatten else bytes)
    return status

def readCount (text : Text) : Option (Option Char × Nat) := do
  let (sign?, text) := match text with
    | '-' :: rest => (some '-', rest)
    | '+' :: rest => (some '+', rest)
    | rest => (none, rest)
  let digits := text.takeWhile Char.isDigit
  let number ← (String.ofList digits).toNat?
  let factor ← match String.ofList (text.drop digits.length) with
    | "" => some 1
    | "b" => some 512
    | "k" | "K" => some 1024
    | "kB" | "KB" => some 1000
    | "M" => some (1024 * 1024)
    | "MB" => some (1000 * 1000)
    | _ => none
  return (sign?, number * factor)

def zeros : List Text := ["/dev/zero", "/dev/urandom"].map String.toList

def endPart {α : Type} (atStart : Bool) (sign? : Option Char) (count : Nat) (pieces : List α) :
    List α :=
  if atStart then
    if sign? = some '-' then pieces.take (pieces.length - count) else pieces.take count
  else if sign? = some '+' then pieces.drop (count - 1)
  else pieces.drop (pieces.length - count)

def printEnds (atStart : Bool) (arguments : List Text) : Exec Nat := do
  let arguments := match arguments with
    | (sign :: digit :: digits) :: rest =>
      if digit.isDigit && (sign = '-' || sign = '+' && !atStart) then
        let number := if sign = '+' then '+' :: digit :: digits else digit :: digits
        ['-', 'n'] :: number :: rest
      else arguments
    | _ => arguments
  withOptions "qvfz" "nc" arguments fun options => do
    let (inBytes, written) := match options.values.getLast? with
      | some ('c', written) => (true, written)
      | some (_, written) => (false, written)
      | none => (false, "10".toList)
    match readCount written with
    | none =>
      let unit : Text := if inBytes then "bytes" else "lines"
      failing ("invalid number of " ++ unit ++ ": " ++ quoted written)
    | some (sign?, count) =>
      let operands := orInput options.operands
      let titled := (1 < operands.length || options.has 'v') && !options.has 'q'
      let (_, status) ← operands.foldlM (fun (isFirst, status) operand => do
        let outcome ← if zeros.contains operand && atStart && inBytes then
            pure (.ok (List.replicate count 0)) else content operand
        let title : Text :=
          (if isFirst then [] else ['\n']) ++ "==> "
            ++ (if operand = ['-'] then "standard input".toList else operand) ++ " <==\n"
        let heading : Exec Unit := if titled then Exec.emit 1 (Utf8.encode title) else pure ()
        match outcome with
        | .ok bytes =>
          heading
          Exec.emit 1 (if inBytes then endPart atStart sign? count bytes
            else (endPart atStart sign? count (byteLines bytes)).flatten)
          return (false, status)
        | .error failure =>
          if failure = .isDirectory then heading
          complain (unread operand failure)
          return (isFirst && failure ≠ .isDirectory, 1)) (true, 0)
      return status

def isBlankByte (byte : UInt8) : Bool := byte = 32 || (9 ≤ byte && byte ≤ 13)

def wordCount (bytes : Bytes) : Nat :=
  (bytes.foldl (fun (inWord, count) byte =>
    if isBlankByte byte then (false, count)
    else (true, if inWord then count else count + 1)) ((false, 0) : Bool × Nat)).2

def wc (arguments : List Text) : Exec Nat :=
  withOptions "clmwL" [] arguments fun options => do
    let kinds := "lwmc".toList.filter fun kind =>
      if options.letters.isEmpty then kind ≠ 'm' else options.has kind
    let countsOf (bytes : Bytes) : List Nat := kinds.map fun kind =>
      match kind with
      | 'l' => bytes.count 10
      | 'w' => wordCount bytes
      | 'm' => (Utf8.decodeLenient bytes).length
      | _ => bytes.length
    let found ← (orInput options.operands).mapM fun operand => do
      return (operand, ← content operand)
    let known := found.map fun (_, outcome) => outcome.toOption.getD []
    let isOpen := found.any fun (operand, outcome) =>
      operand = ['-'] || match outcome with
        | .error failure => failure == .isDirectory
        | .ok _ => false
    let isSingle := kinds.length = 1 && found.length = 1
    let total := (known.map List.length).foldl (· + ·) 0
    let width := if isSingle then 1 else max (if isOpen then 7 else 1) (Text.decimal total).length
    let row (counts : List Nat) (name : Text) : Exec Unit :=
      printLine (Text.join " " (counts.map (column width)) ++ name)
    let status ← found.foldlM (fun status (operand, outcome) => do
      let name := if options.operands.isEmpty then [] else ' ' :: shown operand
      match outcome with
      | .ok bytes =>
        row (countsOf bytes) name
        return status
      | .error failure =>
        complain (shown operand ++ ": " ++ wording failure)
        if failure = .isDirectory then row (kinds.map fun _ => 0) name
        return 1) 0
    if 1 < found.length then
      let totals := known.foldl (fun totals bytes =>
        List.zipWith (· + ·) totals (countsOf bytes)) (kinds.map fun _ => 0)
      row totals " total"
    return status

abbrev SetChar := UInt8 × Bool

def setChars : (bound : Nat) → Text → List SetChar
  | 0, _ => []
  | _ + 1, [] => []
  | bound + 1, '\\' :: text =>
    match octalDigits 3 text, text with
    | some (code, rest), _ => (UInt8.ofNat code, true) :: setChars bound rest
    | none, letter :: rest =>
      let bytes := match escapeByte? letter with
        | some byte => [byte]
        | none => Utf8.encode [letter]
      bytes.map (·, true) ++ setChars bound rest
    | none, [] => [(92, true)]
  | bound + 1, char :: text => (Utf8.encode [char]).map (·, false) ++ setChars bound text

def byteRange (first last : UInt8) : Bytes :=
  (List.range (last.toNat + 1 - first.toNat)).map fun step => UInt8.ofNat (first.toNat + step)

def byteClass? (name : Text) : Option Bytes :=
  let range (first last : Char) : Bytes :=
    byteRange (UInt8.ofNat first.toNat) (UInt8.ofNat last.toNat)
  match String.ofList name with
  | "digit" => some (range '0' '9')
  | "upper" => some (range 'A' 'Z')
  | "lower" => some (range 'a' 'z')
  | "alpha" => some (range 'A' 'Z' ++ range 'a' 'z')
  | "alnum" => some (range '0' '9' ++ range 'A' 'Z' ++ range 'a' 'z')
  | "xdigit" => some (range '0' '9' ++ range 'A' 'F' ++ range 'a' 'f')
  | "blank" => some [9, 32]
  | "space" => some (byteRange 9 13 ++ [32])
  | "cntrl" => some (byteRange 0 31 ++ [127])
  | "graph" => some (byteRange 33 126)
  | "print" => some (byteRange 32 126)
  | "punct" => some (range '!' '/' ++ range ':' '@' ++ range '[' '\x60' ++ byteRange 123 126)
  | _ => none

def setBytes : (bound : Nat) → List SetChar → Except Text Bytes
  | 0, _ => .ok []
  | _ + 1, [] => .ok []
  | bound + 1, (first, isPlain) :: rest => do
    let name := (rest.drop 1).takeWhile fun char => char != (58, false)
    let behind := rest.drop (name.length + 1)
    if first = 91 && !isPlain && rest.head? = some (58, false)
        && behind.take 2 = [(58, false), (93, false)] then
      let name := Utf8.decodeLenient (name.map (·.1))
      match byteClass? name with
      | some bytes => return bytes ++ (← setBytes bound (behind.drop 2))
      | none => throw ("invalid character class " ++ quoted name)
    else
      match rest with
      | (45, false) :: (last, _) :: more =>
        if last < first then
          let written := Utf8.decodeLenient [first, 45, last]
          throw ("range-endpoints of " ++ quoted written
            ++ " are in reverse collating sequence order")
        return byteRange first last ++ (← setBytes bound more)
      | rest => return first :: (← setBytes bound rest)

def readSet (text : Text) : Except Text Bytes :=
  setBytes (text.length + 1) (setChars (text.length + 1) text)

def squeezed (set : Bytes) : (last? : Option UInt8) → Bytes → Bytes
  | _, [] => []
  | last?, byte :: bytes =>
    if last? = some byte && set.contains byte then squeezed set last? bytes
    else byte :: squeezed set (some byte) bytes

def translated (options : Options) (source target : Bytes) (input : Bytes) : Bytes :=
  let source := if options.has 'c' || options.has 'C' then
    (byteRange 0 255).filter fun byte => !source.contains byte else source
  let isDeleting := options.has 'd'
  let isTranslating := !isDeleting && 1 < options.operands.length
  let source := if options.has 't' && isTranslating then source.take target.length else source
  let padding := List.replicate (source.length - target.length) (target.getLast?.getD 0)
  let table := (source.zip (target ++ padding)).reverse
  let changed :=
    if isDeleting then input.filter fun byte => !source.contains byte
    else if isTranslating then input.map fun byte => (table.lookup byte).getD byte
    else input
  if options.has 's' then
    squeezed (if 1 < options.operands.length then target else source) none changed
  else changed

def tr (arguments : List Text) : Exec Nat :=
  withOptions "cCdst" [] arguments fun options => do
    let least := if options.has 'd' = options.has 's' then 2 else 1
    let most := if options.has 'd' && !options.has 's' then 1 else 2
    let help (message hint : Text) : Exec Nat := do
      complain message
      if !hint.isEmpty then Exec.complain hint
      Exec.complain ("Try '" ++ (← get).called ++ " --help' for more information.")
      return 1
    match options.operands with
    | [] => help "missing operand" []
    | operands@(first :: _) =>
      if operands.length < least then
        help ("missing operand after " ++ quoted first)
          (if options.has 'd' then
            "Two strings must be given when both deleting and squeezing repeats."
          else "Two strings must be given when translating.")
      else if most < operands.length then
        help ("extra operand " ++ quoted ((operands.drop most).headD []))
          (if most = 1 && operands.length = 2 then
            "Only one string may be given when deleting without squeezing repeats." else "")
      else
        match readSet first, readSet ((operands.drop 1).headD []) with
        | .error problem, _ | _, .error problem => failing problem
        | .ok source, .ok target =>
          if target.isEmpty && !source.isEmpty && 1 < operands.length && !options.has 'd'
              && !options.has 't' then
            failing "when not truncating set1, string2 must be non-empty"
          else
            Exec.emit 1 (translated options source target (← Exec.takeInput))
            return 0

def bareLines (bytes : Bytes) : List Bytes :=
  (byteLines bytes).map fun line => if line.getLast? = some 10 then line.dropLast else line

def bytesOrdered : Bytes → Bytes → Bool
  | [], _ => true
  | _ :: _, [] => false
  | first :: firsts, second :: seconds =>
    first < second || (first = second && bytesOrdered firsts seconds)

def lineNumber (line : Bytes) : Int :=
  let text := (Utf8.decodeLenient line).dropWhile fun char => char = ' ' || char = '\t'
  let (isNegative, digits) := match text with
    | '-' :: digits => (true, digits)
    | digits => (false, digits)
  let whole := digits.takeWhile Char.isDigit
  let fraction := match digits.drop whole.length with
    | '.' :: rest => rest.takeWhile Char.isDigit
    | _ => []
  let places := (fraction ++ List.replicate 6 '0').take 6
  let value : Nat :=
    (whole ++ places).foldl (fun value digit => value * 10 + (digit.toNat - 48)) 0
  if isNegative then -value else value

def sort (arguments : List Text) : Exec Nat :=
  withOptions "bfnrsu" "o" arguments fun options => do
    let (lines, status) ← (orInput options.operands).foldlM (fun (lines, status) operand => do
      match ← content operand with
      | .ok bytes => return (lines ++ bareLines bytes, status)
      | .error failure =>
        let problem : Text :=
          if failure = .isDirectory then "read failed: " else "cannot read: "
        complain (problem ++ shown operand ++ ": " ++ wording failure)
        return (lines, 2)) (([], 0) : List Bytes × Nat)
    if status ≠ 0 then return status
    let key (line : Bytes) : Bytes :=
      if options.has 'f' then line.map fun byte =>
        if 97 ≤ byte && byte ≤ 122 then byte - 32 else byte
      else line
    let same (first second : Bytes) : Bool :=
      if options.has 'n' then lineNumber first = lineNumber second else key first = key second
    let before (first second : Bytes) : Bool :=
      if same first second then options.has 'u' || options.has 's' || bytesOrdered first second
      else if options.has 'n' then lineNumber first ≤ lineNumber second
      else bytesOrdered (key first) (key second)
    let ordered := lines.mergeSort fun first second =>
      if options.has 'r' then before second first else before first second
    let kept := if !options.has 'u' then ordered
      else (ordered.foldl (fun kept line =>
        if kept.head?.any (same line) then kept else line :: kept) []).reverse
    Exec.emit 1 (kept.flatMap (· ++ [10]))
    return 0

def runsOf : List Bytes → List (Nat × Bytes)
  | [] => []
  | line :: lines =>
    match runsOf lines with
    | (count, next) :: more =>
      if line = next then (count + 1, line) :: more else (1, line) :: (count, next) :: more
    | [] => [(1, line)]

def uniq (arguments : List Text) : Exec Nat :=
  withOptions "cdu" [] arguments fun options => do
    let operand := options.operands.headD ['-']
    match ← content operand with
    | .error failure => failing (shown operand ++ ": " ++ wording failure)
    | .ok bytes =>
      (runsOf (bareLines bytes)).forM fun (count, line) => do
        let isKept := (count ≠ 1 || !options.has 'd') && (count = 1 || !options.has 'u')
        let heading := if options.has 'c' then column 7 count ++ [' '] else []
        if isKept then Exec.emit 1 (Utf8.encode heading ++ line ++ [10])
      return 0

def readPlaces (text : Text) : Option (Nat → Bool) := do
  let ranges ← (text.splitOn ',').mapM fun part => do
    let numbers := part.splitOn '-'
    let number (digits : Text) (default : Nat) : Option Nat :=
      if digits.isEmpty then some default else (String.ofList digits).toNat?
    match numbers with
    | [only] => do
      let only ← (String.ofList only).toNat?
      some (only, some only)
    | [first, last] => do
      let first ← number first 1
      if last.isEmpty then some (first, none)
      else some (first, ← (String.ofList last).toNat?)
    | _ => none
  return fun place => ranges.any fun (first, last?) =>
    first ≤ place && last?.all fun last => place ≤ last

/-- Prints parts of the lines of the input or of files. -/
def cut (arguments : List Text) : Exec Nat :=
  withOptions "ns" "bcdf" arguments fun options => do
    let places? := options.values.find? fun (letter, _) => letter ≠ 'd'
    match places? with
    | none => misused "you must specify a list of bytes, characters, or fields"
    | some (letter, written) =>
      match readPlaces written, (options.value? 'd').getD ['\t'] with
      | none, _ =>
        let kind : Text := if letter = 'f' then "field value" else "byte/character position"
        misused ("invalid " ++ kind ++ " " ++ quoted written)
      | some chosen, [delimiter] =>
        let mark := UInt8.ofNat delimiter.toNat
        let pick {α : Type} (parts : List α) : List α :=
          (parts.zipIdx 1).filterMap fun (part, place) =>
            if chosen place then some part else none
        let shorten (line : Bytes) : Option Bytes :=
          if letter ≠ 'f' then some (pick line)
          else if line.contains mark then some (List.intercalate [mark] (pick (line.splitOn mark)))
          else if options.has 's' then none else some line
        forEach (orInput options.operands) fun operand => do
          match ← content operand with
          | .error failure => failing (shown operand ++ ": " ++ wording failure)
          | .ok bytes =>
            Exec.emit 1 (((bareLines bytes).filterMap shorten).flatMap (· ++ [10]))
            return 0
      | some _, _ => misused "the delimiter must be a single character"

def tee (arguments : List Text) : Exec Nat :=
  withOptions "ai" [] arguments fun options => do
    let bytes ← Exec.takeInput
    Exec.emit 1 bytes
    forEach options.operands fun operand => do
      let path := Path.ofText operand
      let failure? ← Exec.change fun store =>
        let before := if options.has 'a' then (store.read path).toOption.getD [] else []
        store.write path (before ++ bytes)
      match failure? with
      | none => return 0
      | some failure => failing (shown operand ++ ": " ++ wording failure)

def endlessBytes : Nat := 1048576

/-- Prints a line again and again until nobody reads it any more. Where somebody always does, it
runs until it is stopped. -/
def yes (arguments : List Text) : Exec Nat := do
  let line := Utf8.encode
    (Text.join " " (if arguments.isEmpty then [['y']] else arguments) ++ ['\n'])
  match (← get).sinks.lookup 1 with
  | some (.buffer number) =>
    if number ≤ 2 then throw .outOfTime
    Exec.emit 1 (List.replicate (endlessBytes / line.length + 1) line).flatten
    return 141
  | _ => throw .outOfTime

end Tool
end ShaderBridge.Script
