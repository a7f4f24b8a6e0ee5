import ShaderBridge.Script.Arithmetic
import ShaderBridge.Text.Utf8
set_option autoImplicit false

namespace ShaderBridge.Script

def octalDigits (most : Nat) (text : Text) : Option (Nat × Text) :=
  let digits := (text.take most).takeWhile fun char => '0' ≤ char && char ≤ '7'
  if digits.isEmpty then none
  else some (digits.foldl (fun value digit => value * 8 + (digit.toNat - 48)) 0,
    text.drop digits.length)

def escapeByte? (letter : Char) : Option UInt8 :=
  [('a', 7), ('b', 8), ('f', 12), ('n', 10), ('r', 13), ('t', 9), ('v', 11), ('\\', 92)].lookup
    letter

/-- The bytes of a text with escapes, and whether a stop escape was seen, when at most `bound`
characters are read. Octal codes stand behind a zero. -/
def escapedBytes : (bound : Nat) → Text → Bytes × Bool
  | 0, _ => ([], false)
  | _ + 1, [] => ([], false)
  | bound + 1, '\\' :: letter :: text =>
    if letter = 'c' then ([], true)
    else
      let (bytes, rest) := match letter, octalDigits 3 text, escapeByte? letter with
        | '0', some (code, rest), _ => ([UInt8.ofNat code], rest)
        | '0', none, _ => ([0], text)
        | _, _, some byte => ([byte], text)
        | letter, _, none => (Utf8.encode ['\\', letter], text)
      let (more, stopped) := escapedBytes bound rest
      (bytes ++ more, stopped)
  | bound + 1, char :: text =>
    let (more, stopped) := escapedBytes bound text
    (Utf8.encode [char] ++ more, stopped)

def echoed (arguments : List Text) : Bytes :=
  let (silent, words) := match arguments with
    | ['-', 'n'] :: words => (true, words)
    | words => (false, words)
  let text := Text.join " " words
  let (bytes, stopped) := escapedBytes (text.length + 1) text
  if silent || stopped then bytes else bytes ++ [10]

inductive Measure where
  | fixed (number : Nat)
  | taken
  deriving DecidableEq, Repr

structure Directive where
  left : Bool
  zeros : Bool
  sign : Bool
  gap : Bool
  marked : Bool
  width : Measure
  precision : Option Measure
  conversion : Char
  deriving DecidableEq, Repr

inductive FormatPiece where
  | bytes (bytes : Bytes)
  | directive (directive : Directive)
  /-- No piece that there is; nothing behind it is read. -/
  | bad (problem : Text)
  deriving DecidableEq, Repr

def readMeasure : Text → Measure × Text
  | '*' :: rest => (.taken, rest)
  | text => (.fixed (((String.ofList (text.takeWhile Char.isDigit)).toNat?).getD 0),
      text.dropWhile Char.isDigit)

def readDirective (text : Text) : Option (Directive × Text) :=
  let isFlag (char : Char) : Bool := char ∈ ['-', '0', '+', ' ', '#']
  let flags := text.takeWhile isFlag
  let (width, rest) := readMeasure (text.dropWhile isFlag)
  let (precision, rest) := match rest with
    | '.' :: rest =>
      let (precision, rest) := readMeasure rest
      (some precision, rest)
    | rest => (none, rest)
  match rest with
  | conversion :: rest =>
    some (⟨flags.contains '-', flags.contains '0', flags.contains '+', flags.contains ' ',
      flags.contains '#', width, precision, conversion⟩, rest)
  | [] => none

def conversions : List Char := ['s', 'b', 'c', 'd', 'i', 'o', 'u', 'x', 'X', 'f', 'F']

def formatPieces : (bound : Nat) → Text → List FormatPiece
  | 0, _ => []
  | _ + 1, [] => []
  | bound + 1, '%' :: '%' :: text => .bytes [37] :: formatPieces bound text
  | bound + 1, '%' :: text =>
    match readDirective text with
    | some (directive, rest) =>
      if conversions.contains directive.conversion then
        .directive directive :: formatPieces bound rest
      else
        let written := text.take (text.length - rest.length)
        [.bad ("%" ++ written ++ ": invalid directive")]
    | none => [.bad "missing format character"]
  | bound + 1, '\\' :: text =>
    match octalDigits 3 text, text with
    | some (code, rest), _ => .bytes [UInt8.ofNat code] :: formatPieces bound rest
    | none, letter :: rest =>
      match escapeByte? letter with
      | some byte => .bytes [byte] :: formatPieces bound rest
      | none => .bytes (Utf8.encode ['\\', letter]) :: formatPieces bound rest
    | none, [] => [.bytes [92]]
  | bound + 1, char :: text => .bytes (Utf8.encode [char]) :: formatPieces bound text

/-- The number that an argument begins with, a numeral with a sign or the code of a byte behind a
quote, and what is said about an argument that is not a number as a whole. -/
def argumentNumber (argument : Text) : Int × Option Text :=
  let trimmed := argument.dropWhile fun char => char ∈ [' ', '\t', '\n']
  match trimmed with
  | [] => (0, if argument.isEmpty then none else some (argument ++ ": expected numeric value"))
  | '\'' :: rest | '"' :: rest => ((((Utf8.encode rest).head?).getD 0).toNat, none)
  | sign :: digits =>
    let isSigned := sign = '-' || sign = '+'
    let digits := if isSigned then digits else sign :: digits
    let (value, rest) := readNumeral digits
    let number : Int := if sign = '-' then -value else value
    let most : Int := Int.pow 2 63 - 1
    if rest.length = digits.length then (0, some (argument ++ ": expected numeric value"))
    else if most < number || number < -most - 1 then
      (max (-most - 1) (min most number), some (argument ++ ": Numerical result out of range"))
    else if rest.isEmpty then (number, none)
    else (number, some (argument ++ ": not completely converted"))

def roundedRatio (above below : Nat) : Nat :=
  let whole := above / below
  let twice := 2 * (above % below)
  if twice < below || (twice = below && whole % 2 = 0) then whole else whole + 1

def scaledByTwo (above below : Nat) (power : Int) : Nat × Nat :=
  if 0 ≤ power then (above * Nat.pow 2 power.toNat, below)
  else (above, below * Nat.pow 2 (-power).toNat)

def keptFraction (above below : Nat) : Nat × Nat :=
  if above = 0 then (0, 1)
  else
    let guess : Int := 53 + below.log2 - above.log2
    let fits (power : Int) : Bool :=
      let (above, below) := scaledByTwo above below power
      Nat.pow 2 52 * below ≤ above && above < Nat.pow 2 53 * below
    let power := if fits guess then guess else guess - 1
    let (scaled, unit) := scaledByTwo above below power
    scaledByTwo (roundedRatio scaled unit) 1 (-power)

def argumentFraction (argument : Text) : Bool × (Nat × Nat) × Option Text :=
  let (negative, digits) := match argument with
    | '-' :: rest => (true, rest)
    | '+' :: rest => (false, rest)
    | rest => (false, rest)
  let whole := digits.takeWhile Char.isDigit
  let behind := digits.drop whole.length
  let (fraction, rest) := match behind with
    | '.' :: rest => (rest.takeWhile Char.isDigit, rest.dropWhile Char.isDigit)
    | rest => ([], rest)
  let number := (whole ++ fraction).foldl (fun value digit => value * 10 + (digit.toNat - 48)) 0
  let problem? : Option Text :=
    if argument.isEmpty then none
    else if whole.isEmpty && fraction.isEmpty then some (argument ++ ": expected numeric value")
    else if rest.isEmpty then none else some (argument ++ ": not completely converted")
  (negative, keptFraction number (Nat.pow 10 fraction.length), problem?)

structure Layout where
  left : Bool
  width : Nat
  precision : Option Nat
  deriving DecidableEq, Repr

/-- Bytes padded to a width; `signs` of them stand in front of padding zeros. -/
def padded (layout : Layout) (zeros : Bool) (signs : Nat) (bytes : Bytes) : Bytes :=
  let missing := layout.width - bytes.length
  if layout.left then bytes ++ List.replicate missing 32
  else if zeros then bytes.take signs ++ List.replicate missing 48 ++ bytes.drop signs
  else List.replicate missing 32 ++ bytes

/-- The sign and the digits of a number for a conversion. A negative number shows as a word of 64
bits where the conversion has no sign. -/
def numberDigits (directive : Directive) (precision : Option Nat) (value : Int) : Text × Text :=
  let word := (value % Int.pow 2 64).toNat
  let least (digits : Text) : Text :=
    let digits := if precision = some 0 && digits = ['0'] then [] else digits
    List.replicate (precision.getD 1 - digits.length) '0' ++ digits
  let mark (text : Text) : Text := if directive.marked && word ≠ 0 then text else []
  match directive.conversion with
  | 'x' => (mark "0x", least (Nat.toDigits 16 word))
  | 'X' => (mark "0X", (least (Nat.toDigits 16 word)).map Char.toUpper)
  | 'o' => ([], mark "0" ++ least (Nat.toDigits 8 word))
  | 'u' => ([], least (Nat.toDigits 10 word))
  | _ =>
    let sign : Text :=
      if value < 0 then ['-'] else if directive.sign then ['+'] else if directive.gap then [' ']
      else []
    (sign, least (Nat.toDigits 10 value.natAbs))

def fractionDigits (places : Nat) (fraction : Nat × Nat) : Text :=
  let digits := Nat.toDigits 10 (roundedRatio (fraction.1 * Nat.pow 10 places) fraction.2)
  let digits := List.replicate (places + 1 - digits.length) '0' ++ digits
  let whole := digits.take (digits.length - places)
  if places = 0 then whole else whole ++ ['.'] ++ digits.drop whole.length

def directiveBytes (directive : Directive) (layout : Layout) (argument : Text) :
    Bytes × Option Text :=
  let cut (bytes : Bytes) : Bytes :=
    match layout.precision with
    | some most => bytes.take most
    | none => bytes
  match directive.conversion with
  | 's' => (padded layout false 0 (cut (Utf8.encode argument)), none)
  | 'b' => (padded layout false 0 (cut (escapedBytes (argument.length + 1) argument).1), none)
  | 'c' => (padded layout false 0 [(Utf8.encode argument).headD 0], none)
  | 'f' | 'F' =>
    let (negative, fraction, problem?) := argumentFraction argument
    let sign : Text := if negative then ['-'] else if directive.sign then ['+'] else []
    let digits := fractionDigits (layout.precision.getD 6) fraction
    (padded layout directive.zeros sign.length (Utf8.encode (sign ++ digits)), problem?)
  | _ =>
    let (value, problem?) := argumentNumber argument
    let (sign, digits) := numberDigits directive layout.precision value
    let zeros := directive.zeros && layout.precision.isNone
    (padded layout zeros sign.length (Utf8.encode (sign ++ digits)), problem?)

structure Printed where
  bytes : Bytes := []
  complaints : List Text := []
  problem? : Option Text := none
  deriving DecidableEq, Repr

/-- The measure that is meant, and the arguments behind those that say it. -/
def Measure.read : Measure → List Text → Int × List Text
  | .fixed number, arguments => (number, arguments)
  | .taken, arguments => ((argumentNumber (arguments.headD [])).1, arguments.drop 1)

/-- What the pieces of a format print, and the arguments that are left. A stop escape in an argument
ends it all. -/
def formatOnce : List FormatPiece → List Text → Printed × List Text
  | [], arguments => ({}, arguments)
  | .bytes bytes :: pieces, arguments =>
    let (more, rest) := formatOnce pieces arguments
    ({ more with bytes := bytes ++ more.bytes }, rest)
  | .bad problem :: _, _ => ({ problem? := some problem }, [])
  | .directive directive :: pieces, arguments =>
    let (width, arguments) := directive.width.read arguments
    let (precision, arguments) : Option Int × List Text := match directive.precision with
      | some measure =>
        let (number, rest) := measure.read arguments
        (some number, rest)
      | none => (none, arguments)
    let layout : Layout :=
      ⟨directive.left || width < 0, width.natAbs,
        precision.bind fun number => if number < 0 then none else some number.toNat⟩
    let argument := arguments.headD []
    let (bytes, complaint?) := directiveBytes directive layout argument
    if directive.conversion = 'b' && (escapedBytes (argument.length + 1) argument).2 then
      ({ bytes := bytes }, [])
    else
      let (more, rest) := formatOnce pieces (arguments.drop 1)
      ({ more with
        bytes := bytes ++ more.bytes
        complaints := complaint?.toList ++ more.complaints }, rest)

/-- What a format prints, used again while arguments are left, at most `bound` times. -/
def formatFrom (pieces : List FormatPiece) : (bound : Nat) → List Text → Printed
  | 0, _ => {}
  | bound + 1, arguments =>
    let (printed, rest) := formatOnce pieces arguments
    if rest.isEmpty || rest.length = arguments.length then printed
    else
      let more := formatFrom pieces bound rest
      { more with
        bytes := printed.bytes ++ more.bytes
        complaints := printed.complaints ++ more.complaints }

def formatted (format : Text) (arguments : List Text) : Printed :=
  formatFrom (formatPieces (format.length + 1) format) (arguments.length + 1) arguments

end ShaderBridge.Script
