import ShaderBridge.Text.Blank
import ShaderBridge.Text.DecimalDigit
set_option autoImplicit false

/-! Whole numbers in settings: white space around, one sign, and decimal digits of any script with
single low lines between them. A numeral of more than 4300 digits is refused. -/

namespace ShaderBridge

def maxNumeralDigits : Nat := 4300

inductive NumeralProblem where
  /-- The numeral to read has `digits` digits. -/
  | longInput (digits : Nat)
  /-- The number to write has too many digits. -/
  | longOutput
  deriving DecidableEq, Repr

def NumeralProblem.message : NumeralProblem → Text
  | .longInput digits =>
    "Exceeds the limit (4300 digits) for integer string conversion: value has "
      ++ Text.decimal digits
      ++ " digits; use sys.set_int_max_str_digits() to increase the limit"
  | .longOutput =>
    "Exceeds the limit (4300 digits) for integer string conversion; "
      ++ "use sys.set_int_max_str_digits() to increase the limit"

namespace Text

def readDigits (digits : Text) : Except NumeralProblem Nat :=
  if maxNumeralDigits < digits.length then .error (.longInput digits.length)
  else .ok (digitsValue digits)

def writeNumber (number : Int) : Except NumeralProblem Text :=
  if maxNumeralDigits < (decimal number.natAbs).length then .error .longOutput
  else .ok (ofInt number)

/-- White space around a numeral; the four ASCII separators U+001C to U+001F are not part of it. -/
def isNumeralBlank (char : Char) : Bool :=
  isBlank char && !(0x1C ≤ char.toNat && char.toNat ≤ 0x1F)

def numeralDigits? : Text → Option Text
  | [] => none
  | [digit] => if isDecimalDigit digit then some [digit] else none
  | digit :: '_' :: text =>
    if isDecimalDigit digit then (numeralDigits? text).map (digit :: ·) else none
  | digit :: text => if isDecimalDigit digit then (numeralDigits? text).map (digit :: ·) else none

def readNumeral? (text : Text) : Option (Except NumeralProblem Int) :=
  let body := ((text.dropWhile isNumeralBlank).reverse.dropWhile isNumeralBlank).reverse
  let (negative, digits) := match body with
    | '-' :: digits => (true, digits)
    | '+' :: digits => (false, digits)
    | digits => (false, digits)
  (numeralDigits? digits).map fun digits =>
    (readDigits digits).map fun value => if negative then -(value : Int) else value

def toInt? (text : Text) : Option Int := (readNumeral? text).bind Except.toOption

end Text
end ShaderBridge
