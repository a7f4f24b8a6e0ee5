import ShaderBridge.Http.BodyForm
import ShaderBridge.Http.JsonValue
import ShaderBridge.Text.Numeral
set_option autoImplicit false

/-! Reading JSON. Besides the standard grammar three words for what is no finite number are read.
The form of the bytes is seen to first. Then reading goes from left to right, and the first problem
counts: the grammar is broken, a whole number has too many digits, or arrays and objects are nested
too deeply. -/

namespace ShaderBridge.Http

inductive JsonProblem where
  | illFormed
  | malformed
  | longInteger
  | deepNesting
  deriving DecidableEq, Repr

abbrev Reading (α : Type) := Except JsonProblem (α × RawText)

namespace JsonReader

def maxDepth : Nat := 966

def isJsonBlank (unit : TextUnit) : Bool :=
  unit == .char ' ' || unit == .char '\t' || unit == .char '\n' || unit == .char '\r'

def skipBlanks (source : RawText) : RawText := source.dropWhile isJsonBlank

def hexDigit? (char : Char) : Option Nat :=
  if char.isDigit then some (char.toNat - 48)
  else if 'a' ≤ char ∧ char ≤ 'f' then some (char.toNat - 87)
  else if 'A' ≤ char ∧ char ≤ 'F' then some (char.toNat - 55)
  else none

def hexCode? (a b c d : Char) : Option Nat := do
  return (((← hexDigit? a) * 16 + (← hexDigit? b)) * 16 + (← hexDigit? c)) * 16 + (← hexDigit? d)

def escaped? (letter : Char) : Option Char :=
  [('"', '"'), ('\\', '\\'), ('/', '/'), ('b', '\x08'), ('f', '\x0c'), ('n', '\n'), ('r', '\r'),
    ('t', '\t')].lookup letter

inductive StringPart where
  | unit (unit : TextUnit)
  | code (code : Nat)
  deriving DecidableEq, Repr

def parts : RawText → Reading (List StringPart)
  | .char '"' :: source => .ok ([], source)
  | .char '\\' :: .char 'u' :: .char a :: .char b :: .char c :: .char d :: source =>
    match hexCode? a b c d with
    | some code => (parts source).map fun (rest, source) => (.code code :: rest, source)
    | none => .error .malformed
  | .char '\\' :: .char letter :: source =>
    match escaped? letter with
    | some char => (parts source).map fun (rest, source) => (.unit (.char char) :: rest, source)
    | none => .error .malformed
  | .char char :: source =>
    if char = '\\' ∨ char.toNat < 0x20 then .error .malformed
    else (parts source).map fun (rest, source) => (.unit (.char char) :: rest, source)
  | .surrogate code :: source =>
    (parts source).map fun (rest, source) => (.unit (.surrogate code) :: rest, source)
  | [] => .error .malformed

/-- The string that parts make. Two codes in a row can be the halves of one character; a surrogate
that is no such half stays one. -/
def joinParts : List StringPart → RawText
  | [] => []
  | .unit unit :: rest => unit :: joinParts rest
  | .code high :: .code low :: rest =>
    match TextUnit.paired? high low with
    | some unit => unit :: joinParts rest
    | none => .ofCode high :: joinParts (.code low :: rest)
  | .code code :: rest => .ofCode code :: joinParts rest

def readString (source : RawText) : Reading RawText :=
  (parts source).map fun (written, source) => (joinParts written, source)

def spanDigits : RawText → Text × RawText
  | .char char :: source =>
    if char.isDigit then
      let (digits, rest) := spanDigits source
      (char :: digits, rest)
    else ([], .char char :: source)
  | source => ([], source)

def readFraction : RawText → Text × RawText
  | .char '.' :: source =>
    let (digits, rest) := spanDigits source
    if digits.isEmpty then ([], .char '.' :: source) else (digits, rest)
  | source => ([], source)

def readExponent (source : RawText) : Option Int × RawText :=
  match source with
  | mark :: rest =>
    if mark = .char 'e' ∨ mark = .char 'E' then
      let (negative, rest) := match rest with
        | .char '-' :: rest => (true, rest)
        | .char '+' :: rest => (false, rest)
        | rest => (false, rest)
      let (digits, rest) := spanDigits rest
      if digits.isEmpty then (none, source)
      else
        let value : Int := Text.digitsValue digits
        (some (if negative then -value else value), rest)
    else (none, source)
  | [] => (none, [])

def readUnsigned (negative : Bool) (source : RawText) : Reading JsonValue :=
  let (digits, rest) := match source with
    | .char '0' :: rest => (['0'], rest)
    | _ => spanDigits source
  if digits.isEmpty then .error .malformed
  else
    let (fraction, rest) := readFraction rest
    let (exponent?, rest) := readExponent rest
    let signed (magnitude : Nat) : Int := if negative then -(magnitude : Int) else magnitude
    if fraction.isEmpty && exponent?.isNone then
      if maxNumeralDigits < digits.length then .error .longInteger
      else .ok (.integer (signed (Text.digitsValue digits)), rest)
    else
      .ok (.decimal ⟨signed (Text.digitsValue (digits ++ fraction)),
        exponent?.getD 0 - fraction.length⟩, rest)

def jsonWords : List (Text × JsonValue) :=
  [("null".toList, .null), ("true".toList, .boolean true), ("false".toList, .boolean false),
    ("NaN".toList, .notFinite), ("Infinity".toList, .notFinite), ("-Infinity".toList, .notFinite)]

def readScalar (source : RawText) : Reading JsonValue :=
  match jsonWords.find? fun (word, _) => source.startsWith word with
  | some (word, value) => .ok (value, source.drop word.length)
  | none =>
    match source with
    | .char '-' :: rest => readUnsigned true rest
    | _ => readUnsigned false source

def readItems (value : RawText → Reading JsonValue) : Nat → RawText →
    Except JsonProblem (List JsonValue × RawText)
  | 0, _ => .error .malformed
  | bound + 1, source => do
    let (item, source) ← value (skipBlanks source)
    match skipBlanks source with
    | .char ',' :: source =>
      let (items, source) ← readItems value bound source
      return (item :: items, source)
    | .char ']' :: source => return ([item], source)
    | _ => throw .malformed

def readFields (value : RawText → Reading JsonValue) : Nat → RawText →
    Except JsonProblem (List (RawText × JsonValue) × RawText)
  | 0, _ => .error .malformed
  | bound + 1, source => do
    match skipBlanks source with
    | .char '"' :: source =>
      let (name, source) ← readString source
      match skipBlanks source with
      | .char ':' :: source =>
        let (content, source) ← value (skipBlanks source)
        match skipBlanks source with
        | .char ',' :: source =>
          let (fields, source) ← readFields value bound source
          return ((name, content) :: fields, source)
        | .char '}' :: source => return ([(name, content)], source)
        | _ => throw .malformed
      | _ => throw .malformed
    | _ => throw .malformed

def readValue : (depth : Nat) → RawText → Except JsonProblem (JsonValue × RawText)
  | _, .char '"' :: source => (readString source).map fun (content, source) =>
      (.string content, source)
  | 0, .char '[' :: _ => .error .deepNesting
  | 0, .char '{' :: _ => .error .deepNesting
  | depth + 1, .char '[' :: source =>
    match skipBlanks source with
    | .char ']' :: source => .ok (.array [], source)
    | source => (readItems (readValue depth) source.length source).map fun (items, source) =>
        (.array items, source)
  | depth + 1, .char '{' :: source =>
    match skipBlanks source with
    | .char '}' :: source => .ok (.object [], source)
    | source => (readFields (readValue depth) source.length source).map fun (fields, source) =>
        (.ofFieldList fields, source)
  | _, source => readScalar source

end JsonReader

def readJson (bytes : Bytes) : Except JsonProblem JsonValue := do
  match decodeBody bytes with
  | none => throw .illFormed
  | some source =>
    let (value, rest) ← JsonReader.readValue JsonReader.maxDepth (JsonReader.skipBlanks source)
    if (JsonReader.skipBlanks rest).isEmpty then return value else throw .malformed

end ShaderBridge.Http
