import ShaderBridge.Script.Lexer
set_option autoImplicit false

/-! Whole-number expressions of scripts, with words of 64 bits and their sign. Operators bind as in
C; an expression can set variables. -/

namespace ShaderBridge.Script

inductive MathToken where
  | number (value : Int)
  | name (name : Text)
  | symbol (text : Text)
  /-- A character that belongs to no expression. -/
  | stray (char : Char)
  deriving DecidableEq, Repr

inductive MathProblem where
  /-- Something else should stand where reading stopped. -/
  | expecting (wanted : Text)
  | divisionByZero
  /-- A variable holds a text that is no number. -/
  | illegalNumber (value : Text)
  deriving DecidableEq, Repr

def MathProblem.message (expression : Text) : MathProblem → Text
  | .expecting wanted =>
    "arithmetic expression: expecting " ++ wanted ++ ": \"" ++ expression ++ "\""
  | .divisionByZero => "arithmetic expression: division by zero: \"" ++ expression ++ "\""
  | .illegalNumber value => "Illegal number: " ++ value

def mathSymbols : List Text :=
  ["<<=", ">>=", "<<", ">>", "<=", ">=", "==", "!=", "&&", "||", "+=", "-=", "*=", "/=", "%=", "&=",
    "|=", "^=", "+", "-", "*", "/", "%", "<", ">", "(", ")", "!", "~", "&", "|", "^", "?", ":",
    "="].map String.toList

def digitIn? (base : Nat) (digit : Char) : Option Nat :=
  let place := if digit.isDigit then digit.toNat - 48
    else if 'a' ≤ digit.toLower ∧ digit.toLower ≤ 'z' then digit.toLower.toNat - 87 else base
  if place < base then some place else none

def readNumeral (text : Text) : Nat × Text :=
  let span (base : Nat) (text : Text) : Nat × Text :=
    let digits := text.takeWhile fun char => (digitIn? base char).isSome
    (digits.foldl (fun value digit => value * base + (digitIn? base digit).getD 0) 0,
      text.drop digits.length)
  let behindMark : Option Text := match text with
    | '0' :: 'x' :: rest | '0' :: 'X' :: rest =>
      if rest.head?.any fun char => (digitIn? 16 char).isSome then some rest else none
    | _ => none
  match behindMark, text with
  | some rest, _ => span 16 rest
  | none, '0' :: _ => span 8 text
  | none, _ => span 10 text

def mathNumeral (text : Text) : Option Int :=
  let (value, rest) := readNumeral text
  if text.head?.any Char.isDigit && rest.isEmpty then some value else none

def wrapped (value : Int) : Int := (value + Int.pow 2 63) % Int.pow 2 64 - Int.pow 2 63

def mathTokens : (bound : Nat) → Text → List MathToken
  | _, [] => []
  | 0, _ => []
  | bound + 1, char :: text =>
    if char = ' ' ∨ char = '\t' ∨ char = '\n' then mathTokens bound text
    else if char.isDigit then
      let (value, rest) := readNumeral (char :: text)
      .number (min value (Int.pow 2 63 - 1)) :: mathTokens bound rest
    else if isNameChar char then
      .name (char :: text.takeWhile isNameChar) :: mathTokens bound (text.dropWhile isNameChar)
    else
      match firstOf mathSymbols (char :: text) with
      | some (symbol, rest) => .symbol symbol :: mathTokens bound rest
      | none => .stray char :: mathTokens bound text

def ofTruth (truth : Bool) : Int := if truth then 1 else 0

def joinBits (join : Nat → Nat → Nat) (left right : Int) : Int :=
  let word (value : Int) : Nat := (value % Int.pow 2 64).toNat
  wrapped (join (word left) (word right))

def binaryValue (symbol : Text) (left right : Int) : Except MathProblem Int :=
  match String.ofList symbol with
  | "+" => .ok (wrapped (left + right))
  | "-" => .ok (wrapped (left - right))
  | "*" => .ok (wrapped (left * right))
  | "/" => if right = 0 then .error .divisionByZero else .ok (wrapped (Int.tdiv left right))
  | "%" => if right = 0 then .error .divisionByZero else .ok (Int.tmod left right)
  | "<<" => .ok (wrapped (left * Int.pow 2 (right % 64).toNat))
  | ">>" => .ok (left / Int.pow 2 (right % 64).toNat)
  | "<" => .ok (ofTruth (left < right))
  | "<=" => .ok (ofTruth (left ≤ right))
  | ">" => .ok (ofTruth (left > right))
  | ">=" => .ok (ofTruth (left ≥ right))
  | "==" => .ok (ofTruth (left == right))
  | "!=" => .ok (ofTruth (left != right))
  | "&" => .ok (joinBits Nat.land left right)
  | "^" => .ok (joinBits Nat.xor left right)
  | _ => .ok (joinBits Nat.lor left right)

def binaryStrength (symbol : Text) : Option Nat :=
  let levels : List (List String) :=
    [["|"], ["^"], ["&"], ["==", "!="], ["<", "<=", ">", ">="], ["<<", ">>"], ["+", "-"],
      ["*", "/", "%"]]
  levels.findIdx? fun level => level.contains (String.ofList symbol)

/-- The operation in front of an equals sign that sets a variable, empty for the sign alone. -/
def settingOperation? (symbol : Text) : Option Text :=
  if ["=", "+=", "-=", "*=", "/=", "%=", "<<=", ">>=", "&=", "^=", "|="].contains
      (String.ofList symbol)
  then some symbol.dropLast else none

structure MathState where
  tokens : List MathToken
  settings : List (Text × Int) := []

abbrev Math := StateT MathState (Except MathProblem)

namespace Math

variable (valueOf? : Text → Option Text)

def lookup (name : Text) : Math Int := do
  match (← get).settings.lookup name with
  | some value => return value
  | none =>
    let isGap (char : Char) : Bool := char ∈ [' ', '\t', '\n']
    let text := (valueOf? name).getD []
    let trimmed := ((text.dropWhile isGap).reverse.dropWhile isGap).reverse
    if trimmed.isEmpty then return 0
    let number? := match trimmed with
      | '-' :: digits => (mathNumeral digits).map (- ·)
      | '+' :: digits => mathNumeral digits
      | digits => mathNumeral digits
    match number? with
    | some number => return number
    | none => throw (.illegalNumber text)

def record (name : Text) (value : Int) : Math Int := do
  modify fun state => { state with settings := (name, value) :: state.settings }
  return value

def take (symbol : Text) : Math Bool := do
  match (← get).tokens with
  | .symbol found :: rest =>
    if found = symbol then modify fun state => { state with tokens := rest }
    return found = symbol
  | _ => return false

def expect (symbol : Text) : Math Unit := do
  if !(← take symbol) then throw (.expecting ("'" ++ symbol ++ "'"))

mutual

/-- An operand. Without `live` nothing is looked up or set. -/
def operand : (bound : Nat) → (live : Bool) → Math Int
  | 0, _ => throw (.expecting "primary")
  | bound + 1, live => do
    let state ← get
    let rest := state.tokens.drop 1
    match state.tokens with
    | .number value :: _ =>
      set { state with tokens := rest }
      return value
    | .name name :: _ =>
      set { state with tokens := rest }
      if live then lookup valueOf? name else return 0
    | .symbol symbol :: _ =>
      set { state with tokens := rest }
      match symbol with
      | ['('] =>
        let value ← setting bound live
        expect ")"
        return value
      | ['-'] => return wrapped (-(← operand bound live))
      | ['+'] => operand bound live
      | ['!'] => return ofTruth ((← operand bound live) == 0)
      | ['~'] => return -(← operand bound live) - 1
      | _ => throw (.expecting "primary")
    | _ => throw (.expecting "primary")

/-- Operands joined by operators that bind at least as strongly as `least`. -/
def joined : (bound least : Nat) → (live : Bool) → Math Int
  | 0, _, _ => throw (.expecting "primary")
  | bound + 1, least, live => do joinedFrom bound least live (← operand bound live)

def joinedFrom : (bound least : Nat) → (live : Bool) → (left : Int) → Math Int
  | 0, _, _, left => return left
  | bound + 1, least, live, left => do
    match (← get).tokens with
    | .symbol symbol :: rest =>
      match binaryStrength symbol with
      | none => return left
      | some strength =>
        if strength < least then return left
        modify fun state => { state with tokens := rest }
        let right ← joined bound (strength + 1) live
        let value ← if live then liftM (binaryValue symbol left right) else pure 0
        joinedFrom bound least live value
    | _ => return left

def conjunction : (bound : Nat) → (live : Bool) → Math Int
  | 0, _ => throw (.expecting "primary")
  | bound + 1, live => do
    let left ← joined bound 0 live
    if !(← take "&&") then return left
    let right ← conjunction bound (live && left != 0)
    return ofTruth (left != 0 && right != 0)

def disjunction : (bound : Nat) → (live : Bool) → Math Int
  | 0, _ => throw (.expecting "primary")
  | bound + 1, live => do
    let left ← conjunction bound live
    if !(← take "||") then return left
    let right ← disjunction bound (live && left == 0)
    return ofTruth (left != 0 || right != 0)

def choice : (bound : Nat) → (live : Bool) → Math Int
  | 0, _ => throw (.expecting "primary")
  | bound + 1, live => do
    let condition ← disjunction bound live
    if !(← take "?") then return condition
    let yes ← setting bound (live && condition != 0)
    expect ":"
    let no ← choice bound (live && condition == 0)
    return if condition != 0 then yes else no

def setting : (bound : Nat) → (live : Bool) → Math Int
  | 0, _ => throw (.expecting "primary")
  | bound + 1, live => do
    match (← get).tokens with
    | .name name :: .symbol symbol :: rest =>
      match settingOperation? symbol with
      | none => choice bound live
      | some operator =>
        modify fun state => { state with tokens := rest }
        let value ← setting bound live
        if !live then return value
        if operator.isEmpty then record name value
        else record name (← binaryValue operator (← lookup valueOf? name) value)
    | _ => choice bound live

end

end Math

def evaluate (valueOf? : Text → Option Text) (text : Text) :
    Except MathProblem (Int × List (Text × Int)) := do
  let tokens := mathTokens (text.length + 1) text
  if tokens.isEmpty then return (0, [])
  let (value, state) ← (Math.setting valueOf? (12 * tokens.length + 12) true).run ⟨tokens, []⟩
  if state.tokens.isEmpty then return (value, state.settings.reverse)
  else throw (.expecting "EOF")

end ShaderBridge.Script
