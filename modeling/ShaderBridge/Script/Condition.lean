import ShaderBridge.Script.Shell
import ShaderBridge.Text.Numeral
set_option autoImplicit false

/-! The conditions of the `test` command: tests of files, texts and numbers, joined by and, or, not
and parentheses. A word that could be an operator is an operand where the words around it leave no
other reading. -/

namespace ShaderBridge.Script

inductive ConditionProblem where
  | noArgument (operator : Text)
  | surplus (word : Text)
  | illegalNumber (word : Text)
  | openParenthesis
  deriving DecidableEq, Repr

def ConditionProblem.message : ConditionProblem → Text
  | .noArgument operator => operator ++ ": argument expected"
  | .surplus word => word ++ ": unexpected operator"
  | .illegalNumber word => "Illegal number: " ++ word
  | .openParenthesis => "closing paren expected"

namespace Condition

def unaryOperators : List Text :=
  ["-r", "-w", "-x", "-e", "-f", "-d", "-c", "-b", "-p", "-u", "-g", "-k", "-s", "-t", "-z", "-n",
    "-h", "-O", "-G", "-L", "-S"].map String.toList

def binaryOperators : List Text :=
  ["-nt", "-ot", "-ef", "=", "!=", "<", ">", "-eq", "-ne", "-ge", "-gt", "-le", "-lt"].map
    String.toList

inductive Role where
  | finished
  | operand (word : Text)
  | unary (operator : Text)
  | binary (operator : Text)
  | negation
  | conjunction
  | disjunction
  | opening
  | closing
  deriving DecidableEq, Repr

def roleAlone (word : Text) : Role :=
  if unaryOperators.contains word then .unary word
  else if binaryOperators.contains word then .binary word
  else
    match String.ofList word with
    | "!" => .negation
    | "-a" => .conjunction
    | "-o" => .disjunction
    | "(" => .opening
    | ")" => .closing
    | _ => .operand word

/-- Whether a word with an operator of one operand is an operand itself, given the words behind. -/
def isOperandBefore : List Text → Bool
  | [] => true
  | [_] => false
  | next :: _ :: _ => binaryOperators.contains next

def role : List Text → Role
  | [] => .finished
  | word :: rest =>
    match roleAlone word with
    | .unary operator => if isOperandBefore rest then .operand word else .unary operator
    | .opening => if rest.isEmpty then .operand word else .opening
    | other => other

def number (word : Text) : Except ConditionProblem Int :=
  match word.toInt? with
  | some value => .ok value
  | none => .error (.illegalNumber word)

abbrev Standing := Path → Bool

def unaryValue (store : FileStore) (isProgram : Standing) (operator word : Text) :
    Except ConditionProblem Bool :=
  let path := Path.ofText word
  let found? := if word.isEmpty then none else (store.entry path).toOption
  let program := !word.isEmpty && isProgram path
  match String.ofList operator with
  | "-n" => .ok !word.isEmpty
  | "-z" => .ok word.isEmpty
  | "-t" => (number word).map fun _ => false
  | "-e" | "-r" | "-w" => .ok (found?.isSome || program)
  | "-d" => .ok (found? == some .directory)
  | "-f" => .ok (found?.any (· != .directory) || program)
  | "-s" => .ok (program || match found? with
      | some (.file content _) => !content.isEmpty
      | some .directory => true
      | none => false)
  | "-x" => .ok (program || match found? with
      | some (.file _ executable) => executable
      | some .directory => true
      | none => false)
  | _ => .ok false

def binaryValue (store : FileStore) (operator left right : Text) :
    Except ConditionProblem Bool :=
  let numbers (compare : Int → Int → Bool) : Except ConditionProblem Bool := do
    return compare (← number left) (← number right)
  match String.ofList operator with
  | "=" => .ok (left == right)
  | "!=" => .ok (left != right)
  | "<" => .ok (String.ofList left < String.ofList right)
  | ">" => .ok (String.ofList right < String.ofList left)
  | "-eq" => numbers fun a b => a == b
  | "-ne" => numbers fun a b => a != b
  | "-lt" => numbers fun a b => a < b
  | "-le" => numbers fun a b => a ≤ b
  | "-gt" => numbers fun a b => a > b
  | "-ge" => numbers fun a b => a ≥ b
  | "-ef" => .ok ((store.locate (Path.ofText left)).toOption.any fun place =>
      (store.locate (Path.ofText right)).toOption == some place)
  | _ => .ok false

abbrev Reading := Except ConditionProblem (Bool × List Text)

variable (store : FileStore) (isProgram : Standing)

mutual

def disjunction : (bound : Nat) → Role → List Text → Reading
  | 0, _, words => .ok (false, words)
  | bound + 1, first, words => do
    let (left, words) ← conjunction bound first words
    if role (words.drop 1) = .disjunction then
      let words := words.drop 2
      let (right, words) ← disjunction bound (role words) words
      return (left || right, words)
    return (left, words)

def conjunction : (bound : Nat) → Role → List Text → Reading
  | 0, _, words => .ok (false, words)
  | bound + 1, first, words => do
    let (left, words) ← negation bound first words
    if role (words.drop 1) = .conjunction then
      let words := words.drop 2
      let (right, words) ← conjunction bound (role words) words
      return (left && right, words)
    return (left, words)

def negation : (bound : Nat) → Role → List Text → Reading
  | 0, _, words => .ok (false, words)
  | bound + 1, first, words =>
    if first = .negation then do
      let next := role (words.drop 1)
      let (value, words) ← negation bound next (if next = .finished then words else words.drop 1)
      return (!value, words)
    else primary bound first words

def primary : (bound : Nat) → Role → List Text → Reading
  | 0, _, words => .ok (false, words)
  | bound + 1, first, words => do
    match first with
    | .finished => return (false, words)
    | .opening =>
      let inside := words.drop 1
      if role inside = .closing then return (false, inside)
      let (value, words) ← disjunction bound (role inside) inside
      if role (words.drop 1) = .closing then return (value, words.drop 1)
      throw .openParenthesis
    | .unary operator =>
      match words.drop 1 with
      | [] => throw (.noArgument operator)
      | word :: rest => return (← unaryValue store isProgram operator word, word :: rest)
    | _ =>
      match words with
      | left :: operator :: rest =>
        match role (operator :: rest), rest with
        | .binary operator, [] => throw (.noArgument operator)
        | .binary operator, right :: rest =>
          return (← binaryValue store operator left right, right :: rest)
        | _, _ => return (!left.isEmpty, words)
      | [left] => return (!left.isEmpty, words)
      | [] => return (false, words)

end

/-- The value of a condition whose first word has a role. -/
def whole (first : Role) (words : List Text) : Except ConditionProblem Bool := do
  let (value, rest) ← disjunction store isProgram (6 * words.length + 6) first words
  match rest with
  | last :: _ :: _ => throw (.surplus last)
  | _ => return value

/-- The value of a condition. Three words with an operator in the middle compare; three or four
words can stand in parentheses or behind a negation. -/
def value : (words : List Text) → Except ConditionProblem Bool
  | [] => .ok false
  | words@(first :: rest) =>
    let isComparison := words.length = 3 && (rest.head?.any binaryOperators.contains)
    if isComparison then whole store isProgram (.operand first) words
    else if words.length = 3 || words.length = 4 then
      if first = ['('] && words.getLast? = some [')'] then
        let inside := rest.dropLast
        whole store isProgram (role inside) inside
      else if first = ['!'] then (value rest).map (!·)
      else whole store isProgram (role words) words
    else whole store isProgram (role words) words

end Condition
end ShaderBridge.Script
