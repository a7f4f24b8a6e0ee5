import ShaderBridge.Code.Bracket
import ShaderBridge.Text.DecimalDigit
set_option autoImplicit false

/-! Vector constructors with one argument. A call such as `float3(x)` repeats a scalar and is
written out as `float3(x, x, x)`; a call whose argument is known to name a vector copies or
converts it and stays as it is. -/

namespace ShaderBridge
namespace Code

abbrev VectorTypes := List (Text × Nat)

def sign : Scan := Scan.optional (Scan.orElse (Scan.literal "+") (Scan.literal "-"))

def digits : Scan := Scan.oneOrMore isDecimalDigit

def mantissa : Scan :=
  Scan.orElse
    (digits >=> Scan.optional (Scan.literal ".") >=> Scan.zeroOrMore isDecimalDigit)
    (Scan.literal "." >=> digits)

def exponent : Scan := Scan.orElse (Scan.literal "e") (Scan.literal "E") >=> sign >=> digits

def literalSuffix : Scan
  | [] => none
  | char :: text => if ("fFhHlLuU" : Text).contains char then some text else none

def numericLiteral : Scan :=
  sign >=> mantissa >=> Scan.optional exponent >=> Scan.optional literalSuffix

def lastComponent (text : Text) : Text := text.afterLast '.'

def isAccessChain (text : Text) : Bool := (text.splitOn '.').all Scan.identifier.accepts

def isSwizzle (name : Text) : Bool :=
  2 ≤ name.length && name.length ≤ 4
    && (name.all (("xyzw" : Text).contains ·) || name.all (("rgba" : Text).contains ·))

/-- Whether an argument can be repeated without changing meaning or cost: a numeric literal, an
identifier, or a member access that does not end in a swizzle. -/
def isSimpleScalar (argument : Text) : Bool :=
  let argument := argument.trim
  numericLiteral.accepts argument
    || (isAccessChain argument && !(argument.contains '.' && isSwizzle (lastComponent argument)))

/-- Reads the name of a vector type and then with `scan`. Where several names fit, the longest
that `scan` can follow is taken; gives its component count and the rest. -/
def readVectorType (types : VectorTypes) (scan : Scan) (text : Text) : Option (Nat × Text) :=
  (types.foldl (fun best (name, size) =>
    match (Scan.literal name >=> scan) text with
    | none => best
    | some rest =>
      match best with
      | some (length, _) => if length < name.length then some (name.length, size, rest) else best
      | none => some (name.length, size, rest)) (none : Option (Nat × Nat × Text))).map Prod.snd

/-- A character that may not stand before the name of a vector type: a word character or the point
of a member access. -/
def joinsName (char : Char) : Bool := isWord char || char == '.'

/-- Declarations with a vector type: the type, white space, and a name that no parameter list
follows. -/
def vectorDeclaration (types : VectorTypes) : Pattern :=
  Scan.notAfter joinsName fun text =>
    (readVectorType types
      (Scan.someBlanks >=> Scan.identifier >=> Scan.notBefore (Scan.blanks >=> Scan.literal "("))
      text).map Prod.snd

/-- Names of variables, parameters and members that are declared with a vector type, in order of
declaration. -/
def declaredVectors (types : VectorTypes) (text : Text) : List Text :=
  ((vectorDeclaration types).occurrences text).map fun declaration =>
    (declaration.reverse.takeWhile isWord).reverse

def repeatedArgument? (vectors : List Text) (size : Nat) (text : Text) : Option (Text × Text) := do
  let close ← closer? ('(' :: text)
  match splitArguments (text.take (close - 1)) with
  | [argument] =>
    if 1 < size && isSimpleScalar argument && !vectors.contains (lastComponent argument) then
      some (argument, text.drop (close - 1))
    else none
  | _ => none

def expandedArguments (vectors : List Text) (size : Nat) (text : Text) : Option (Text × Text) :=
  (repeatedArgument? vectors size text).map fun (argument, closing) =>
    (Text.join ", " (List.replicate size argument), closing)

/-- Writes out the constructor calls of the text behind `before`. A call site uses up one opening
parenthesis, so `sites`, their number, bounds the calls that are found. -/
def expandFrom (types : VectorTypes) (vectors : List Text) : (sites : Nat) →
    (before : Option Char) → Text → Text
  | 0, _, text => text
  | sites + 1, before, text =>
    match nextCall types before text with
    | none => text
    | some (passed, size, rest) =>
      match expandedArguments vectors size rest with
      | some (arguments, closing) =>
        passed ++ expandFrom types vectors sites (some '(') (arguments ++ closing)
      | none => passed ++ expandFrom types vectors sites (some '(') rest
where
  /-- The first constructor call: the text up to and including its parenthesis, the component
  count of its type, and the rest. -/
  nextCall (types : VectorTypes) : (before : Option Char) → Text → Option (Text × Nat × Text)
    | _, [] => none
    | before, char :: text =>
      let here :=
        if before.any joinsName then none
        else readVectorType types (Scan.blanks >=> Scan.literal "(") (char :: text)
      match here with
      | some (size, rest) =>
        some ((char :: text).take (text.length + 1 - rest.length), size, rest)
      | none => (nextCall types (some char) text).map fun (passed, found) => (char :: passed, found)

/-- Writes out the constructor calls that repeat a simple scalar, nested ones included. -/
def expandVectorCalls (types : VectorTypes) (vectors : List Text) (text : Text) : Text :=
  expandFrom types vectors (text.count '(') none text

/-- The component counts of the calls that are written out, in order. A repeated argument holds no
parenthesis, so the calls behind it are the same however often it is repeated. -/
def expandedSizes (types : VectorTypes) (vectors : List Text) : (sites : Nat) →
    (before : Option Char) → Text → List Nat
  | 0, _, _ => []
  | sites + 1, before, text =>
    match expandFrom.nextCall types before text with
    | none => []
    | some (_, size, rest) =>
      match repeatedArgument? vectors size rest with
      | some (argument, closing) =>
        size :: expandedSizes types vectors sites (some '(') (argument ++ closing)
      | none => expandedSizes types vectors sites (some '(') rest

/-- Writes out the constructor calls, unless one of them has more components than a list can
hold. -/
def tryExpandVectorCalls (types : VectorTypes) (vectors : List Text) (text : Text) :
    Except CapacityProblem Text :=
  match (expandedSizes types vectors (text.count '(') none text).findSome?
      fun (size : Nat) => CapacityProblem.ofListLength? size with
  | some problem => .error problem
  | none => .ok (expandVectorCalls types vectors text)

end Code
end ShaderBridge
