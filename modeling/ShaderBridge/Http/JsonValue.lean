import ShaderBridge.Text.Raw
set_option autoImplicit false

/-! JSON values. A number with a fraction or an exponent is kept exactly as it was written; where it
is used, the double that is nearest to it counts. -/

namespace ShaderBridge.Http

structure Decimal where
  mantissa : Int
  exponent : Int
  deriving DecidableEq, Repr

namespace Decimal

def compareMagnitude (number : Decimal) (numerator denominator : Nat) : Ordering :=
  let scaled := number.mantissa.natAbs * denominator
  if 0 ≤ number.exponent then compare (scaled * Nat.pow 10 number.exponent.toNat) numerator
  else compare scaled (numerator * Nat.pow 10 number.exponent.natAbs)

inductive Nearest where
  | zero
  | one
  | infinite
  | other
  deriving DecidableEq, Repr

def rangeDigits : Int := 400

/-- The double nearest to a decimal. Half of the least positive double still goes to zero, the
greatest double and half of its last place go to infinity, and one is nearest to all that is not
farther from it than half of the way to its neighbours `1 - 2 ^ (-53)` and `1 + 2 ^ (-52)`. -/
def nearest (number : Decimal) : Nearest :=
  let digits := (Text.decimal number.mantissa.natAbs).length + number.exponent
  if number.mantissa = 0 ∨ digits < -rangeDigits then .zero
  else if rangeDigits < digits then .infinite
  else if number.compareMagnitude 1 (Nat.pow 2 1075) != .gt then .zero
  else if number.compareMagnitude (Nat.pow 2 1024 - Nat.pow 2 970) 1 != .lt then .infinite
  else if 0 < number.mantissa && number.compareMagnitude (Nat.pow 2 54 - 1) (Nat.pow 2 54) != .lt
      && number.compareMagnitude (Nat.pow 2 53 + 1) (Nat.pow 2 53) != .gt then .one
  else .other

end Decimal

inductive JsonValue where
  | null
  | boolean (value : Bool)
  | integer (value : Int)
  | decimal (value : Decimal)
  /-- One of the words for what is no number or no finite one. -/
  | notFinite
  | string (content : RawText)
  | array (items : List JsonValue)
  | object (fields : List (RawText × JsonValue))
  deriving Repr

namespace JsonValue

def privateOpening : Text := "_sa"

mutual

def isWritable : JsonValue → Bool
  | .decimal value => value.nearest != .infinite
  | .notFinite => false
  | .string content => content.toText?.isSome
  | .array items => areWritable items
  | .object fields => fieldsAreWritable fields
  | .null | .boolean _ | .integer _ => true

def areWritable : List JsonValue → Bool
  | [] => true
  | item :: items => item.isWritable && areWritable items

def fieldsAreWritable : List (RawText × JsonValue) → Bool
  | [] => true
  | (name, value) :: fields =>
    (name.startsWith privateOpening || (name.toText?.isSome && value.isWritable))
      && fieldsAreWritable fields

end

def text (content : Text) : JsonValue := .string (.ofText content)

/-- The object that fields make when they are set one after the other: a name keeps its first place
and its last value. -/
def ofFieldList (fields : List (RawText × JsonValue)) : JsonValue :=
  .object (fields.foldl (fun table (name, value) => put name value table) [])
where
  /-- The fields after one of them is set. -/
  put (name : RawText) (value : JsonValue) :
      List (RawText × JsonValue) → List (RawText × JsonValue)
    | [] => [(name, value)]
    | (other, old) :: fields =>
      if other = name then (name, value) :: fields else (other, old) :: put name value fields

def ofOption {α : Type} (value : α → JsonValue) : Option α → JsonValue
  | some content => value content
  | none => null

end JsonValue
end ShaderBridge.Http
