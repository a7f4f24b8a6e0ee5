import ShaderBridge.Text.Basic
set_option autoImplicit false

namespace ShaderBridge

structure Moment where
  year : Nat
  month : Nat
  day : Nat
  hour : Nat
  minute : Nat
  second : Nat
  deriving DecidableEq, Repr

namespace Moment

def padded (width number : Nat) : Text :=
  let digits := Text.decimal number
  List.replicate (width - digits.length) '0' ++ digits

def toText (moment : Moment) : Text :=
  padded 4 moment.year ++ "-" ++ padded 2 moment.month ++ "-" ++ padded 2 moment.day ++ " "
    ++ padded 2 moment.hour ++ ":" ++ padded 2 moment.minute ++ ":" ++ padded 2 moment.second
    ++ " UTC"

def isLeap (year : Nat) : Bool := year % 4 = 0 && (year % 100 != 0 || year % 400 = 0)

def monthLengths (year : Nat) : List Nat :=
  [31, if isLeap year then 29 else 28, 31, 30, 31, 30, 31, 31, 30, 31, 30, 31]

def inMonth (month : Nat) : (lengths : List Nat) → (day : Nat) → Nat × Nat
  | [], day => (month, day + 1)
  | length :: lengths, day =>
    if day < length then (month, day + 1) else inMonth (month + 1) lengths (day - length)

def inYear (year : Nat) : (bound day : Nat) → Nat × Nat
  | 0, day => (year, day)
  | bound + 1, day =>
    let length := if isLeap year then 366 else 365
    if day < length then (year, day) else inYear (year + 1) bound (day - length)

def ofSeconds (seconds : Nat) : Moment :=
  let days := seconds / 86400
  let (year, dayOfYear) := inYear 1970 (days / 365) days
  let (month, day) := inMonth 1 (monthLengths year) dayOfYear
  ⟨year, month, day, seconds / 3600 % 24, seconds / 60 % 60, seconds % 60⟩

example : ofSeconds 951782400 = ⟨2000, 2, 29, 0, 0, 0⟩ := by decide

end Moment
end ShaderBridge
