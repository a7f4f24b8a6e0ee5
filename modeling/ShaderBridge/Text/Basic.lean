set_option autoImplicit false

/-! Text is a list of Unicode characters, so every offset and length in this library counts
characters. This module holds reading a literal off the front, searching for a fixed text,
joining, and the decimal writing of numbers. -/

namespace ShaderBridge

abbrev Text := List Char

instance : Coe String Text := ⟨String.toList⟩

namespace Text

/-! A property of the characters of a text is decided along the text. The priorities keep this
ahead of a search through all of Unicode. -/

instance (priority := 1100) decidableForallMem (text : Text) (holds : Char → Prop)
    [DecidablePred holds] : Decidable (∀ char ∈ text, holds char) :=
  List.decidableBAll holds text

instance (priority := 1100) decidableExistsMem (text : Text) (holds : Char → Prop)
    [DecidablePred holds] : Decidable (∃ char ∈ text, holds char) :=
  List.decidableBEx holds text

def after? : (literal text : Text) → Option Text
  | [], text => some text
  | _ :: _, [] => none
  | expected :: literal, char :: text => if expected = char then after? literal text else none

theorem after?_eq_some_iff {literal text rest : Text} :
    after? literal text = some rest ↔ text = literal ++ rest := by
  induction literal generalizing text with
  | nil => simp [after?]
  | cons expected literal ih =>
    cases text with
    | nil => simp [after?]
    | cons char text => by_cases same : expected = char <;> simp [after?, same, ih, eq_comm]

def startsWith (literal text : Text) : Bool := (after? literal text).isSome

def endsWith (literal text : Text) : Bool := startsWith literal.reverse text.reverse

def breakOn? (needle : Text) : Text → Option (Text × Text)
  | [] => if needle.isEmpty then some ([], []) else none
  | char :: text =>
    match after? needle (char :: text) with
    | some rest => some ([], rest)
    | none => (breakOn? needle text).map fun (before, rest) => (char :: before, rest)

theorem breakOn?_eq_append {needle text before rest : Text}
    (found : breakOn? needle text = some (before, rest)) : text = before ++ needle ++ rest := by
  induction text generalizing before with
  | nil =>
    simp only [breakOn?] at found
    split at found <;> simp_all
  | cons char text ih =>
    simp only [breakOn?] at found
    split at found
    · next here => simp at found; simp [← found.1, ← found.2, after?_eq_some_iff.1 here]
    · obtain ⟨⟨inner, tail⟩, broken, same⟩ := Option.map_eq_some_iff.1 found
      obtain ⟨rfl, rfl⟩ := Prod.mk.inj same
      simp [ih broken]

def afterLast (mark : Char) (text : Text) : Text :=
  (text.reverse.takeWhile (· != mark)).reverse

def join (separator : Text) (parts : List Text) : Text := List.intercalate separator parts

def decimal (number : Nat) : Text := Nat.toDigits 10 number

def ofInt : Int → Text
  | .ofNat number => decimal number
  | .negSucc number => '-' :: decimal (number + 1)

def toLowerAscii (text : Text) : Text := text.map Char.toLower

end Text
end ShaderBridge
