import ShaderBridge.Text.Pattern
import ShaderBridge.Text.Numeral
set_option autoImplicit false

/-! Bounding of endless loops. A head `for(;;)` or `while (true)` becomes a `for` head that counts
a fresh variable up to a ceiling; the `while` of a `do` loop, which a semicolon follows, stays. -/

namespace ShaderBridge
namespace Code

/-- The number of iterations allowed to a loop that had no bound. -/
def iterationCeiling : Int := 10000

def endlessFor : Scan :=
  Scan.literal "for" >=> Scan.blanks >=> Scan.literal "(" >=> Scan.blanks >=> Scan.literal ";"
    >=> Scan.blanks >=> Scan.literal ";" >=> Scan.blanks >=> Scan.literal ")"

def endlessWhile : Scan :=
  Scan.literal "while" >=> Scan.blanks >=> Scan.literal "(" >=> Scan.blanks
    >=> Scan.orElse (Scan.literal "true") (Scan.literal "1") >=> Scan.blanks >=> Scan.literal ")"
    >=> Scan.notBefore (Scan.blanks >=> Scan.literal ";")

def endlessHead : Pattern := Scan.atWordStart (Scan.orElse endlessFor endlessWhile)

def counterStem : Text := "_loopIdx"

def counters : Pattern :=
  Scan.atWordStart (Scan.literal counterStem >=> Scan.oneOrMore isDecimalDigit >=> Scan.wordEnd)

def boundedHead (ceiling : Int) (counter : Nat) : Except NumeralProblem Text := do
  let name := counterStem ++ (← Text.writeNumber counter)
  return "for (int " ++ name ++ " = 0; " ++ name ++ " < " ++ (← Text.writeNumber ceiling) ++ "; "
    ++ name ++ "++)"

def boundPieces (ceiling : Int) : (counter : Nat) → List Piece → Except NumeralProblem Text
  | _, [] => .ok []
  | counter, .kept char :: pieces => (boundPieces ceiling counter pieces).map (char :: ·)
  | counter, .found _ :: pieces => do
    let head ← boundedHead ceiling counter
    return head ++ (← boundPieces ceiling (counter + 1) pieces)

def freeCounter (text : Text) : Except NumeralProblem Nat := do
  let numbers ← (counters.occurrences text).mapM fun name =>
    Text.readDigits (name.drop counterStem.length)
  return numbers.foldl (fun free number => max free (number + 1)) 0

def boundLoops (ceiling : Int) (text : Text) : Except NumeralProblem Text := do
  boundPieces ceiling (← freeCounter text) (endlessHead.pieces text)

end Code
end ShaderBridge
