import ShaderBridge.Module.Symbols
import ShaderBridge.Code.Statement
import ShaderBridge.Code.VectorCall
set_option autoImplicit false

/-! The value of a node body. A node body returns its color instead of writing it: the last write
of the output becomes a return of its first three components. -/

namespace ShaderBridge
namespace Export

open Code

/-- The first three components of a color. A constructor of four components with several arguments
drops the last one; anything else is swizzled. -/
def truncateToRgb (expression : Text) : Text :=
  let expression := expression.trim
  (constructed expression).getD
    (if isAccessChain expression then expression ++ ".xyz"
    else "(" ++ expression ++ ").xyz")
where
  /-- The arguments of a constructor that is the whole expression, without the last. -/
  constructed (expression : Text) : Option Text := do
    let name := Scan.orElse (Scan.literal "float4") (Scan.literal "half4")
    let inner ← (name >=> Scan.blanks >=> Scan.literal "(") expression
    let close ← closer? ('(' :: inner)
    if close = inner.length then
      match (splitArguments (inner.take (close - 1))).dropLast with
      | [] => none
      | [color] => some color
      | colors => some ("float3(" ++ Text.join ", " colors ++ ")")
    else none

def outputName : Scan := fun text =>
  outputNames.findSome? fun name => (Scan.literal name >=> Scan.wordEnd) text

/-- A statement that hands the output color on: a return of it, or an assignment of one of its
names to another. -/
def isWriteOut (statement : Text) : Bool :=
  let returned := Scan.literal "return" >=> Scan.someBlanks >=> outputName
  let assigned := outputName >=> Scan.blanks >=> Scan.literal "=" >=> Scan.blanks >=> outputName
  Scan.accepts (Scan.orElse returned assigned >=> Scan.blanks >=> Scan.literal ";") statement

def beforeSemicolon (text : Text) : Option Text :=
  match text.reverse with
  | ';' :: [] => none
  | ';' :: reversed => some reversed.reverse
  | _ => none

def assignedOutput (statement : Text) : Option Text := do
  let typeName := Scan.identifier >=> Scan.someBlanks
  let constant := Scan.literal "const" >=> Scan.someBlanks
  let target := outputName >=> Scan.blanks >=> Scan.literal "="
    >=> Scan.notBefore (Scan.literal "=")
  let value ← Scan.orElse (constant >=> typeName >=> target)
    (Scan.orElse (typeName >=> target) target) statement
  beforeSemicolon value

def returnedValue (statement : Text) : Option Text := do
  match ← Scan.literal "return" statement with
  | char :: value => if isBlank char then beforeSemicolon value else none
  | [] => none

def writtenName (writeOuts : List Statement) : Text :=
  let pattern := Scan.atWordStart outputName
  (writeOuts.findSome? fun statement => (pattern.occurrences statement.text).getLast?).getD
    outputVariable

/-- Turns the last write of the output color into a return. Statements at the end that only hand
the color on are dropped; if the last one before them assigns the color or returns a value, it
becomes the return, and otherwise a return of the color is put behind the body. -/
def writeAsReturn (body : Text) : Text :=
  let all := statements body
  let writeOuts := (all.reverse.takeWhile fun statement => isWriteOut statement.text).reverse
  let before := all.take (all.length - writeOuts.length)
  let value := do
    let last ← before.getLast?
    let value ← (assignedOutput last.text).orElse fun _ => returnedValue last.text
    if outputNames.contains value.trim then none else some (last.start, value)
  match value with
  | some (start, value) =>
    let stop := (all.getLast?.map Statement.stop).getD 0
    body.take start ++ "return " ++ truncateToRgb value ++ ";" ++ body.drop stop
  | none =>
    match writeOuts with
    | [] => body
    | first :: _ =>
      Text.trimEnd (body.take first.start) ++ "\nreturn " ++ truncateToRgb (writtenName writeOuts)
        ++ ";\n"

end Export
end ShaderBridge
