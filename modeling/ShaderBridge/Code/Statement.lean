import ShaderBridge.Code.Bracket
set_option autoImplicit false

/-! The top-level statements of a function body. A statement ends at a semicolon at depth zero or
at the brace that brings the depth back to zero, unless a semicolon or a comma follows that brace:
a braced initializer belongs to its declaration. -/

namespace ShaderBridge
namespace Code

structure Statement where
  start : Nat
  stop : Nat
  text : Text
  deriving DecidableEq, Repr

structure OpenStatement where
  start : Nat
  reversed : Text

namespace OpenStatement

def push (char : Char) (current : OpenStatement) : OpenStatement :=
  { current with reversed := char :: current.reversed }

def close (stop : Nat) (current : OpenStatement) : Statement :=
  ⟨current.start, stop, (stripComments current.reversed.reverse).trim⟩

end OpenStatement

def continuesDeclaration (text : Text) : Bool :=
  match text.trimStart with
  | ';' :: _ | ',' :: _ => true
  | _ => false

def endsStatement (char : Char) (depth : Int) (text : Text) : Bool :=
  depth == 0 && (char == ';' || (char == '}' && !continuesDeclaration text))

def depthAfter (char : Char) (depth : Int) : Int :=
  if isOpener char then depth + 1 else if isCloser char then depth - 1 else depth

/-- The statements of a text at `offset`, of which the first `skip` characters belong to a comment.
What is left at the end is a statement if it holds more than comments and white space. -/
def statementsFrom : (skip : Nat) → (depth : Int) → (current : Option OpenStatement) →
    (offset : Nat) → Text → List Statement
  | _, _, none, _, [] => []
  | _, _, some current, offset, [] =>
    let last := current.close offset
    if last.text.isEmpty then [] else [last]
  | skip + 1, depth, current, offset, char :: text =>
    statementsFrom skip depth (current.map (·.push char)) (offset + 1) text
  | 0, depth, current, offset, char :: text =>
    match commentLength (char :: text) with
    | more + 1 => statementsFrom more depth (current.map (·.push char)) (offset + 1) text
    | 0 =>
      if current.isNone && isBlank char then statementsFrom 0 depth none (offset + 1) text
      else
        let grown := (current.getD ⟨offset, []⟩).push char
        let deep := depthAfter char depth
        if endsStatement char deep text then
          grown.close (offset + 1) :: statementsFrom 0 deep none (offset + 1) text
        else statementsFrom 0 deep (some grown) (offset + 1) text

def statements (body : Text) : List Statement := statementsFrom 0 0 none 0 body

end Code
end ShaderBridge
