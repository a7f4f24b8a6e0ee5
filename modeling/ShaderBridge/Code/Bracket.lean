import ShaderBridge.Capacity
import ShaderBridge.Code.Comment
set_option autoImplicit false

/-! Brackets. One depth counts brackets of all three kinds; comments are skipped. -/

namespace ShaderBridge
namespace Code

def isOpener (char : Char) : Bool := char == '(' || char == '[' || char == '{'

def isCloser (char : Char) : Bool := char == ')' || char == ']' || char == '}'

/-- The offset of the character that brings the depth back to zero. The first `skip` characters
belong to a comment, and `offset` counts the characters before the text. -/
def closerFrom : (skip depth offset : Nat) → Text → Option Nat
  | _, _, _, [] => none
  | skip + 1, depth, offset, _ :: text => closerFrom skip depth (offset + 1) text
  | 0, depth, offset, char :: text =>
    match commentLength (char :: text) with
    | more + 1 => closerFrom more depth (offset + 1) text
    | 0 =>
      if isOpener char then closerFrom 0 (depth + 1) (offset + 1) text
      else if isCloser char then
        if depth ≤ 1 then some offset else closerFrom 0 (depth - 1) (offset + 1) text
      else closerFrom 0 depth (offset + 1) text

def closer? (text : Text) : Option Nat := closerFrom 0 0 0 text

inductive BracketProblem where
  /-- The character at the offset opens no group. -/
  | noOpener (offset : Int)
  /-- The offset lies outside the text. -/
  | outside
  /-- The offset is no index. -/
  | beyondIndex
  deriving DecidableEq, Repr

def BracketProblem.message : BracketProblem → Text
  | .noOpener offset => "No opening bracket at offset " ++ Text.ofInt offset
  | .outside => "string index out of range"
  | .beyondIndex => CapacityProblem.beyondIndex.message

/-- The offset of the bracket that closes the one at `offset`, none when it is not closed. -/
def findCloser (text : Text) (offset : Nat) : Except BracketProblem (Option Nat) :=
  match text.drop offset with
  | [] => .error .outside
  | char :: rest =>
    if isOpener char then .ok ((closer? (char :: rest)).map (offset + ·))
    else .error (.noOpener offset)

/-- Where the comment ends that starts with `tail`, the last characters of the text. The end of a
block comment that the last two characters open is looked for from the start of the text. -/
def commentStop? (text tail : Text) : Option Nat :=
  let rest := match tail with
    | ['/', '*'] => closeBlock text
    | _ => comment tail
  rest.map fun (rest : Text) => text.length - rest.length

/-- The offset of the character that brings the depth back to zero, for a search that begins in
`tail`, the last characters of the text. These are counted from the end, by negative offsets; the
search goes on from the start of the text, or behind the comment that it meets. -/
def closerFromEnd (text : Text) : (depth : Nat) → (tail : Text) → Option Int
  | depth, [] => (closerFrom 0 depth 0 text).map Int.ofNat
  | depth, char :: tail =>
    match commentStop? text (char :: tail) with
    | some stop => (closerFrom 0 depth stop (text.drop stop)).map Int.ofNat
    | none =>
      if isOpener char then closerFromEnd text (depth + 1) tail
      else if isCloser char then
        if depth ≤ 1 then some (Int.negSucc tail.length) else closerFromEnd text (depth - 1) tail
      else closerFromEnd text depth tail

def findCloserAt (text : Text) (offset : Int) : Except BracketProblem (Option Int) :=
  if (CapacityProblem.ofIndex? offset).isSome then .error .beyondIndex
  else
    match offset with
    | .ofNat offset => (findCloser text offset).map (Option.map Int.ofNat)
    | .negSucc last =>
      if text.length ≤ last then .error .outside
      else
        match text.drop (text.length - (last + 1)) with
        | [] => .error .outside
        | char :: tail =>
          if isOpener char then .ok (closerFromEnd text 0 (char :: tail))
          else .error (.noOpener offset)

/-- The parts of a text between the commas at depth zero. -/
def splitCommasFrom : (depth : Int) → (current : Text) → Text → List Text
  | _, current, [] => [current.reverse]
  | depth, current, char :: text =>
    if isOpener char then splitCommasFrom (depth + 1) (char :: current) text
    else if isCloser char then splitCommasFrom (depth - 1) (char :: current) text
    else if char = ',' ∧ depth = 0 then current.reverse :: splitCommasFrom depth [] text
    else splitCommasFrom depth (char :: current) text

/-- The arguments of a call, trimmed; a blank text holds none. -/
def splitArguments (text : Text) : List Text :=
  if text.isBlankText then [] else (splitCommasFrom 0 [] text).map Text.trim

end Code
end ShaderBridge
