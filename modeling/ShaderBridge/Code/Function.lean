import ShaderBridge.Code.Bracket
set_option autoImplicit false

/-! Function definitions. A definition begins a line with at least one word of type and
qualifiers, names the function, and has a body after its parameter list and perhaps one output
semantic; a prototype or a call is none. -/

namespace ShaderBridge
namespace Code

/-- The place of a function definition: the offset of the line that holds its signature, of the
first character of its body, of its closing brace, and of the character behind that. -/
structure FunctionSpan where
  start : Nat
  bodyStart : Nat
  bodyEnd : Nat
  stop : Nat
  deriving DecidableEq, Repr

def isSignatureChar (char : Char) : Bool := isWord char || char == ':' || char == '<' || char == '>'

/-- The first success when a stretch of blanks is read from `most` characters down to one. -/
def readBlanks (scan : Scan) (text : Text) : (most : Nat) → Option Text
  | 0 => none
  | most + 1 => (scan (text.drop (most + 1))).orElse fun _ => readBlanks scan text most

/-- Reads as many signature words as possible, each followed by blanks, and then with `scan`;
fewer words and then fewer blanks are tried where that fails. -/
def signatureWords (scan : Scan) : (most : Nat) → Scan
  | 0, _ => none
  | most + 1, text =>
    match Scan.oneOrMore isSignatureChar text with
    | none => none
    | some rest =>
      (signatureWords scan most (rest.dropWhile isSpaceOrTab)).orElse fun _ =>
        readBlanks scan rest (rest.takeWhile isSpaceOrTab).length

/-- Reads a signature up to and including the parenthesis that opens the parameter list. The words
stand on one line, so it has no more of them than characters. -/
def signature (name : Text) : Scan := fun text =>
  let line := text.takeWhile (· != '\n')
  signatureWords (Scan.literal name >=> Scan.blanks >=> Scan.literal "(") line.length
    (text.dropWhile isSpaceOrTab)

def bodyOpening : Scan :=
  Scan.blanks
    >=> Scan.optional (Scan.literal ":" >=> Scan.blanks >=> Scan.word >=> Scan.blanks)
    >=> Scan.literal "\x7b"

def spanAt (offset length : Nat) (text : Text) : Option FunctionSpan := do
  let parameters := text.drop (length - 1)
  let close ← closer? parameters
  let behind := parameters.drop (close + 1)
  let body ← bodyOpening behind
  let bodyStart := offset + text.length - body.length
  let bodyLength ← closer? (('\x7b') :: body)
  let bodyEnd := bodyStart - 1 + bodyLength
  some ⟨offset, bodyStart, bodyEnd, bodyEnd + 1⟩

/-- The first definition of a function at or after a position. The first `skip` characters belong
to a signature without a body. -/
def definitionFrom (name : Text) : (skip : Nat) → (lineStart : Bool) → (offset : Nat) → Text →
    Option FunctionSpan
  | _, _, _, [] => none
  | skip + 1, _, offset, char :: text => definitionFrom name skip (char == '\n') (offset + 1) text
  | 0, lineStart, offset, char :: text =>
    match if lineStart then signature name (char :: text) else none with
    | none => definitionFrom name 0 (char == '\n') (offset + 1) text
    | some rest =>
      let length := text.length + 1 - rest.length
      match spanAt offset length (char :: text) with
      | some span => some span
      | none => definitionFrom name (length - 1) (char == '\n') (offset + 1) text

/-- The first definition of the first of the names that has one. -/
def findFunction (text : Text) (names : List Text) : Option FunctionSpan :=
  names.findSome? fun name => definitionFrom name 0 true 0 text

end Code
end ShaderBridge
