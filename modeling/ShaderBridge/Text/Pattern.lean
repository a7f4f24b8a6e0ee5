import ShaderBridge.Text.Scan
set_option autoImplicit false

/-! Patterns and the cutting of a text at their matches. A pattern sees the character before a
position and the text from it, and says how many characters match there. `Pattern.pieces` cuts a
text at its matches from left to right, a match never beginning inside another; searching,
collecting and replacing are read off the pieces. Main statement: the pieces put together are the
text (`Pattern.text_pieces`). -/

namespace ShaderBridge

/-- How many characters match at a position, given the character before it. -/
abbrev Pattern := Option Char → Text → Option Nat

inductive Piece where
  /-- A character outside every match. -/
  | kept (char : Char)
  /-- A match. -/
  | found (text : Text)
  deriving DecidableEq, Repr

namespace Piece

def text : Piece → Text
  | kept char => [char]
  | found text => text

end Piece

namespace Scan

def anywhere (scan : Scan) : Pattern := fun _ text =>
  (scan text).map fun rest => text.length - rest.length

def notAfter (inClass : Char → Bool) (scan : Scan) : Pattern := fun before text =>
  if before.any inClass then none else scan.anywhere before text

def atWordStart (scan : Scan) : Pattern := scan.notAfter isWord

def atLineStart (scan : Scan) : Pattern := scan.notAfter (· != '\n')

end Scan

namespace Pattern

/-- Cuts the text after `before`, of which the first `skip` characters belong to a match that was
already given out. A match of no characters is given out once and the next character is kept. -/
def piecesFrom (pattern : Pattern) : (skip : Nat) → (before : Option Char) → Text → List Piece
  | _, before, [] =>
    match pattern before [] with
    | some _ => [.found []]
    | none => []
  | skip + 1, _, char :: text => piecesFrom pattern skip (some char) text
  | 0, before, char :: text =>
    match pattern before (char :: text) with
    | some (more + 1) =>
      .found ((char :: text).take (more + 1)) :: piecesFrom pattern more (some char) text
    | some 0 => .found [] :: .kept char :: piecesFrom pattern 0 (some char) text
    | none => .kept char :: piecesFrom pattern 0 (some char) text

def pieces (pattern : Pattern) (text : Text) : List Piece := pattern.piecesFrom 0 none text

def occurrences (pattern : Pattern) (text : Text) : List Text :=
  (pattern.pieces text).filterMap fun
    | .found text => some text
    | .kept _ => none

def occursAfter (pattern : Pattern) (before : Option Char) (text : Text) : Bool :=
  (pattern.piecesFrom 0 before text).any fun
    | .found _ => true
    | .kept _ => false

def occursIn (pattern : Pattern) (text : Text) : Bool := pattern.occursAfter none text

def replace (pattern : Pattern) (new : Text → Text) (text : Text) : Text :=
  (pattern.pieces text).flatMap fun
    | .found text => new text
    | .kept char => [char]

def remove (pattern : Pattern) (text : Text) : Text := pattern.replace (fun _ => []) text

theorem text_piecesFrom (pattern : Pattern) (skip : Nat) (before : Option Char) (text : Text) :
    (pattern.piecesFrom skip before text).flatMap Piece.text = text.drop skip := by
  induction text generalizing skip before with
  | nil => rw [piecesFrom]; split <;> simp [Piece.text]
  | cons char text ih =>
    cases skip with
    | succ skip => simp [piecesFrom, ih]
    | zero =>
      rw [piecesFrom]
      split <;> simp [Piece.text, ih]

theorem text_pieces (pattern : Pattern) (text : Text) :
    (pattern.pieces text).flatMap Piece.text = text := by
  simp [pieces, text_piecesFrom]

end Pattern
end ShaderBridge
