import ShaderBridge.Text.Pattern
import ShaderBridge.Text.DecimalDigit
set_option autoImplicit false

/-! Identifiers and their renaming. Renaming replaces whole words in one pass and leaves an entry
aside when its new name is already in use, so that two names never become one. -/

namespace ShaderBridge
namespace Code

def identifiers : Pattern := Scan.identifier.atWordStart

def isIdentifier (text : Text) : Bool := Scan.identifier.accepts text

/-- Old names, or dotted accesses, with what replaces them. No old name stands twice. -/
abbrev Renames := List (Text × Text)

namespace Renames

/-- Adds an entry; an entry for the same old name is replaced where it stands. -/
def put (old new : Text) : Renames → Renames
  | [] => [(old, new)]
  | (name, value) :: table =>
    if name = old then (old, new) :: table else (name, value) :: put old new table

def active (table : Renames) (text : Text) : Renames :=
  let used := identifiers.occurrences text
  table.filter fun (old, new) => old != new && !(isIdentifier new && used.contains new)

def longestAt (table : Renames) (text : Text) : Option Text :=
  table.foldl (fun best (old, _) =>
    if ((Scan.literal old >=> Scan.wordEnd) text).isSome
      && best.all fun other => other.length < old.length
    then some old else best) none

def pattern (table : Renames) : Pattern := fun before text =>
  if before.any isWord then none else (table.longestAt text).map List.length

end Renames

def rename (table : Renames) (text : Text) : Text :=
  match table.active text with
  | [] => text
  | active => (Renames.pattern active).replace (fun old => (active.lookup old).getD old) text

def temporaries : Pattern :=
  Scan.atWordStart (Scan.literal "_S" >=> Scan.oneOrMore isDecimalDigit >=> Scan.wordEnd)

/-- Renames each temporary to the letter t and its digits where that name is free. -/
def renameTemporaries (text : Text) : Text :=
  rename ((temporaries.occurrences text).foldl
    (fun table old => table.put old ('t' :: old.drop 2)) []) text

end Code
end ShaderBridge
