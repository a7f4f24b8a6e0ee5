import ShaderBridge.Text.Basic
set_option autoImplicit false

/-! Paths. A path is where it starts from and its parts; empty parts and single dots are dropped
when it is read, double dots are kept. Two leading slashes are not the same as one. -/

namespace ShaderBridge

inductive Anchor where
  | relative
  | root
  | doubleRoot
  deriving DecidableEq, Repr

structure Path where
  anchor : Anchor
  parts : List Text
  deriving DecidableEq, Repr

namespace Path

def anchorOf : Text → Anchor
  | '/' :: '/' :: '/' :: _ => .root
  | '/' :: '/' :: _ => .doubleRoot
  | '/' :: _ => .root
  | _ => .relative

def partsOf (text : Text) : List Text :=
  (text.splitOn '/').filter fun part => !part.isEmpty && part != ['.']

def ofText (text : Text) : Path := ⟨anchorOf text, partsOf text⟩

/-- Writes a path; the relative path without parts is a single dot. -/
def toText (path : Path) : Text :=
  let body := Text.join "/" path.parts
  match path.anchor with
  | .relative => if path.parts.isEmpty then "." else body
  | .root => '/' :: body
  | .doubleRoot => '/' :: '/' :: body

def name (path : Path) : Text := path.parts.getLast?.getD []

def extension (path : Path) : Text :=
  let name := path.name
  let tail := name.afterLast '.'
  if tail.isEmpty || name.length ≤ tail.length + 1 then [] else '.' :: tail

/-- The path reached from `base`; a path that starts from the root stays as it is. -/
def within (base path : Path) : Path :=
  match path.anchor with
  | .relative => ⟨base.anchor, base.parts ++ path.parts⟩
  | _ => path

def child (directory : Path) (name : Text) : Path := directory.within (ofText name)

def foldPart (reversed : List Text) (part : Text) : List Text :=
  if part = "..".toList then reversed.tail else part :: reversed

/-- The path from the root that a path means in a working directory, its double dots worked off
without looking at what is stored. -/
def absolute (workingDirectory path : Path) : Path :=
  let joined := workingDirectory.within path
  ⟨joined.anchor, (joined.parts.foldl foldPart []).reverse⟩

def parent (path : Path) : Path := ⟨path.anchor, path.parts.dropLast⟩

end Path
end ShaderBridge
