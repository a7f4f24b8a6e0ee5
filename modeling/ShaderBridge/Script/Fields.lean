import ShaderBridge.Script.Syntax
import ShaderBridge.Storage.FileStore
set_option autoImplicit false

/-! From expanded words to fields. The characters that an expansion outside of quotes gives are cut
at white space, and a field with pattern characters outside of quotes stands for the names that it
matches. -/

namespace ShaderBridge.Script

inductive Item where
  /-- A character; `expanded` says that it comes from an expansion outside of quotes. -/
  | char (char : Char) (quoted expanded : Bool)
  /-- Quotes, which make a field even when nothing stands between them. -/
  | present
  /-- The border between two arguments. -/
  | border
  deriving DecidableEq, Repr

def isFieldBlank (char : Char) : Bool := char ∈ [' ', '\t', '\n']

abbrev Field := List (Char × Bool)

def Field.text (field : Field) : Text := field.map (·.1)

/-- The fields of items, cut at separators that an expansion gives. `current` is the field that is
being read, last character first, none when nothing of it was seen; `blankBefore` says that white
space has just ended a field. White space around another separator belongs to that one. -/
def fieldsFrom (separators : Text) : (current : Option Field) → (blankBefore : Bool) → List Item →
    List Field
  | current, _, [] => current.toList.map List.reverse
  | current, _, .border :: items =>
    current.toList.map List.reverse ++ fieldsFrom separators none false items
  | current, _, .present :: items => fieldsFrom separators (some (current.getD [])) false items
  | current, blankBefore, .char char quoted expanded :: items =>
    if !expanded || !separators.contains char then
      fieldsFrom separators (some ((char, quoted) :: current.getD [])) false items
    else
      let ended := current.toList.map List.reverse
      if isFieldBlank char then
        ended ++ fieldsFrom separators none (blankBefore || current.isSome) items
      else
        (if current.isNone && !blankBefore then [[]] else ended)
          ++ fieldsFrom separators none false items

def fields (separators : Text) (items : List Item) : List Field :=
  fieldsFrom separators none false items

def unsplit (items : List Item) : Field :=
  items.flatMap fun
    | .char char quoted _ => [(char, quoted)]
    | .present => []
    | .border => [(' ', true)]

inductive Glob where
  | char (char : Char)
  | any
  | anything
  | oneOf (negated : Bool) (ranges : List (Char × Char))
  deriving DecidableEq, Repr

def globRanges : Text → List (Char × Char)
  | first :: '-' :: last :: rest => (first, last) :: globRanges rest
  | char :: rest => (char, char) :: globRanges rest
  | [] => []

def globBracket (field : Field) : Option (Glob × Field) :=
  let (negated, body) := match field with
    | (char, _) :: rest => if char = '!' ∨ char = '^' then (true, rest) else (false, field)
    | [] => (false, [])
  let (first, rest) := match body with
    | (']', _) :: rest => ([']'], rest)
    | rest => ([], rest)
  let inside := rest.takeWhile (·.1 != ']')
  if rest.length = inside.length then none
  else some (.oneOf negated (globRanges (first ++ inside.map (·.1))),
    rest.drop (inside.length + 1))

def globFrom : (bound : Nat) → Field → List Glob
  | 0, _ => []
  | _ + 1, [] => []
  | bound + 1, (char, quoted) :: field =>
    if quoted then .char char :: globFrom bound field
    else if char = '*' then .anything :: globFrom bound field
    else if char = '?' then .any :: globFrom bound field
    else if char = '[' then
      match globBracket field with
      | some (glob, rest) => glob :: globFrom bound rest
      | none => .char char :: globFrom bound field
    else .char char :: globFrom bound field

def Field.pattern (field : Field) : List Glob := globFrom (field.length + 1) field

def globMatches : List Glob → Text → Bool
  | [], text => text.isEmpty
  | .anything :: pattern, text =>
    (List.range (text.length + 1)).any fun skipped => globMatches pattern (text.drop skipped)
  | .char expected :: pattern, char :: text => char == expected && globMatches pattern text
  | .any :: pattern, _ :: text => globMatches pattern text
  | .oneOf negated ranges :: pattern, char :: text =>
    (ranges.any fun (first, last) => first ≤ char && char ≤ last) != negated
      && globMatches pattern text
  | .char _ :: _, [] | .any :: _, [] | .oneOf .. :: _, [] => false

def Field.isPattern (field : Field) : Bool :=
  field.any fun (char, quoted) => !quoted && (char == '*' || char == '?' || char == '[')

def Field.segments (field : Field) : List Field :=
  field.foldr (fun entry segments =>
    match segments with
    | current :: rest =>
      if entry.1 = '/' then [] :: current :: rest else (entry :: current) :: rest
    | [] => [[entry]]) [[]]

def sortedNames (names : List Text) : List Text :=
  names.mergeSort fun first second => decide (String.ofList first ≤ String.ofList second)

def matchingPaths (store : FileStore) (directory : Path) : (written : Text) → List Field → List Text
  | written, [] => [written]
  | written, segment :: segments =>
    let place := (store.locate (directory.within (Path.ofText written))).toOption
    let names := match place with
      | some place => sortedNames (store.namesAt place)
      | none => []
    let separator : Text := if written.isEmpty || Text.endsWith "/" written then [] else ['/']
    let next (name : Text) : List Text :=
      let path := written ++ separator ++ name
      if segments.isEmpty || store.isDirectory (directory.within (Path.ofText path)) then
        matchingPaths store directory path segments
      else []
    if segment.isEmpty then matchingPaths store directory (written ++ ['/']) segments
    else if segment.isPattern then
      let dots := if segment.head? = some ('.', false) then [['.'], ['.', '.']] else []
      ((dots ++ names).filter fun name =>
        (name.head? != some '.' || segment.head?.any fun first => first.1 == '.')
          && globMatches segment.pattern name).flatMap next
    else if store.holds (directory.within (Path.ofText (written ++ separator ++ segment.text))) then
      next segment.text
    else []

def Field.expand (store : FileStore) (directory : Path) (field : Field) : List Text :=
  if !field.isPattern then [field.text]
  else
    match matchingPaths store directory [] field.segments with
    | [] => [field.text]
    | paths => paths

end ShaderBridge.Script
