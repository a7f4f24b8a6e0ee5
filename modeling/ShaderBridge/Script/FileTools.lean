import ShaderBridge.Script.Tool
set_option autoImplicit false

namespace ShaderBridge.Script

namespace Tool

def changing (operation : FileStore → Except Text FileStore) : Exec Nat := do
  let shell ← get
  match operation shell.store with
  | .ok store =>
    set { shell with store := store }
    return 0
  | .error problem => failing problem

/-- A step of a change of the files, with what is said in front of the reason when it fails. -/
def step {α : Type} (problem : Text) (operation : Except StorageFailure α) : Except Text α :=
  operation.mapError fun failure => problem ++ ": " ++ wording failure

def ls (arguments : List Text) : Exec Nat := do
  match readArguments "aA1dCFhlnrstu" [] arguments with
  | .error problem =>
    let _ ← misused problem
    return 2
  | .ok options =>
    let operands := if options.operands.isEmpty then [['.']] else sortedNames options.operands
    let shell ← get
    let isDirectory (operand : Text) : Bool :=
      (entryOf shell.store operand).toOption == some .directory && !options.has 'd'
    let missing ← options.operands.filterM fun operand => do
      match entryOf shell.store operand with
      | .ok _ => return false
      | .error failure =>
        complain ("cannot access " ++ quoted operand ++ ": " ++ wording failure)
        return true
    let found := operands.filter fun operand => !missing.contains operand
    let files := found.filter fun operand => !isDirectory operand
    let directories := found.filter isDirectory
    let ordered (names : List Text) : List Text :=
      if options.has 'r' then names.reverse else names
    let names (operand : Text) : List Text :=
      let stored := match placeOf shell.store operand with
        | .ok place => sortedNames (shell.store.namesAt place)
        | .error _ => []
      let isShown (name : Text) : Bool :=
        options.has 'a' || options.has 'A' || name.head? != some '.'
      let above : List Text := if options.has 'a' then [['.'], ['.', '.']] else []
      ordered (above ++ stored.filter isShown)
    let heading (operand : Text) : List Text :=
      if operands.length = 1 then [] else [operand ++ [':']]
    let blocks := (if files.isEmpty then [] else [ordered files])
      ++ (ordered directories).map fun operand => heading operand ++ names operand
    (List.intercalate [[]] blocks).forM printLine
    return if missing.isEmpty then 0 else 2

def makeDirectories (store : FileStore) (operand : Text) : Except Text FileStore :=
  let parts := operand.splitOn '/'
  let paths := (List.range parts.length).map fun count =>
    Text.join "/" (parts.take (count + 1))
  (paths.filter (!·.isEmpty)).foldlM (fun store written => do
    let problem := "cannot create directory " ++ quoted written
    let place ← step problem (placeOf store written)
    match store.entryAt? place with
    | some .directory => return store
    | some (.file ..) =>
      throw (problem ++ ": "
        ++ wording (if written = operand then .present else .notDirectory))
    | none => return store.put place .directory) store

def mkdir (arguments : List Text) : Exec Nat :=
  withOptions "pv" "m" arguments fun options => do
    if options.operands.isEmpty then return ← misused "missing operand"
    forEach options.operands fun operand => changing fun store => do
      if options.has 'p' && !operand.isEmpty then makeDirectories store operand
      else
        step ("cannot create directory " ++ quoted operand) do
          if operand.isEmpty then throw .missing
          store.makeDirectory (Path.ofText operand)

def removed (options : Options) (operand : Text) (store : FileStore) : Except Text FileStore := do
  let recursive := options.has 'r' || options.has 'R'
  if recursive && lastPart operand ∈ [['.'], ['.', '.']] then
    throw ("refusing to remove '.' or '..' directory: skipping " ++ quoted operand)
  match placeOf store operand with
  | .error failure =>
    if options.has 'f' && (failure = .missing || failure = .notDirectory) then return store
    throw ("cannot remove " ++ quoted operand ++ ": " ++ wording failure)
  | .ok place =>
    let refuse (failure : StorageFailure) : Except Text FileStore :=
      .error ("cannot remove " ++ quoted operand ++ ": " ++ wording failure)
    match store.entryAt? place with
    | none => if options.has 'f' then return store else refuse .missing
    | some (.file ..) => return store.without place
    | some .directory =>
      if recursive && place.isEmpty then
        throw ("it is dangerous to operate recursively on '/'\n".toList
          ++ "rm: use --no-preserve-root to override this failsafe")
      else if recursive then return store.without place
      else if !options.has 'd' then refuse .isDirectory
      else if (store.namesAt place).isEmpty then return store.without place
      else refuse .notEmpty

def rm (arguments : List Text) : Exec Nat :=
  withOptions "rRfdiIv" [] arguments fun options => do
    if options.operands.isEmpty && !options.has 'f' then return ← misused "missing operand"
    forEach options.operands fun operand => changing (removed options operand)

def rmdir (arguments : List Text) : Exec Nat :=
  withOptions "pv" [] arguments fun options => do
    if options.operands.isEmpty then return ← misused "missing operand"
    forEach options.operands fun operand => changing fun store =>
      step ("failed to remove " ++ quoted operand) do
        let place ← placeOf store operand
        match store.entryAt? place with
        | none => throw .missing
        | some (.file ..) => throw .notDirectory
        | some .directory =>
          if (store.namesAt place).isEmpty then return store.without place else throw .notEmpty

def transplanted (store : FileStore) (source target : Place) : List (Place × Entry) :=
  store.entries.filterMap fun (place, entry) =>
    if source.isPrefixOf place then some (target ++ place.drop source.length, entry) else none

def transferred (moving recursive : Bool) (source target : Text) (store : FileStore) :
    Except Text FileStore := do
  let seen ← step ("cannot stat " ++ quoted source) (entryOf store source)
  if seen = .directory && !moving && !recursive then
    throw ("-r not specified; omitting directory " ++ quoted source)
  let here ← step ("cannot stat " ++ quoted source) (placeOf store source)
  let problem :=
    if moving then "cannot move " ++ quoted source ++ " to " ++ quoted target
    else if seen = .directory then "cannot create directory " ++ quoted target
    else "cannot create regular file " ++ quoted target
  let there ← match placeOf store target with
    | .error .notDirectory =>
      throw ("failed to access " ++ quoted target ++ ": " ++ wording .notDirectory)
    | outcome => step problem outcome
  if here = there then
    if seen ≠ .directory then
      throw (quoted source ++ " and " ++ quoted target ++ " are the same file")
  if seen = .directory && here.isPrefixOf there then
    throw (if moving then
        "cannot move " ++ quoted source ++ " to a subdirectory of itself, " ++ quoted target
      else "cannot copy a directory, " ++ quoted source ++ ", into itself, " ++ quoted target)
  match seen, store.entryAt? there with
  | .directory, some (.file ..) =>
    throw ("cannot overwrite non-directory " ++ quoted target ++ " with directory "
      ++ quoted source)
  | .file .., some .directory =>
    throw ("cannot overwrite directory " ++ quoted target ++ " with non-directory")
  | .directory, some .directory =>
    if moving && !(store.namesAt there).isEmpty then
      throw ("cannot overwrite " ++ quoted target ++ ": " ++ wording .notEmpty)
    return copied here there
  | .file content executable, some (.file _ before) =>
    let kept := if moving then executable else before
    let written := store.put there (.file content kept)
    return if moving then written.without here else written
  | _, none =>
    if Text.endsWith "/" target && seen ≠ .directory then
      throw (problem ++ ": " ++ wording .notDirectory)
    match store.entryAt? there.dropLast with
    | some .directory => return copied here there
    | some (.file ..) => throw (problem ++ ": " ++ wording .notDirectory)
    | none => throw (problem ++ ": " ++ wording .missing)
where
  /-- The files with everything at one place also at another one, or only there. -/
  copied (here there : Place) : FileStore :=
    let after := (transplanted store here there).foldl (fun store (place, entry) =>
      store.put place entry) store
    if moving then after.without here else after

def transfer (moving : Bool) (arguments : List Text) : Exec Nat :=
  withOptions (if moving then "bfinuvT" else "abdfHilLnpPrRuvxT") [] arguments fun options => do
    let recursive := options.has 'r' || options.has 'R' || options.has 'a'
    match options.operands.reverse with
    | target :: source :: more =>
      let into := match entryOf (← get).store target with
        | .ok entry => entry == .directory
        | .error _ => false
      if !more.isEmpty && !into then
        let failure := match entryOf (← get).store target with
          | .ok _ => .notDirectory
          | .error failure => failure
        return ← failing ("target " ++ quoted target ++ ": " ++ wording failure)
      forEach (source :: more).reverse fun source =>
        let separator : Text := if Text.endsWith "/" target then [] else ['/']
        let written := if into then target ++ separator ++ lastPart source else target
        changing (transferred moving recursive source written)
    | [only] => misused ("missing destination file operand after " ++ quoted only)
    | [] => misused "missing file operand"

def touch (arguments : List Text) : Exec Nat :=
  withOptions "acfm" "dtr" arguments fun options => do
    if options.operands.isEmpty then return ← misused "missing file operand"
    forEach options.operands fun operand => changing fun store =>
      step ("cannot touch " ++ quoted operand) do
        let place ← placeOf store operand
        if (store.entryAt? place).isSome || options.has 'c' then return store
        else store.write (Path.ofText operand) []

def modeClause (clause : Text) (before : Bool) : Option Bool :=
  let who := clause.takeWhile fun char => char ∈ ['u', 'g', 'o', 'a']
  let changes := clause.drop who.length
  let counts := who.isEmpty || who.contains 'u' || who.contains 'a'
  let isSign (char : Char) : Bool := char ∈ ['+', '-', '=']
  let isLetter (char : Char) : Bool := char ∈ ['r', 'w', 'x', 'X', 's', 't', 'u', 'g', 'o']
  match changes with
  | [] => none
  | first :: _ =>
    if !isSign first || !changes.all (fun char => isSign char || isLetter char) then none
    else
      let (_, after) := changes.foldl (fun (sign, state) char =>
        if isSign char then (char, if char = '=' && counts then false else state)
        else if char = 'x' then
          (sign, if sign = '-' then state && !counts else true)
        else (sign, state)) (' ', before)
      some after

def runnableAfter (mode : Text) (before : Bool) : Option Bool :=
  if mode.all Char.isDigit then
    let value := mode.foldl (fun value digit => value * 8 + (digit.toNat - 48)) 0
    if mode.any (fun digit => '8' ≤ digit) || 0o7777 < value || mode.isEmpty then none
    else some (value &&& 0o111 != 0)
  else (mode.splitOn ',').foldlM (fun state clause => modeClause clause state) before

def isModeOption (word : Text) : Bool := word ∈ ["-R", "-v", "-f", "-c"].map String.toList

def chmod (arguments : List Text) : Exec Nat := do
  match arguments.filter fun word => !isModeOption word with
  | [] => misused "missing operand"
  | [mode] => misused ("missing operand after " ++ quoted mode)
  | mode :: operands =>
    if (runnableAfter mode false).isNone then
      return ← misused ("invalid mode: " ++ quoted mode)
    forEach operands fun operand => changing fun store =>
      step ("cannot access " ++ quoted operand) do
        let place ← placeOf store operand
        match store.entryAt? place with
        | none => throw .missing
        | some .directory => return store
        | some (.file content executable) =>
          let after := (runnableAfter mode executable).getD executable
          return store.put place (.file content after)

end Tool
end ShaderBridge.Script
