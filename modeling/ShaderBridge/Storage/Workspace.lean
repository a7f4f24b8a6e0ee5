import ShaderBridge.World
import ShaderBridge.Text.Lines
import ShaderBridge.Text.Raw
set_option autoImplicit false

/-! Workspaces: scratch directories that belong to one run each. A workspace is entered, which makes
a directory under a name that is not in use, and left, which removes the directory with everything
in it. A directory that cannot be removed is a fault unless another one is under way already. -/

namespace ShaderBridge

/-- A workspace: the directory in which it is made, the machine's directory for temporary files
when none is given, and its own directory while it is active. -/
structure Workspace where
  root : Option Path
  directory : Option Path := none
  deriving DecidableEq, Repr

namespace Workspace

variable {σ : Type}

def nameStem : Text := "shadercross-"

def numberedName (number : Nat) : Text :=
  let digits := Text.decimal number
  nameStem ++ List.replicate (8 - digits.length) '0' ++ digits

def freshFrom (taken : List Text) : (more number : Nat) → Text
  | 0, number => numberedName number
  | more + 1, number =>
    if taken.contains (numberedName number) then freshFrom taken more (number + 1)
    else numberedName number

def freshName (taken : List Text) : Text := freshFrom taken taken.length 0

def activeDirectory (workspace : Workspace) : Except Fault Path :=
  match workspace.directory with
  | some directory => .ok directory
  | none => .error (.workspace .inactive none)

/-- A path in a directory as it is written there, nothing worked off. -/
def joined (directory name : Text) : Text :=
  if Text.endsWith "/" directory then directory ++ name else directory ++ "/" ++ name

def create (parent : Path) (store : FileStore) : Except StorageProblem (Path × FileStore) :=
  let taken := match store.locate parent with
    | .ok place => store.namesAt place
    | .error _ => []
  let name := freshName taken
  let written := joined parent.toText name
  match store.makeDirectory (parent.child name) with
  | .ok store => .ok (Path.ofText written, store)
  | .error failure => .error ⟨failure, written⟩

def creationFault (root : Option Path) (cause : StorageProblem) : Fault :=
  if cause.isReported then .workspace (.notCreated cause) root else .storage cause

def enter (workspace : Workspace) : Action σ Workspace := do
  let world ← get
  match create (workspace.root.getD world.store.temporary) world.store with
  | .error cause => throw (creationFault workspace.root cause)
  | .ok (directory, store) =>
    set { world with store := store }
    Action.log .debug ("Created workspace " ++ directory.toText)
    return { workspace with directory := some directory }

/-- Removes the directory of a workspace, if it is active. While a fault is under way a failure to
do so is only logged. -/
def leave (workspace : Workspace) (faulty : Bool) : Action σ Unit := do
  match workspace.directory with
  | none => return
  | some directory =>
    let world ← get
    match world.store.removeTree directory with
    | .ok store =>
      set { world with store := store }
      Action.log .debug ("Removed workspace " ++ directory.toText)
    | .error failure =>
      let cause : StorageProblem := ⟨failure, directory.toText⟩
      if faulty then
        Action.log .warning
          ("Failed to remove workspace " ++ directory.toText ++ ": " ++ cause.message)
      else throw (.workspace (.notRemoved cause) (some directory))

def faultAt (directory path : Path) (problem : StorageProblem → WorkspaceProblem)
    (failure : StorageFailure) : Fault :=
  let cause : StorageProblem := ⟨failure, path.toText⟩
  if cause.isReported then .workspace (problem cause) (some directory) else .storage cause

/-- Writes a text file. The file is opened before its text is encoded, so that a text without a
UTF-8 form leaves it empty. -/
def writeText (workspace : Workspace) (name : Text) (text : RawText) : Action σ Path := do
  let directory ← Action.ofExcept workspace.activeDirectory
  let path := directory.child name
  let world ← get
  match world.store.write path (text.encode?.getD []) with
  | .ok store =>
    set { world with store := store }
    if text.encode?.isSome then return path else throw .unencodable
  | .error failure => throw (faultAt directory path (.notWritten name) failure)

def readBytes (workspace : Workspace) (name : Text) : Action σ Bytes := do
  let directory ← Action.ofExcept workspace.activeDirectory
  let path := directory.child name
  match (← get).store.read path with
  | .ok content => return content
  | .error failure => throw (faultAt directory path (.notRead name) failure)

end Workspace

/-- The text of a file that should be UTF-8, every line end a line feed. -/
def fileText (content : Bytes) : Except Fault Text :=
  match Utf8.decode? content with
  | some text => .ok text.normalizeNewlines
  | none => .error .undecodable

def Workspace.readText {σ : Type} (workspace : Workspace) (name : Text) : Action σ Text := do
  Action.ofExcept (fileText (← workspace.readBytes name))

end ShaderBridge
