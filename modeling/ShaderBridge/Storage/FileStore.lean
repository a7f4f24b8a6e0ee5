import ShaderBridge.Storage.Path
import ShaderBridge.Storage.Problem
import ShaderBridge.Text.Utf8
set_option autoImplicit false

/-! A store of files and directories. Entries are kept in the order in which they were made, so
making an entry and removing it again gives back the same store. Paths are walked part by part:
every part but the last has to be a directory that exists. -/

namespace ShaderBridge

/-- A place in the store: the parts of its path from the root, with nothing left to work off. -/
abbrev Place := List Text

inductive Entry where
  | directory
  | file (content : Bytes) (executable : Bool)
  deriving DecidableEq, Repr

/-- The files of a machine, the directory that relative paths start from, and the directory for
temporary files. The root is always there and has no entry. -/
structure FileStore where
  entries : List (Place × Entry)
  workingDirectory : Path
  temporary : Path
  deriving DecidableEq, Repr

namespace FileStore

def entryAt? (store : FileStore) : Place → Option Entry
  | [] => some .directory
  | place => store.entries.lookup place

def maxNameBytes : Nat := 255

def maxPathBytes : Nat := 4095

/-- Walks from a place along the parts of a path. The place reached need not exist, but every
place on the way has to be a directory. -/
def walk (store : FileStore) (here : Place) : List Text → Except StorageFailure Place
  | [] => .ok here
  | part :: parts =>
    match store.entryAt? here with
    | none => .error .missing
    | some (.file ..) => .error .notDirectory
    | some .directory =>
      if part = "..".toList then store.walk here.dropLast parts
      else if maxNameBytes < (Utf8.encode part).length then .error .longName
      else store.walk (here ++ [part]) parts

def locate (store : FileStore) (path : Path) : Except StorageFailure Place :=
  let text := path.toText
  if text.contains '\x00' then .error .nullCharacter
  else if maxPathBytes < (Utf8.encode text).length then .error .longName
  else store.walk [] (store.workingDirectory.within path).parts

def entry (store : FileStore) (path : Path) : Except StorageFailure Entry := do
  match store.entryAt? (← store.locate path) with
  | some entry => return entry
  | none => throw .missing

def holds (store : FileStore) (path : Path) : Bool := (store.entry path).isOk

def isDirectory (store : FileStore) (path : Path) : Bool :=
  match store.entry path with
  | .ok .directory => true
  | _ => false

/-- Whether a path leads to an entry of some kind. A path that leads nowhere does not; only a name
that is too long to be looked up leaves the question open. -/
def ask (store : FileStore) (path : Path) (kind : Entry → Bool) : Except StorageFailure Bool :=
  match store.entry path with
  | .ok entry => .ok (kind entry)
  | .error .longName => .error .longName
  | .error _ => .ok false

/-- The names of the entries in the directory at a place, in the order of their making. -/
def namesAt (store : FileStore) (place : Place) : List Text :=
  store.entries.filterMap fun (other, _) =>
    if !other.isEmpty && other.dropLast = place then other.getLast? else none

def putEntry (place : Place) (entry : Entry) : List (Place × Entry) → List (Place × Entry)
  | [] => [(place, entry)]
  | (other, old) :: entries =>
    if other = place then (place, entry) :: entries
    else (other, old) :: putEntry place entry entries

def put (store : FileStore) (place : Place) (entry : Entry) : FileStore :=
  { store with entries := putEntry place entry store.entries }

def without (store : FileStore) (place : Place) : FileStore :=
  { store with entries := store.entries.filter fun (other, _) => !place.isPrefixOf other }

def read (store : FileStore) (path : Path) : Except StorageFailure Bytes := do
  match ← store.entry path with
  | .file content _ => return content
  | .directory => throw .isDirectory

/-- Writes a file, which has to stand in a directory that exists. A file that is overwritten stays
as executable as it was. -/
def write (store : FileStore) (path : Path) (content : Bytes) :
    Except StorageFailure FileStore := do
  let place ← store.locate path
  match store.entryAt? place with
  | some .directory => throw .isDirectory
  | some (.file _ executable) => return store.put place (.file content executable)
  | none =>
    match store.entryAt? place.dropLast with
    | some .directory => return store.put place (.file content false)
    | some (.file ..) => throw .notDirectory
    | none => throw .missing

def makeDirectory (store : FileStore) (path : Path) : Except StorageFailure FileStore := do
  let place ← store.locate path
  match store.entryAt? place with
  | some _ => throw .present
  | none => return store.put place .directory

def withDirectories (store : FileStore) (place : Place) : FileStore :=
  ((List.range place.length).map fun depth => place.take (depth + 1)).foldl (fun store above =>
    if (store.entryAt? above).isSome then store else store.put above .directory) store

/-- The store with a file, in the place of the one that is there, and with the directories that
lead to it. -/
def install (store : FileStore) (path : Path) (content : Bytes) (executable : Bool) : FileStore :=
  let place := (store.workingDirectory.within path).parts
  (store.withDirectories place.dropLast).put place (.file content executable)

def removeTree (store : FileStore) (path : Path) : Except StorageFailure FileStore := do
  let place ← store.locate path
  match store.entryAt? place with
  | none => throw .missing
  | some (.file ..) => throw .notDirectory
  | some .directory => return store.without place

end FileStore
end ShaderBridge
