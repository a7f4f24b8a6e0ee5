import ShaderBridge.Script.Tools
set_option autoImplicit false

namespace ShaderBridge.Script

def programDirectories : List Text := ["/usr/bin", "/bin"].map String.toList

def programName? (path : Text) : Option Text :=
  let name := path.afterLast '/'
  if programDirectories.contains (path.take (path.length - name.length)).dropLast then some name
  else none

def standardPath : Text := "/usr/local/bin:/usr/local/sbin:/usr/sbin:/usr/bin:/sbin:/bin"

def isShellName (name : Text) : Bool := name == "sh".toList || name == "dash".toList

def isProgramName (name : Text) : Bool :=
  isShellName name || (tool? name []).isSome
    || ["env", "echo", "printf", "pwd", "test", "["].contains (String.ofList name)

def isProgramPath (path : Text) : Bool := (programName? path).any isProgramName

/-- The places where a program may stand that is named without a directory: the directories of the
variable `PATH` in turn, an empty one being the working directory. -/
def searchPlaces (shell : Shell) (name : Text) : List Text :=
  (((shell.valueOf? "PATH").getD []).splitOn ':').map fun directory =>
    if directory.isEmpty then name
    else if Text.endsWith "/" directory then directory ++ name
    else directory ++ "/" ++ name

def isRunnable (store : FileStore) (path : Text) : Bool :=
  isProgramPath path || match store.entry (Path.ofText path) with
    | .ok (.file _ executable) => executable
    | _ => false

def placeOf? (shell : Shell) (name : Text) : Option Text :=
  if name.contains '/' then if isRunnable shell.store name then some name else none
  else (searchPlaces shell name).find? (isRunnable shell.store)

def plainCommands : List Text :=
  ["[", "cd", "command", "echo", "false", "hash", "kill", "printf", "pwd", "read", "test", "true",
    "type", "umask", "wait"].map String.toList

def described? (shell : Shell) (short : Bool) (name : Text) : Option Text :=
  let is (kind : Text) : Text := if short then name else name ++ " is a " ++ kind
  if keywords.contains name then some (is "shell keyword")
  else if (shell.functions.lookup name).isSome then some (is "shell function")
  else if specialCommands.contains name then some (is "special shell builtin")
  else if plainCommands.contains name then some (is "shell builtin")
  else (placeOf? shell name).map fun place => if short then place else name ++ " is " ++ place

end ShaderBridge.Script
