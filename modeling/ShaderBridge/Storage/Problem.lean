import ShaderBridge.Text.Quoted
set_option autoImplicit false

namespace ShaderBridge

inductive StorageFailure where
  | missing
  | unrunnable
  | notPermitted
  | present
  | notDirectory
  | isDirectory
  | longName
  | notEmpty
  /-- The path holds a null character and was never looked up. -/
  | nullCharacter
  deriving DecidableEq, Repr

namespace StorageFailure

def describe : StorageFailure → Nat × Text
  | .missing => (2, "No such file or directory")
  | .unrunnable => (8, "Exec format error")
  | .notPermitted => (13, "Permission denied")
  | .present => (17, "File exists")
  | .notDirectory => (20, "Not a directory")
  | .isDirectory => (21, "Is a directory")
  | .longName => (36, "File name too long")
  | .notEmpty => (39, "Directory not empty")
  | .nullCharacter => (0, "embedded null byte")

end StorageFailure

structure StorageProblem where
  failure : StorageFailure
  path : Text
  deriving DecidableEq, Repr

namespace StorageProblem

def isReported (problem : StorageProblem) : Bool := problem.failure != .nullCharacter

def message (problem : StorageProblem) : Text :=
  let (number, wording) := problem.failure.describe
  if problem.isReported then
    "[Errno " ++ Text.decimal number ++ "] " ++ wording ++ ": " ++ problem.path.quoted
  else wording

end StorageProblem
end ShaderBridge
