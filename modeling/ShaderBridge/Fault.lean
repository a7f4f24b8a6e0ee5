import ShaderBridge.Capacity
import ShaderBridge.Storage.Path
import ShaderBridge.Storage.Problem
import ShaderBridge.Text.Numeral
set_option autoImplicit false

/-! Faults: what stops a run for reasons that lie outside the user's code. Two kinds, an unusable
tool and an unusable workspace, are operational and expected by the callers of a run. -/

namespace ShaderBridge

inductive WorkspaceProblem where
  | inactive
  | notCreated (cause : StorageProblem)
  | notWritten (name : Text) (cause : StorageProblem)
  | notRead (name : Text) (cause : StorageProblem)
  | notRemoved (cause : StorageProblem)
  | noWorkingDirectory
  | described (message : Text)
  deriving DecidableEq, Repr

def WorkspaceProblem.message : WorkspaceProblem → Text
  | .inactive => "Workspace is not active"
  | .notCreated cause => "Cannot create workspace: " ++ cause.message
  | .notWritten name cause => "Cannot write " ++ name ++ ": " ++ cause.message
  | .notRead name cause => "Cannot read " ++ name ++ ": " ++ cause.message
  | .notRemoved cause => "Cannot remove workspace: " ++ cause.message
  | .noWorkingDirectory => "Working directory does not exist"
  | .described message => message

inductive Fault where
  /-- A tool cannot be launched. -/
  | toolUnavailable (tool path reason : Text)
  /-- The workspace cannot be used. -/
  | workspace (problem : WorkspaceProblem) (path : Option Path)
  /-- A text file is not well-formed UTF-8. -/
  | undecodable
  /-- A text that is to be written has no UTF-8 form. -/
  | unencodable
  /-- A numeral is too long. -/
  | numeral (problem : NumeralProblem)
  /-- An amount is more than a machine can hold. -/
  | capacity (problem : CapacityProblem)
  /-- A file operation outside a workspace fails. -/
  | storage (problem : StorageProblem)
  /-- A setting should be a whole number and is not. -/
  | setting (name value : Text)
  /-- A failure without a diagnostic. -/
  | unexplained
  /-- A time limit is too large to be waited for. -/
  | endlessTimeout
  /-- Anything else that a tool runner raises. -/
  | unforeseen (description : Text)
  deriving DecidableEq, Repr

namespace Fault

def message : Fault → Text
  | .toolUnavailable tool path reason =>
    tool ++ " is unavailable at '" ++ path ++ "': " ++ reason
  | .workspace problem none => problem.message
  | .workspace problem (some path) => problem.message ++ " (" ++ path.toText ++ ")"
  | .undecodable => "the text is not UTF-8"
  | .unencodable => "the text has no UTF-8 form"
  | .numeral problem => problem.message
  | .capacity problem => problem.message
  | .storage problem => problem.message
  | .setting name value => name ++ " must be an integer, got " ++ value.quoted
  | .unexplained => "A failure result needs at least one diagnostic"
  | .endlessTimeout => "integer division result too large for a float"
  | .unforeseen description => description

/-- Whether a fault is one of the two kinds that callers expect. -/
def isOperational : Fault → Bool
  | .toolUnavailable .. | .workspace .. => true
  | _ => false

end Fault

def Fault.ofNumeral {α : Type} : Except NumeralProblem α → Except Fault α
  | .ok value => .ok value
  | .error problem => .error (.numeral problem)

end ShaderBridge
