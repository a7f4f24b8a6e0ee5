import ShaderBridge.Text.Basic
set_option autoImplicit false

/-! Scripts of the command shell: words with their expansions, redirections and commands. What
stands inside a command substitution or behind an edit of a parameter is kept as text and read
when it is expanded. -/

namespace ShaderBridge.Script

/-- How the value of a parameter is edited. `whenEmpty` says that an empty value counts as none. -/
inductive Edit where
  | length
  | otherwise (whenEmpty : Bool) (word : Text)
  | assign (whenEmpty : Bool) (word : Text)
  | instead (whenEmpty : Bool) (word : Text)
  /-- A word to complain with. -/
  | demand (whenEmpty : Bool) (word : Text)
  | dropEnd (longest : Bool) (pattern : Text)
  | dropStart (longest : Bool) (pattern : Text)
  /-- No edit that there is. -/
  | bad
  deriving DecidableEq, Repr

/-- A part of a word. What is quoted is neither cut into fields nor taken for a pattern. -/
inductive Part where
  | plain (text : Text) (quoted : Bool)
  | parameter (name : Text) (edit : Option Edit) (quoted : Bool)
  /-- What a script prints; its first line has a number. -/
  | output (line : Nat) (script : Text) (quoted : Bool)
  /-- The value of an expression. -/
  | number (expression : Text) (quoted : Bool)
  deriving DecidableEq, Repr

abbrev Word := List Part

inductive Direction where
  | input
  | output
  | append
  | duplicate
  /-- The target is the text itself. -/
  | inline
  deriving DecidableEq, Repr

structure Redirection where
  descriptor : Nat
  direction : Direction
  target : Word
  deriving DecidableEq, Repr

structure SimpleCommand where
  line : Nat
  assignments : List (Text × Word)
  words : List Word
  redirections : List Redirection
  deriving DecidableEq, Repr

inductive Command where
  | simple (command : SimpleCommand)
  | pipeline (negated : Bool) (stages : List Command)
  | both (first second : Command)
  | either (first second : Command)
  | sequence (commands : List Command)
  | background (command : Command)
  | subshell (body : Command)
  /-- A loop that runs while its condition succeeds, or until it does. -/
  | loop (untilSuccess : Bool) (condition body : Command)
  /-- A loop over words, over the arguments when there are none. -/
  | each (name : Text) (words : Option (List Word)) (body : Command)
  | conditional (condition yes : Command) (no : Option Command)
  | choice (subject : Word) (branches : List (List Word × Command))
  | function (name : Text) (body : Command)
  | redirected (body : Command) (redirections : List Redirection)

def keywords : List Text :=
  ["!", "case", "do", "done", "elif", "else", "esac", "fi", "for", "if", "then", "until", "while",
    "\x7b", "\x7d"].map String.toList

/-- Commands of the shell that end the script when they fail, and whose settings last. -/
def specialCommands : List Text :=
  [":", ".", "break", "continue", "eval", "exec", "exit", "export", "local", "readonly", "return",
    "set", "shift", "times", "trap", "unset"].map String.toList

end ShaderBridge.Script
