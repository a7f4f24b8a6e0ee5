import ShaderBridge.Text.Basic
set_option autoImplicit false

/-! Command line grammar. A word that begins with a dash gives options: a long one by name, with its
value behind an equals sign or in the next word, or single letters in a row, of which one that
takes a value takes the rest of the word or, when nothing is left, the next word. Two dashes alone
end the options. -/

namespace ShaderBridge.Cli

structure OptionSpec where
  name : Text
  letter : Option Char := none
  takesValue : Bool := true
  deriving DecidableEq, Repr

inductive UsageProblem where
  | unknownOption (written : Text)
  | missingValue (name : Text)
  | surplusValue (name : Text)
  | missingArgument
  | surplusArgument (argument : Text)
  | missingCommand
  | unknownCommand (name : Text)
  | notANumber (value : Text)
  deriving DecidableEq, Repr

structure CommandWords where
  options : List (Text × Text) := []
  arguments : List Text := []
  deriving DecidableEq, Repr

namespace CommandWords

def has (words : CommandWords) (name : Text) : Bool := words.options.any (·.1 == name)

def value (words : CommandWords) (name default : Text) : Text :=
  (words.options.reverse.lookup name).getD default

end CommandWords

abbrev WordOptions := List (Text × Text) × Option Text

def readLetters (specs : List OptionSpec) : Text → Except UsageProblem WordOptions
  | [] => .ok ([], none)
  | letter :: letters =>
    match specs.find? (·.letter == some letter) with
    | none => .error (.unknownOption ['-', letter])
    | some spec =>
      if !spec.takesValue then
        (readLetters specs letters).map fun (given, open?) => ((spec.name, []) :: given, open?)
      else if letters.isEmpty then .ok ([], some spec.name)
      else .ok ([(spec.name, letters)], none)

def readWord (specs : List OptionSpec) (word : Text) : Except UsageProblem WordOptions :=
  let (name, attached) := match Text.breakOn? "=" word with
    | some (name, value) => (name, some value)
    | none => (word, none)
  match specs.find? (·.name == name), attached with
  | some spec, some value =>
    if spec.takesValue then .ok ([(spec.name, value)], none) else .error (.surplusValue spec.name)
  | some spec, none =>
    if spec.takesValue then .ok ([], some spec.name) else .ok ([(spec.name, [])], none)
  | none, _ =>
    if Text.startsWith "--" word then .error (.unknownOption name)
    else readLetters specs (word.drop 1)

def isOptionWord (word : Text) : Bool := Text.startsWith "-" word && 1 < word.length

def CommandWords.withOptions (given : List (Text × Text)) (words : CommandWords) : CommandWords :=
  { words with options := given ++ words.options }

def CommandWords.withArgument (argument : Text) (words : CommandWords) : CommandWords :=
  { words with arguments := argument :: words.arguments }

/-- Reads what is left of a command line, the first word of which is the value of `pending` if
there is such an option. -/
def readFrom (specs : List OptionSpec) (mixed : Bool) :
    (pending : Option Text) → List Text → Except UsageProblem CommandWords
  | none, [] => .ok {}
  | some name, [] => .error (.missingValue name)
  | some name, value :: words =>
    (readFrom specs mixed none words).map (·.withOptions [(name, value)])
  | none, word :: words =>
    if word = ['-', '-'] then .ok { arguments := words }
    else if isOptionWord word then do
      let (given, pending) ← readWord specs word
      (readFrom specs mixed pending words).map (·.withOptions given)
    else if mixed then (readFrom specs mixed none words).map (·.withArgument word)
    else .ok { arguments := word :: words }

/-- Reads a command line. Where options may not be mixed with arguments, the first word that gives
no option ends them. -/
def readWords (specs : List OptionSpec) (mixed : Bool) (words : List Text) :
    Except UsageProblem CommandWords :=
  readFrom specs mixed none words

end ShaderBridge.Cli
