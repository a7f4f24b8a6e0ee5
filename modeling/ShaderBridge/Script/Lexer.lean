import ShaderBridge.Script.Syntax
set_option autoImplicit false

namespace ShaderBridge.Script

inductive Open where
  | quotes
  | braces
  | parenthesis
  | expression
  | backQuotes
  deriving DecidableEq, Repr

/-- The wording of a problem with a script that ends too early. -/
def Open.message : Open → Text
  | .quotes => "Unterminated quoted string"
  | .braces => "Missing '\x7d'"
  | .parenthesis => "end of file unexpected (expecting \")\")"
  | .expression => "Missing '))'"
  | .backQuotes => "EOF in backquote substitution"

/-- A token: a word, an operator, or the operator of a redirection with its descriptor. Behind
something that is left open there are no tokens. -/
inductive TokenKind where
  | word (word : Word)
  | operator (text : Text)
  | redirect (descriptor : Option Nat) (operator : Text)
  | unfinished (what : Open)
  deriving DecidableEq, Repr

structure Token where
  kind : TokenKind
  line : Nat
  deriving DecidableEq, Repr

def doubleQuoted (text : Text) : Text := "\"" ++ text ++ "\""

def TokenKind.description : TokenKind → Text
  | .operator text => if text = ['\n'] then "newline" else doubleQuoted text
  | .word [.plain text false] =>
    let reserved : List String :=
      ["then", "else", "elif", "fi", "do", "done", "esac", "\x7d", "in", "\x7b", "!"]
    if reserved.contains (String.ofList text) then doubleQuoted text else "word"
  | .word _ => "word"
  | .redirect .. => "redirection"
  | .unfinished what => what.message

def isNameChar (char : Char) : Bool := char.isAlphanum || char == '_'

def isName (text : Text) : Bool :=
  !text.isEmpty && text.all isNameChar && !(text.head?.any Char.isDigit)

def isWordEnd (char : Char) : Bool := char ∈ [' ', '\t', '\n', ';', '&', '|', '<', '>', '(', ')']

def isWordMark (char : Char) : Bool := char ∈ ['\'', '"', '\\', '$', '\x60']

/-- The text up to the character that closes what is open `depth` times, and the text behind it, or
what is still open at the end; `quote` is the quote that is open. -/
def closing (opener closer : Char) (what : Open) : (depth : Nat) → (quote : Option Char) → Text →
    Except Open (Text × Text)
  | _, quote, [] => .error (if quote.isSome then .quotes else what)
  | depth, some '\'', char :: text =>
    (closing opener closer what depth (if char = '\'' then none else some '\'') text).map
      fun (inside, rest) => (char :: inside, rest)
  | depth, quote, '\\' :: char :: text =>
    (closing opener closer what depth quote text).map fun (inside, rest) =>
      ('\\' :: char :: inside, rest)
  | depth, some quote, char :: text =>
    (closing opener closer what depth (if char = quote then none else some quote) text).map
      fun (inside, rest) => (char :: inside, rest)
  | depth, none, char :: text =>
    if char = closer then
      match depth with
      | 0 | 1 => .ok ([], text)
      | depth + 1 => (closing opener closer what depth none text).map
          fun (inside, rest) => (char :: inside, rest)
    else
      let depth := if char = opener then depth + 1 else depth
      let quote := if char = '\'' ∨ char = '"' then some char else none
      (closing opener closer what depth quote text).map fun (inside, rest) => (char :: inside, rest)

def backQuoted (quoted : Bool) : Text → Except Open (Text × Text)
  | [] => .error .backQuotes
  | '\x60' :: text => .ok ([], text)
  | '\\' :: char :: text =>
    let isEscape := char ∈ ['\x60', '\\', '$'] || (quoted && char = '"')
    let escaped := if isEscape then [char] else ['\\', char]
    (backQuoted quoted text).map fun (inside, rest) => (escaped ++ inside, rest)
  | char :: text => (backQuoted quoted text).map fun (inside, rest) => (char :: inside, rest)

def readEdit : Text → Option Edit
  | [] => none
  | ':' :: '-' :: word => some (.otherwise true word)
  | '-' :: word => some (.otherwise false word)
  | ':' :: '=' :: word => some (.assign true word)
  | '=' :: word => some (.assign false word)
  | ':' :: '+' :: word => some (.instead true word)
  | '+' :: word => some (.instead false word)
  | ':' :: '?' :: word => some (.demand true word)
  | '?' :: word => some (.demand false word)
  | '%' :: '%' :: pattern => some (.dropEnd true pattern)
  | '%' :: pattern => some (.dropEnd false pattern)
  | '#' :: '#' :: pattern => some (.dropStart true pattern)
  | '#' :: pattern => some (.dropStart false pattern)
  | _ => some .bad

def readParameter (inBraces : Bool) : Text → Option (Text × Text)
  | [] => none
  | char :: text =>
    if char.isDigit then
      let more := if inBraces then text.takeWhile Char.isDigit else []
      some (char :: more, text.drop more.length)
    else if isNameChar char then
      some ((char :: text).takeWhile isNameChar, (char :: text).dropWhile isNameChar)
    else if char ∈ ['@', '*', '#', '?', '-', '$', '!'] then some ([char], text)
    else none

def readBraces (quoted : Bool) (inside : Text) : Part :=
  let length? : Option Part := match inside with
    | '#' :: char :: name => do
      let (name, rest) ← readParameter true (char :: name)
      if rest.isEmpty then some (.parameter name (some .length) quoted) else none
    | _ => none
  match length?, readParameter true inside with
  | some part, _ => part
  | none, some (name, rest) => .parameter name (readEdit rest) quoted
  | none, none => .parameter [] (some .bad) quoted

/-- What a dollar sign on a line stands for, given the text behind it; the line on which the text
behind that begins comes last. -/
def readDollar (quoted : Bool) (line : Nat) (text : Text) : Except Open (Part × Text × Nat) :=
  let after (inside : Text) : Nat := line + inside.count '\n'
  match text with
  | '(' :: '(' :: text => do
    let (inside, rest) ← (closing '(' ')' .expression 2 none text).mapError fun _ => .expression
    if Text.endsWith ")" inside then
      return (.number inside.dropLast quoted, rest, after inside)
    else throw .expression
  | '(' :: text => do
    let (inside, rest) ← closing '(' ')' .parenthesis 1 none text
    return (.output line inside quoted, rest, after inside)
  | '{' :: text => do
    let (inside, rest) ← closing '{' '}' .braces 1 none text
    return (readBraces quoted inside, rest, after inside)
  | _ =>
    match readParameter false text with
    | some (name, rest) => .ok (.parameter name none quoted, rest, line)
    | none => .ok (.plain ['$'] quoted, text, line)

def readBackQuotes (quoted : Bool) (line : Nat) (text : Text) :
    Except Open (Part × Text × Nat) := do
  let (script, rest) ← backQuoted quoted text
  return (.output 1 script quoted, rest, line + script.count '\n')

/-- The parts of a text in double quotes, the text behind the closing quote, and its line, when at
most `bound` parts are read. Without `closed` the text is read to its end and a quote is a
character. -/
def readQuoted (closed : Bool) : (bound line : Nat) → Text → Except Open (Word × Text × Nat)
  | 0, _, _ => .error .quotes
  | _ + 1, line, [] => if closed then .error .quotes else .ok ([], [], line)
  | bound + 1, line, char :: text => do
    if char = '"' && closed then return ([], text, line)
    let (part, rest, next) ← match char, text with
      | '\\', next :: text =>
        if next ∈ ['$', '\x60', '\\'] || (next = '"' && closed) then
          pure (Part.plain [next] true, text, line)
        else if next = '\n' then pure (Part.plain [] true, text, line + 1)
        else pure (Part.plain ['\\', next] true, text, line)
      | '$', text =>
        match readDollar true line text with
        | .error .braces => throw (if closed then .quotes else .braces)
        | outcome => outcome
      | '\x60', text => readBackQuotes true line text
      | char, text => pure (Part.plain [char] true, text, if char = '\n' then line + 1 else line)
    let (parts, rest, last) ← readQuoted closed bound next rest
    return (part :: parts, rest, last)

/-- The parts of the word that a text begins with, the text behind it, and its line, when at most
`bound` parts are read. -/
def readWordParts : (bound line : Nat) → Text → Except Open (Word × Text × Nat)
  | 0, _, _ => .error .quotes
  | _ + 1, line, [] => .ok ([], [], line)
  | bound + 1, line, char :: text => do
    if isWordEnd char then return ([], char :: text, line)
    let (parts, rest, next) ← match char, text with
      | '\'', text =>
        let inside := text.takeWhile (· != '\'')
        if inside.length < text.length then
          pure ([Part.plain inside true], text.drop (inside.length + 1),
            line + inside.count '\n')
        else throw .quotes
      | '"', text => do
        let (parts, rest, next) ← readQuoted true bound line text
        pure (if parts.isEmpty then [Part.plain [] true] else parts, rest, next)
      | '\\', next :: text =>
        if next = '\n' then pure ([], text, line + 1)
        else pure ([Part.plain [next] true], text, line)
      | '$', text => do
        let (part, rest, next) ← readDollar false line text
        pure ([part], rest, next)
      | '\x60', text => do
        let (part, rest, next) ← readBackQuotes false line text
        pure ([part], rest, next)
      | char, text =>
        let inside (next : Char) : Bool := !isWordEnd next && !isWordMark next
        pure ([Part.plain (char :: text.takeWhile inside) false], text.dropWhile inside, line)
    let (more, rest, last) ← readWordParts bound next rest
    return (parts ++ more, rest, last)

def operators : List Text := ["&&", "||", ";;", ";", "&", "|", "(", ")"].map String.toList

def redirectOperators : List Text :=
  ["<<-", "<<", ">>", ">&", "<&", ">|", "<", ">"].map String.toList

def firstOf (candidates : List Text) (text : Text) : Option (Text × Text) :=
  candidates.findSome? fun candidate => (Text.after? candidate text).map (candidate, ·)

/-- A text that stands in the lines below a command: the line that ends it, whether it is kept as
it is, and whether leading tabs are dropped. -/
structure InlineMark where
  delimiter : Text
  literal : Bool
  stripped : Bool
  deriving DecidableEq, Repr

/-- The text up to the line that ends it, and the lines behind that. A text that no line ends goes
on to the end. -/
def inlineText (mark : InlineMark) (lines : List Text) : Text × List Text :=
  let stripped (line : Text) : Text :=
    if mark.stripped then line.dropWhile (· == '\t') else line
  let body := lines.takeWhile fun line => stripped line != mark.delimiter
  let rest := lines.drop body.length
  let written := body.map stripped
  if rest.isEmpty then (List.intercalate ['\n'] written, [])
  else (written.flatMap (· ++ ['\n']), rest.drop 1)

def readInline : List InlineMark → (line : Nat) → Text → Except Open (List Word × Text × Nat)
  | [], line, text => .ok ([], text, line)
  | mark :: marks, line, text => do
    let lines := text.splitOn '\n'
    let (content, after) := inlineText mark lines
    let word ←
      if mark.literal then pure [Part.plain content true]
      else pure (← readQuoted false (content.length + 1) line content).1
    let next := line + (lines.length - after.length)
    let (words, rest, last) ← readInline marks next (List.intercalate ['\n'] after)
    return (word :: words, rest, last)

def plainText (word : Word) : Text :=
  word.flatMap fun
    | .plain text _ => text
    | _ => []

def inlineMark (operator : Text) (word : Word) : InlineMark :=
  { delimiter := plainText word
    literal := word.any fun
      | .plain _ quoted => quoted
      | _ => false
    stripped := operator == "<<-".toList }

def isInline (operator : Text) : Bool := Text.startsWith "<<" operator

abbrev Tokens := List Token × List Word

/-- The tokens of a script and its inline texts, when at most `bound` tokens are read. `marks` are
the inline texts that begin below this line, and `opened` is the operator of one whose delimiter
comes next. -/
def readTokens : (bound line : Nat) → (marks : List InlineMark) → (opened : Option Text) → Text →
    Tokens
  | 0, _, _, _, _ => ([], [])
  | _ + 1, line, marks, _, [] =>
    match readInline marks line [] with
    | .ok (inline, _, _) => ([], inline)
    | .error what => ([⟨.unfinished what, line⟩], [])
  | bound + 1, line, marks, opened, '\n' :: text =>
    match readInline marks (line + 1) text with
    | .ok (inline, rest, next) =>
      let (tokens, more) := readTokens bound next [] opened rest
      (⟨.operator ['\n'], line⟩ :: tokens, inline ++ more)
    | .error what => ([⟨.unfinished what, line + text.count '\n'⟩], [])
  | bound + 1, line, marks, opened, '\\' :: '\n' :: text =>
    readTokens bound (line + 1) marks opened text
  | bound + 1, line, marks, opened, char :: text =>
    if char = ' ' ∨ char = '\t' then readTokens bound line marks opened text
    else if char = '#' then readTokens bound line marks opened (text.dropWhile (· != '\n'))
    else
      match firstOf operators (char :: text) with
      | some (operator, text) =>
        let (tokens, inline) := readTokens bound line marks opened text
        (⟨.operator operator, line⟩ :: tokens, inline)
      | none =>
        let digits := (char :: text).takeWhile Char.isDigit
        match firstOf redirectOperators ((char :: text).drop digits.length) with
        | some (operator, text) =>
          let descriptor := if digits.isEmpty then none else (String.ofList digits).toNat?
          let opened := if isInline operator then some operator else none
          let (tokens, inline) := readTokens bound line marks opened text
          (⟨.redirect descriptor operator, line⟩ :: tokens, inline)
        | none =>
          match readWordParts (text.length + 2) line (char :: text) with
          | .error what =>
            let last := if what = .braces then line else line + text.count '\n'
            ([⟨.unfinished what, last⟩], [])
          | .ok (word, rest, next) =>
            let marks := match opened with
              | some operator => marks ++ [inlineMark operator word]
              | none => marks
            let (tokens, inline) := readTokens bound next marks none rest
            (⟨.word word, line⟩ :: tokens, inline)

def tokenize (line : Nat) (script : Text) : Tokens :=
  readTokens (script.length + 2) line [] none script

end ShaderBridge.Script
