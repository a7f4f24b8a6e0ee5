import ShaderBridge.Text.Pattern
import ShaderBridge.World
set_option autoImplicit false

/-! Printing. Terminal codes, which colour text or move the cursor, are left out of what is printed,
because the output need not be a terminal. -/

namespace ShaderBridge.Cli

def codeEnd : Scan
  | [] => none
  | char :: text => if char.isAlpha then some text else none

def terminalCode : Scan :=
  Scan.literal ['\x1b', '['] >=>
    Scan.zeroOrMore (fun char => char == ';' || char == '?' || char.isDigit) >=> codeEnd

def withoutTerminalCodes (text : Text) : Text := terminalCode.anywhere.remove text

def printText {σ : Type} (text : Text) : Action σ Unit := Action.print (withoutTerminalCodes text)

def printLine {σ : Type} (line : Text) : Action σ Unit := printText (line ++ ['\n'])

end ShaderBridge.Cli
