import ShaderBridge.Text.Basic
set_option autoImplicit false

/-! Amounts that no machine can hold. An index is a word of 64 bits with a sign; a row of bytes
has a header that is counted as well; and memory ends before the indices do. An amount is judged
before anything is made of it, so a refused amount costs nothing. -/

namespace ShaderBridge

inductive CapacityProblem where
  /-- The amount is no index. -/
  | beyondIndex
  /-- The amount of bytes is no index once the header of the row is added. -/
  | beyondRow
  /-- The amount to be read is below -1, which alone asks for everything. -/
  | negative
  /-- No memory is large enough. -/
  | beyondMemory
  deriving DecidableEq, Repr

namespace CapacityProblem

def message : CapacityProblem → Text
  | .beyondIndex => "cannot fit 'int' into an index-sized integer"
  | .beyondRow => "byte string is too large"
  | .negative => "read length must be non-negative or -1"
  | .beyondMemory => []

def indexBound : Int := Int.pow 2 63

def memoryBound : Int := Int.pow 2 36

def rowHeader : Int := 33

def referenceSize : Int := 8

def ofIndex? (index : Int) : Option CapacityProblem :=
  if -indexBound ≤ index ∧ index < indexBound then none else some .beyondIndex

def ofFileRead? (amount : Int) : Option CapacityProblem :=
  (ofIndex? amount).orElse fun _ =>
    if amount < -1 then some .negative
    else if indexBound - rowHeader ≤ amount then some .beyondRow
    else if memoryBound < amount then some .beyondMemory
    else none

def ofListLength? (entries : Int) : Option CapacityProblem :=
  (ofIndex? entries).orElse fun _ =>
    if memoryBound < entries * referenceSize then some .beyondMemory else none

end CapacityProblem
end ShaderBridge
