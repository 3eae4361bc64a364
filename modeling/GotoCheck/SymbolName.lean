import GotoCheck.Text.Occurrence

/-! Conventions in qualified names: which symbols stand for program variables and which were made up
by the tools. -/
namespace GotoCheck.SymbolName

/-- Starts the last part of a name that the checker introduced. -/
def internalMark : String := "__GBMC"

/-- Occurs in the names of temporaries. -/
def temporaryMark : String := "::$tmp::"

/-- Ends the name of the slot that receives a function's result. -/
def returnMark : String := "#return_value"

/-- What follows the last double colon, or the whole name. -/
def lastPart : List Char → List Char
  | [] => []
  | c :: cs =>
    if Text.occursIn [':', ':'] cs then lastPart cs
    else if c = ':' ∧ cs.head? = some ':' then cs.tail
    else c :: cs

def isTemporary (name : String) : Bool := Text.contains name temporaryMark

def isReturnSlot (name : String) : Bool := returnMark.toList.isSuffixOf name.toList

def isInternal (name : String) : Bool :=
  internalMark.toList.isPrefixOf (lastPart name.toList)

/-- A variable of the checked program itself. -/
def isProgramVariable (name : String) : Bool :=
  !isTemporary name && !isReturnSlot name && !isInternal name

end GotoCheck.SymbolName
