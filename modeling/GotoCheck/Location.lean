/-! Places in source files. Zero and the empty text stand for what is unknown. -/
namespace GotoCheck

structure Location where
  file : String := ""
  line : Nat := 0
  column : Nat := 0
  /-- The enclosing function. -/
  function : String := ""
  /-- A message for the reader, such as the text of a property. -/
  comment : String := ""
  /-- The class of a property. -/
  property : String := ""
deriving DecidableEq, Inhabited

namespace Location

/-- Neither a column nor a comment makes a place known. -/
def isUnknown (l : Location) : Bool :=
  l.file.isEmpty && l.line == 0 && l.function.isEmpty

/-- The known parts, in reading order. -/
def parts (l : Location) : List String :=
  (if l.file.isEmpty then [] else ["file " ++ l.file]) ++
  (if l.line = 0 then [] else ["line " ++ l.line.repr]) ++
  (if l.column = 0 then [] else ["column " ++ l.column.repr]) ++
  (if l.function.isEmpty then [] else ["function " ++ l.function])

def text (l : Location) : String := " ".intercalate l.parts

end Location
end GotoCheck
