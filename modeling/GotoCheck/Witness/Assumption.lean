import GotoCheck.Expr.Text
import GotoCheck.SymbolName
import GotoCheck.Text.Occurrence
import GotoCheck.Trace

/-! What an assignment step lets a witness assume: that the variable has the value of the model. The
printed expressions are brought into a form that other tools read. -/
namespace GotoCheck.Assumption

/-- Cuts off the decorations that renaming leaves behind a variable. -/
def plainTarget (cs : List Char) : List Char := cs.takeWhile fun c => !(c ∈ ['@', '&', '$'])

/-- Whether a text has the characters of a decimal number: at most one minus sign, then a digit or a
point, then only what numbers are written with, and a digit somewhere. -/
def isDecimal (cs : List Char) : Bool :=
  let digits := match cs with
    | '-' :: rest => rest
    | cs => cs
  digits.head?.any (fun c => c.isDigit || c = '.') && digits.any Char.isDigit &&
    digits.all fun c => c.isDigit || c ∈ ['.', 'e', 'E', '+', '-']

/-- Drops the suffix of a floating-point number. -/
def dropFloatSuffix (cs : List Char) : List Char :=
  if (cs.getLast? = some 'f' ∨ cs.getLast? = some 'F') ∧ isDecimal cs.dropLast then cs.dropLast
  else cs

/-- Closes a quotation that stands open. -/
def closeQuote (cs : List Char) : List Char :=
  if cs.count '"' % 2 = 1 then cs ++ ['"'] else cs

def plainValue (cs : List Char) : List Char :=
  closeQuote (dropFloatSuffix (cs.takeWhile (· != '@')))

/-- Marks of objects that a reader of the program does not know. -/
def privateMarks : List String := [SymbolName.internalMark, "&dynamic_", "invalid-object"]

/-- The assumption after a step that assigns to `lhs`. There is none about arrays, structures and
unions, without a value, or where objects of the checker itself occur. -/
def ofStep (names : SymbolTable) (s : Step) (lhs : Expr) : Option String :=
  if lhs.type.isArray then none
  else
    match s.value with
    | none => none
    | some value =>
      let text := String.ofList (plainTarget (lhs.text names).toList ++ [' ', '=', ' '] ++
        plainValue (value.text names).toList ++ [';'])
      let type := (s.rhs.getD value).type
      if privateMarks.any (Text.contains text) || type.isUnion || type.isStruct then none
      else some text

end GotoCheck.Assumption
