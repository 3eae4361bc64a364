import GotoCheck.Program
import GotoCheck.Expr.Text

/-! The text of goto programs. Jumps print the numbers of their targets, so the numbering has to be
current; a target without a number prints as a question mark. -/
namespace GotoCheck

/-- What a listing shows besides the instructions. -/
structure ListingOptions where
  /-- A comment line with the location number and place. -/
  locations : Bool := true
  /-- The variables in scope, where there are any. -/
  locals : Bool := false

namespace Program

def margin : String := "        "

def locationLine (i : Instruction) : String :=
  margin ++ "// " ++ i.locationNumber.repr ++ " " ++
    (if i.location.isUnknown then "no location" else i.location.text) ++ "\n"

/-- A comment line of names, unless there are none. -/
def namesLine (title : String) (names : List String) : String :=
  if names.isEmpty then ""
  else margin ++ "// " ++ title ++ ":" ++ String.join (names.map fun n => " " ++ n) ++ "\n"

/-- The margin of an instruction, which holds the number of a jump target. -/
def label (i : Instruction) : String :=
  match i.targetNumber with
  | some n =>
    let digits := Nat.toDigits 10 n
    String.ofList (List.replicate (6 - digits.length) ' ' ++ digits) ++ ": "
  | none => margin

def targetText (p : Program) (h : Handle) : String :=
  match (p.get? h).bind Instruction.targetNumber with
  | some n => n.repr
  | none => "?"

def targetsText (p : Program) (hs : List Handle) : String :=
  ", ".intercalate (hs.map p.targetText)

def commaList (names : List String) : String := ", ".intercalate names

/-- The handlers of a catch. -/
def handlersText (p : Program) (exceptions : List String) (targets : List Handle) : String :=
  commaList ((exceptions.zip targets).map fun e => e.1 ++ "->" ++ p.targetText e.2)

def conditionText (names : SymbolTable) (keyword : String) (i : Instruction) : String :=
  keyword ++ " " ++ i.guard.text names ++
    (if i.location.comment.isEmpty then "" else " // " ++ i.location.comment)

/-- The instruction itself, without its margin. -/
def statementText (p : Program) (names : SymbolTable) (i : Instruction) : String :=
  match i.statement with
  | .unset => "NO INSTRUCTION TYPE SET"
  | .goto =>
    (if i.guard.isTrue then "" else "IF " ++ i.guard.text names ++ " THEN ") ++
      "GOTO " ++ p.targetsText i.targets
  | .call result function arguments =>
    "FUNCTION_CALL:  " ++ (result.map fun r => r.text names ++ " = ").getD "" ++
      function.text names ++ "(" ++ commaList (arguments.map (Expr.text names)) ++ ")"
  | .returns operand => "RETURN: " ++ (operand.map (Expr.text names)).getD ""
  | .assign target source => target.text names ++ " = " ++ source.text names ++ ";"
  | .decl symbol => symbol.type.text ++ " " ++ symbol.text names ++ ";"
  | .dead symbol => "dead " ++ symbol.text names ++ ";"
  | .other code => code.text names ++ ";"
  | .assume => conditionText names "ASSUME" i
  | .assert => conditionText names "ASSERT" i
  | .skip => "SKIP"
  | .endFunction => "END_FUNCTION"
  | .location => "LOCATION"
  | .throws exceptions operand =>
    "THROW" ++ ",".intercalate (exceptions.map fun e => " " ++ e) ++
      (operand.map fun e => ": " ++ e.text names).getD ""
  | .catches exceptions => "CATCH " ++ p.handlersText exceptions i.targets
  | .atomicBegin => "ATOMIC_BEGIN"
  | .atomicEnd => "ATOMIC_END"
  | .throwDecl exceptions => "THROW_DECL (" ++ commaList exceptions ++ ")"
  | .throwDeclEnd exceptions => "THROW_DECL_END (" ++ commaList exceptions ++ ")"

/-- The lines of one instruction, which need not be part of the program. -/
def instructionText (p : Program) (names : SymbolTable) (options : ListingOptions)
    (i : Instruction) : String :=
  (if options.locations then locationLine i else "") ++
  (if options.locals then namesLine "Variables" i.locals else "") ++
  namesLine "Labels" i.labels ++ label i ++ p.statementText names i ++ "\n"

def text (p : Program) (names : SymbolTable) (options : ListingOptions := {}) : String :=
  String.join (p.instructions.map (p.instructionText names options))

end Program
end GotoCheck
