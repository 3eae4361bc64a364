import GotoCheck.Expr
import GotoCheck.Location

/-! Instructions of goto programs. Jump targets are handles, so that editing a program never
changes what a jump means. -/
namespace GotoCheck

/-- Names an instruction by its program's tag and its slot there. A slot is used once, so a handle
never comes to mean another instruction. -/
structure Handle where
  program : Nat
  slot : Nat
deriving DecidableEq, Inhabited

def Handle.text (h : Handle) : String := h.program.repr ++ ":" ++ h.slot.repr

/-- Faults of programs and of function tables. -/
inductive ProgramError
  | danglingTarget (target : Handle)
  | unnumberedTarget (instruction target : Handle)
  | notInProgram (instruction : Handle)
  | missingFunction (name : String)
  | malformedBackEdge (instruction : Handle) (targets : Nat)
  | unknownLoopHead (locationNumber : Nat)
deriving DecidableEq

def ProgramError.message : ProgramError → String
  | danglingTarget t => "copy_from: target " ++ t.text ++ " not found"
  | unnumberedTarget i t =>
    "instruction " ++ i.text ++ " refers to target " ++ t.text ++ " which has no target number"
  | notInProgram i => "instruction " ++ i.text ++ " does not belong to this program"
  | missingFunction name => "failed to find `" ++ name ++ "' in function_map"
  | malformedBackEdge i n =>
    "backwards goto " ++ i.text ++ " has " ++ n.repr ++ " targets, expected exactly one"
  | unknownLoopHead n => "loop head at location " ++ n.repr ++ " is not a numbered target"

/-- What an instruction does, with the code it carries. -/
inductive Statement
  /-- Not set yet. -/
  | unset
  /-- Branches to the targets when the guard holds. -/
  | goto
  | assume
  | assert
  | other (code : Expr)
  | skip
  | location
  | endFunction
  | atomicBegin
  | atomicEnd
  | returns (operand : Option Expr)
  | assign (target source : Expr)
  | decl (symbol : Expr)
  | dead (symbol : Expr)
  | call (result : Option Expr) (function : Expr) (arguments : List Expr)
  | throws (exceptions : List String) (operand : Option Expr)
  /-- The handler of each exception is the target at the same place. -/
  | catches (exceptions : List String)
  | throwDecl (exceptions : List String)
  | throwDeclEnd (exceptions : List String)

def Statement.name : Statement → String
  | unset => "NO_INSTRUCTION_TYPE"
  | goto => "GOTO"
  | assume => "ASSUME"
  | assert => "ASSERT"
  | other _ => "OTHER"
  | skip => "SKIP"
  | location => "LOCATION"
  | endFunction => "END_FUNCTION"
  | atomicBegin => "ATOMIC_BEGIN"
  | atomicEnd => "ATOMIC_END"
  | returns _ => "RETURN"
  | assign _ _ => "ASSIGN"
  | decl _ => "DECL"
  | dead _ => "DEAD"
  | call _ _ _ => "FUNCTION_CALL"
  | throws _ _ => "THROW"
  | catches _ => "CATCH"
  | throwDecl _ => "THROW_DECL"
  | throwDeclEnd _ => "THROW_DECL_END"

structure Instruction where
  statement : Statement := .unset
  /-- The condition of a goto, an assumption or an assertion. -/
  guard : Expr := .ofBool true
  targets : List Handle := []
  location : Location := {}
  /-- The enclosing function. -/
  function : String := ""
  labels : List String := []
  /-- Variables in scope, for display only. -/
  locals : List String := []
  /-- A number from 1, if some instruction jumps here. -/
  targetNumber : Option Nat := none
  locationNumber : Nat := 0
  loopNumber : Nat := 0

instance : Inhabited Instruction := ⟨{}⟩

namespace Instruction

def ofStatement (s : Statement) : Instruction := { statement := s }

def goto (guard : Expr) (target : Handle) : Instruction :=
  { statement := .goto, guard, targets := [target] }

def assign (target source : Expr) : Instruction := { statement := .assign target source }

def call (result : Option Expr) (function : Expr) (arguments : List Expr) : Instruction :=
  { statement := .call result function arguments }

def endFunction : Instruction := { statement := .endFunction }

/-- Some instruction jumps here, as of the last numbering. -/
def isTarget (i : Instruction) : Bool := i.targetNumber.isSome

def isGoto (i : Instruction) : Bool :=
  match i.statement with
  | .goto => true
  | _ => false

def isAssume (i : Instruction) : Bool :=
  match i.statement with
  | .assume => true
  | _ => false

def isAssert (i : Instruction) : Bool :=
  match i.statement with
  | .assert => true
  | _ => false

def isAssign (i : Instruction) : Bool :=
  match i.statement with
  | .assign _ _ => true
  | _ => false

def isCall (i : Instruction) : Bool :=
  match i.statement with
  | .call _ _ _ => true
  | _ => false

def isReturn (i : Instruction) : Bool :=
  match i.statement with
  | .returns _ => true
  | _ => false

def isThrow (i : Instruction) : Bool :=
  match i.statement with
  | .throws _ _ => true
  | _ => false

def isCatch (i : Instruction) : Bool :=
  match i.statement with
  | .catches _ => true
  | _ => false

def isSkip (i : Instruction) : Bool :=
  match i.statement with
  | .skip => true
  | _ => false

def isEndFunction (i : Instruction) : Bool :=
  match i.statement with
  | .endFunction => true
  | _ => false

def isOther (i : Instruction) : Bool :=
  match i.statement with
  | .other _ => true
  | _ => false

/-- Replaces every target, and fails at the first that has no image. -/
def retarget (image : Handle → Option Handle) (i : Instruction) :
    Except ProgramError Instruction := do
  let targets ← i.targets.mapM fun t =>
    match image t with
    | some u => .ok u
    | none => .error (.danglingTarget t)
  return { i with targets }

end Instruction
end GotoCheck
