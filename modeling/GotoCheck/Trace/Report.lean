import GotoCheck.Format.Output
import GotoCheck.Trace

/-! Traces for human readers. The report of a trace is a list of entries: a header opens each state
in which an assignment shows, and the first failed assertion ends the report. A dump shows every
step. -/
namespace GotoCheck

namespace Step

def rule : String := String.ofList (List.replicate 52 '-')

/-- Opens a state: number, place and thread, the call stack, a rule. -/
def headerText (s : Step) (location : Location) (number : Nat) : String :=
  "\nState " ++ number.repr ++ " " ++ location.text ++ " thread " ++ s.thread.repr ++ "\n" ++
    String.join (s.stack.map fun f => f ++ "\n") ++ rule ++ "\n"

/-- A value, with its number once more if it is a number of its type. -/
def valueText (names : SymbolTable) : Option Expr → String
  | none => "(assignment removed)"
  | some e =>
    e.text names ++
      match e with
      | .literal (.int v) t => if t.isBitVector then " (" ++ v.repr ++ ")" else ""
      | .literal (.fixed _) t =>
        if t.isFixed then " (" ++ (e.float?.map Binary64.text).getD "" ++ ")" else ""
      | _ => ""

/-- What is assigned to, by its display name if it is a symbol. -/
def targetText (names : SymbolTable) : Option Expr → String
  | none => ""
  | some e => e.text names

def assignmentText (names : SymbolTable) (lhs value : Option Expr) : String :=
  "  " ++ targetText names lhs ++ "=" ++ valueText names value ++ "\n"

/-- An assignment shows if it comes from an assignment or a return, or from other code that names no
left-hand side. -/
def isShown (s : Step) : Bool :=
  s.kind = .assignment &&
    (s.instruction.isAssign || s.instruction.isReturn || (s.instruction.isOther && s.lhs.isNone))

/-- The property that a failed assertion violates. -/
def violationText (names : SymbolTable) (s : Step) : String :=
  let location := s.instruction.location
  "Violated property:\n" ++
    (if location.isUnknown then "" else "  " ++ location.text ++ "\n") ++
    "  " ++ s.comment ++ "\n" ++
    (if s.instruction.isAssert then "  " ++ s.instruction.guard.text names ++ "\n" else "") ++ "\n"

end Step

/-- A part of a report. -/
inductive ReportEntry
  | header (s : Step)
  | assignment (s : Step)
  | output (s : Step)
  | renumber (s : Step)
  | violation (s : Step)

def ReportEntry.text (names : SymbolTable) : ReportEntry → String
  | header s => s.headerText s.instruction.location s.number
  | assignment s => Step.assignmentText names (s.sourceLhs.or s.lhs) s.value
  | output s => Format.expand names s.format s.arguments ++ "\n"
  | renumber s => "Renumbered pointer to " ++ Step.assignmentText names s.lhs s.value
  | violation s => s.violationText names

namespace Trace

/-- The entries of the steps, where `opened` is the number of the state that has its header
already. -/
def entriesFrom (opened : Option Nat) : List Step → List ReportEntry
  | [] => []
  | s :: rest =>
    match s.kind with
    | .assert => if s.guard then entriesFrom opened rest else [.header s, .violation s]
    | .assume | .skip => entriesFrom opened rest
    | .assignment =>
      if !s.isShown then entriesFrom opened rest
      else if opened = some s.number then .assignment s :: entriesFrom opened rest
      else .header s :: .assignment s :: entriesFrom (some s.number) rest
    | .output => .output s :: entriesFrom opened rest
    | .renumber => .renumber s :: entriesFrom opened rest

def entries (t : Trace) : List ReportEntry := entriesFrom none t.steps

/-- The report of a counterexample. -/
def report (t : Trace) (names : SymbolTable) : String :=
  String.join (t.entries.map (ReportEntry.text names))

end Trace

namespace Step

/-- The column that names the instruction in a dump. -/
def instructionTag (i : Instruction) : String :=
  match i.statement with
  | .goto => "GOTO   "
  | .assume => "ASSUME "
  | .assert => "ASSERT "
  | .other _ => "OTHER  "
  | .assign _ _ => "ASSIGN "
  | .call _ _ _ => "CALL   "
  | _ => "(?)    "

/-- The property as a dump shows it, without an empty comment. -/
def dumpedViolation (names : SymbolTable) (s : Step) : String :=
  let location := s.instruction.location
  "Violated property:\n" ++
    (if location.isUnknown then "" else "  " ++ location.text ++ "\n") ++
    (if s.comment.isEmpty then "" else "  " ++ s.comment ++ "\n") ++
    "  " ++ s.instruction.guard.text names ++ "\n\n"

/-- All about one step. -/
def dump (names : SymbolTable) (s : Step) : String :=
  let i := s.instruction
  let guarded := s.kind = .assert ∨ s.kind = .assume
  "*** " ++ s.kind.name ++ (if guarded then (if s.guard then " (true)" else " (false)") else "") ++
    "\n" ++ (if i.location.isUnknown then "" else i.location.text ++ "\n") ++
    instructionTag i ++ "\n" ++
    (if i.isOther || i.isAssign then
      "  " ++ s.identifier?.getD "" ++ " = " ++ (s.value.map (Expr.text names)).getD "" ++ "\n"
    else if i.isAssert && !s.guard then s.dumpedViolation names
    else "") ++ "\n"

end Step

def Trace.dump (t : Trace) (names : SymbolTable) : String :=
  String.join (t.steps.map (Step.dump names))

end GotoCheck
