import GotoCheck.Instruction

/-! Counterexample traces: the steps of one run, in order. Steps with the same number form one
state. -/
namespace GotoCheck

inductive StepKind
  | assert
  | assume
  | assignment
  /-- Output by the program. -/
  | output
  /-- A pointer was renumbered to a fresh object. -/
  | renumber
  /-- Of no account. -/
  | skip
deriving DecidableEq

def StepKind.name : StepKind → String
  | assert => "ASSERT"
  | assume => "ASSUME"
  | assignment => "ASSIGNMENT"
  | output => "OUTPUT"
  | renumber => "RENUMBER"
  | skip => "SKIP"

structure Step where
  kind : StepKind
  /-- The instruction that made the step. -/
  instruction : Instruction
  number : Nat
  /-- Whether the assertion or assumption holds. -/
  guard : Bool := true
  /-- The renamed left-hand side. -/
  lhs : Option Expr := none
  /-- The left-hand side of the source, shown in preference. -/
  sourceLhs : Option Expr := none
  rhs : Option Expr := none
  /-- The value in the model; none when the assignment was removed. -/
  value : Option Expr := none
  thread : Nat := 0
  /-- The active functions, the outermost first. -/
  stack : List String := []
  /-- The message of an assertion. -/
  comment : String := ""
  format : String := ""
  arguments : List Expr := []

namespace Step

def ofKind (kind : StepKind) (instruction : Instruction) (number : Nat) : Step :=
  { kind, instruction, number }

def assignment (instruction : Instruction) (number : Nat) (lhs value : Expr) : Step :=
  { kind := .assignment, instruction, number, lhs := some lhs, sourceLhs := some lhs
    value := some value }

/-- The message comes from the instruction. -/
def assertion (instruction : Instruction) (number : Nat) (guard : Bool) : Step :=
  { kind := .assert, instruction, number, guard, comment := instruction.location.comment }

def assumption (instruction : Instruction) (number : Nat) (guard : Bool) : Step :=
  { kind := .assume, instruction, number, guard }

def output (instruction : Instruction) (number : Nat) (format : String) (arguments : List Expr) :
    Step :=
  { kind := .output, instruction, number, format, arguments }

def renumber (instruction : Instruction) (number : Nat) (lhs value : Expr) : Step :=
  { kind := .renumber, instruction, number, lhs := some lhs, value := some value }

/-- A failed assertion. -/
def isViolation (s : Step) : Bool := s.kind = .assert && !s.guard

/-- The name of the assigned symbol, in the source if it is one there. -/
def identifier? (s : Step) : Option String :=
  (s.sourceLhs.bind Expr.symbolName?).or (s.lhs.bind Expr.symbolName?)

end Step

inductive TraceError
  | decreasing (previous number : Nat)

def TraceError.message : TraceError → String
  | decreasing previous number =>
    "step number " ++ number.repr ++ " follows step number " ++ previous.repr

structure Trace where
  steps : List Step

namespace Trace

def empty : Trace := ⟨[]⟩

/-- Appends a step. Numbers may repeat but never decrease. -/
def push (t : Trace) (s : Step) : Except TraceError Trace :=
  match t.steps.getLast? with
  | some last =>
    if s.number < last.number then .error (.decreasing last.number s.number)
    else .ok ⟨t.steps ++ [s]⟩
  | none => .ok ⟨[s]⟩

/-- Pushes steps in order and leaves out those that are refused. -/
def pushAll (t : Trace) : List Step → Trace
  | [] => t
  | s :: rest =>
    match t.push s with
    | .ok u => u.pushAll rest
    | .error _ => t.pushAll rest

/-- The numbers never decrease. -/
def Ascending (t : Trace) : Prop := t.steps.Pairwise fun s u => s.number ≤ u.number

end Trace
end GotoCheck
