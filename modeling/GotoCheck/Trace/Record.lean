import GotoCheck.Expr.Text
import GotoCheck.Text.Lines
import GotoCheck.Text.Quoted
import GotoCheck.Trace

/-! Trace records for graphical front ends, one field a line:

    TRACE                          FAILED
    identifier,base,type,value     comment
    step number                    (empty)
    file                           (empty)
    line                           file
    column                         line
                                   column

A bare change of place is a TRACE record with empty fields in its second line. -/
namespace GotoCheck

inductive TraceRecord
  | failed (comment file : String) (line column : Nat)
  | trace (identifier baseName family value : String) (number : Nat) (file : String)
      (line column : Nat)
deriving DecidableEq

namespace TraceRecord

/-- A record without an identifier counts as a bare change of place. -/
def isLocationOnly : TraceRecord → Bool
  | failed _ _ _ _ => false
  | trace identifier _ _ _ _ _ _ _ => identifier.isEmpty

/-- The lines of a record. -/
def lines : TraceRecord → List String
  | failed comment file line column => ["FAILED", comment, "", "", file, line.repr, column.repr]
  | trace identifier baseName family value number file line column =>
    ["TRACE", identifier ++ "," ++ baseName ++ "," ++ family ++ "," ++ value, number.repr, file,
      line.repr, column.repr]

def text (r : TraceRecord) : String := String.join (r.lines.map fun l => l ++ "\n")

/-- Why a text is no row of records. -/
inductive Fault
  | truncated
  | missing (part : String)
  | expectedNumber (found : String)
  | expectedKeyword (found : String)
deriving DecidableEq

def Fault.message : Fault → String
  | truncated => "record is truncated"
  | missing part => "missing " ++ part
  | expectedNumber found => "expected a number, found " ++ Text.quoted found
  | expectedKeyword found => "expected TRACE or FAILED, found " ++ Text.quoted found

/-- A fault with the line where it shows, counted from 1. -/
structure ParseError where
  line : Nat
  fault : Fault
deriving DecidableEq

def ParseError.message (e : ParseError) : String :=
  "GUI trace line " ++ e.line.repr ++ ": " ++ e.fault.message

/-- The line `k` places after the keyword in line `n`, where `rest` follows the keyword. -/
def fieldAt (n : Nat) (rest : List String) (k : Nat) : Except ParseError String :=
  match rest[k - 1]? with
  | some s => .ok s
  | none => .error ⟨n + k, .truncated⟩

def numberAt (n : Nat) (rest : List String) (k : Nat) : Except ParseError Nat := do
  let s ← fieldAt n rest k
  match Text.word32? s with
  | some v => .ok v
  | none => .error ⟨n + k, .expectedNumber s⟩

/-- What stands before the first comma and after it. -/
def cutComma : List Char → Option (List Char × List Char)
  | [] => none
  | ',' :: rest => some ([], rest)
  | c :: rest => (cutComma rest).map fun p => (c :: p.1, p.2)

/-- The four parts of the second line of a TRACE record; only the last may hold commas. -/
def readParts (line : String) : Except Fault (String × String × String × String) :=
  match cutComma line.toList with
  | none => .error (.missing "base name")
  | some (a, rest) =>
    match cutComma rest with
    | none => .error (.missing "type id")
    | some (b, rest) =>
      match cutComma rest with
      | none => .error (.missing "value")
      | some (c, d) => .ok (.ofList a, .ofList b, .ofList c, .ofList d)

/-- The record whose keyword FAILED stands in line `n`. -/
def readFailed (n : Nat) (rest : List String) : Except ParseError TraceRecord := do
  let comment ← fieldAt n rest 1
  let file ← fieldAt n rest 4
  let line ← numberAt n rest 5
  let column ← numberAt n rest 6
  return .failed comment file line column

/-- The record whose keyword TRACE stands in line `n`. -/
def readTrace (n : Nat) (rest : List String) : Except ParseError TraceRecord := do
  let header ← fieldAt n rest 1
  match readParts header with
  | .error fault => .error ⟨n + 1, fault⟩
  | .ok (identifier, baseName, family, value) =>
    let number ← numberAt n rest 2
    let file ← fieldAt n rest 3
    let line ← numberAt n rest 4
    let column ← numberAt n rest 5
    return .trace identifier baseName family value number file line column

/-- Reads records from lines, the first of which has number `n`. Empty lines between records count
for nothing. -/
def readLines (n : Nat) : List String → Except ParseError (List TraceRecord)
  | [] => .ok []
  | l :: rest =>
    if l = "" then readLines (n + 1) rest
    else if l = "FAILED" then
      match readFailed n rest with
      | .error e => .error e
      | .ok r => (r :: ·) <$> readLines (n + 7) (rest.drop 6)
    else if l = "TRACE" then
      match readTrace n rest with
      | .error e => .error e
      | .ok r => (r :: ·) <$> readLines (n + 6) (rest.drop 5)
    else .error ⟨n, .expectedKeyword l⟩
termination_by ls => ls.length
decreasing_by all_goals simp only [List.length_cons, List.length_drop]; omega

/-- Reads what `Trace.recordText` writes. -/
def parse (text : String) : Except ParseError (List TraceRecord) := readLines 1 (Text.lines text)

end TraceRecord

namespace Step

/-- The record of an assignment. A removed value leaves the type of the left-hand side. -/
def assignmentRecord (names : SymbolTable) (s : Step) : TraceRecord :=
  let identifier := s.identifier?.getD ""
  let location := s.instruction.location
  .trace identifier (names.baseName identifier)
    (((s.value.or s.lhs).map fun e => e.type.family).getD "")
    ((s.value.map (Expr.text names)).getD "") s.number location.file location.line location.column

/-- The record of a step after a step at `previous`: for a failed assertion, an assignment, or a
change of place into a known file. -/
def record? (names : SymbolTable) (previous : Location) (s : Step) : Option TraceRecord :=
  let location := s.instruction.location
  if s.isViolation then some (.failed s.comment location.file location.line location.column)
  else if s.kind = .assignment then some (s.assignmentRecord names)
  else if location ≠ previous ∧ ¬ location.file.isEmpty then
    some (.trace "" "" "" "" s.number location.file location.line location.column)
  else none

end Step

namespace Trace

def recordsFrom (names : SymbolTable) (previous : Location) : List Step → List TraceRecord
  | [] => []
  | s :: rest =>
    (s.record? names previous).toList ++ recordsFrom names s.instruction.location rest

/-- The records of a trace, which starts at no place. -/
def records (t : Trace) (names : SymbolTable) : List TraceRecord :=
  recordsFrom names {} t.steps

def recordText (t : Trace) (names : SymbolTable) : String :=
  String.join ((t.records names).map TraceRecord.text)

end Trace
end GotoCheck
