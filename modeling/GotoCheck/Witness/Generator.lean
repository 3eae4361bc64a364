import GotoCheck.Directory
import GotoCheck.Source.Token
import GotoCheck.Witness
import GotoCheck.Witness.Assumption

/-! Witnesses of traces. Every assignment of the checked program to a variable of its own becomes
one link, and the violation is the last. Source files are read once each. -/
namespace GotoCheck

/-- The left-hand side of an assignment that a witness shows: in user code, to a variable that is no
temporary. -/
def Step.shownTarget? (s : Step) : Option Expr :=
  let place := s.instruction.location.text
  if s.kind = .assignment ∧ !Text.contains place "built-in" ∧ !Text.contains place "library" then
    s.lhs.filter fun e => e.symbolName?.any fun n => !SymbolName.isTemporary n
  else none

/-- The function of a step, without the mark of the language before its name. -/
def Step.functionName (s : Step) : String :=
  match s.instruction.function.toList with
  | 'c' :: ':' :: ':' :: rest => String.ofList rest
  | cs => String.ofList cs

namespace Trace

/-- The assignments that a witness shows, each with its left-hand side. -/
def shownAssignments (t : Trace) : List (Step × Expr) :=
  t.steps.filterMap fun s => s.shownTarget?.map fun e => (s, e)

end Trace

namespace WitnessNotes

/-- The numbers of some tokens, first and last, or the number of the only one. -/
def rangeText : List (Nat × String) → Option String
  | [] => none
  | [t] => some t.1.repr
  | t :: u :: rest => some (t.1.repr ++ "," ++ ((u :: rest).getLast (by simp)).1.repr)

def codeText (tokens : List (Nat × String)) : Option String :=
  if tokens.isEmpty then none else some (" ".intercalate (tokens.map Prod.snd))

/-- The notes on a step; `current` is the function of the step before it, and `tokens` are those of
its line. -/
def ofStep (names : SymbolTable) (current : String) (tokens : List (Nat × String))
    (s : Step) (lhs : Expr) : WitnessNotes :=
  let place := s.instruction.location
  let line := if place.line = 0 then none else some place.line
  { originFile := if place.file.isEmpty then none else some place.file
    assumption := Assumption.ofStep names s lhs
    enterFunction := if s.functionName = current then none else some s.functionName
    startLine := line
    endLine := line
    tokens := rangeText tokens
    sourceCode := codeText tokens }

end WitnessNotes

/-- The source files seen so far, by name; none for one that could not be read. -/
structure SourceCache where
  files : NameMap (Option (List Source.LineTokens))

namespace SourceCache

def empty : SourceCache := ⟨.empty⟩

/-- The tokens of a file, which is read only the first time. -/
def lines (c : SourceCache) (d : Directory) (file : String) :
    SourceCache × Option (List Source.LineTokens) :=
  match c.files.get? file with
  | some found => (c, found)
  | none =>
    let found := (d.read? file).map Source.linesOfBytes
    (⟨c.files.insert file found⟩, found)

/-- The tokens at a place in a file. A place without file or line has none and reads nothing. -/
def tokensAt (c : SourceCache) (d : Directory) (place : Location) :
    SourceCache × List (Nat × String) :=
  if place.line = 0 ∨ place.file.isEmpty then (c, [])
  else
    let (c, found) := c.lines d place.file
    (c, (found.map (Source.tokensOn place.line)).getD [])

end SourceCache

structure WitnessGenerator where
  names : SymbolTable
  config : WitnessConfig
  cache : SourceCache := .empty

namespace WitnessGenerator

/-- The notes on assignments in order; `current` is the function of the one before them. -/
def notes (names : SymbolTable) (d : Directory) (c : SourceCache) (current : String) :
    List (Step × Expr) → SourceCache × List WitnessNotes
  | [] => (c, [])
  | (s, lhs) :: rest =>
    let (c, tokens) := c.tokensAt d s.instruction.location
    let (last, later) := notes names d c s.functionName rest
    (last, WitnessNotes.ofStep names current tokens s lhs :: later)

/-- The witness of a trace, and the generator with all files that it has read. -/
def generate (g : WitnessGenerator) (d : Directory) (t : Trace) : WitnessGenerator × Witness :=
  let (cache, found) := notes g.names d g.cache "" t.shownAssignments
  ({ g with cache }, (found.foldl Witness.extend (.start g.config)).finish)

end WitnessGenerator

namespace Trace

/-- Generates the witness of a trace and writes it to a file. -/
def saveWitness (t : Trace) (names : SymbolTable) (config : WitnessConfig) (d : Directory)
    (path : String) : Except WriteError (Directory × Witness) :=
  let (_, w) := ({ names, config } : WitnessGenerator).generate d t
  (d.save path w.text).map fun saved => (saved, w)

end Trace
end GotoCheck
