import GotoCheck.NameMap
import GotoCheck.Program.Numbering
import GotoCheck.Program.Listing

/-! The functions of a program, by qualified name. Numberings go through the table in name order. -/
namespace GotoCheck

structure FunctionEntry where
  body : Program
  /-- A declaration without a definition has no body to look into. -/
  isAvailable : Bool := true
  type : Option CType := none

instance : Inhabited FunctionEntry := ⟨{ body := default }⟩

structure FunctionTable where
  functions : NameMap FunctionEntry

namespace FunctionTable

def empty : FunctionTable := ⟨.empty⟩

def get? (t : FunctionTable) (name : String) : Option FunctionEntry := t.functions.get? name

def insert (t : FunctionTable) (name : String) (f : FunctionEntry) : FunctionTable :=
  ⟨t.functions.insert name f⟩

/-- Changes the body of one function. -/
def modifyBody (t : FunctionTable) (name : String) (f : Program → Program) : FunctionTable :=
  ⟨t.functions.modify name fun e => { e with body := f e.body }⟩

def names (t : FunctionTable) : List String := t.functions.names

def size (t : FunctionTable) : Nat := t.functions.size

/-- Hands a counter through the bodies in name order; `step` gives the new body and the amount by
which the counter advances. -/
def countThrough (step : Program → Nat → Program × Nat) (start : Nat) :
    List (String × FunctionEntry) → List (String × FunctionEntry)
  | [] => []
  | (name, f) :: rest =>
    let (body, used) := step f.body start
    (name, { f with body }) :: countThrough step (start + used) rest

/-- Numbers locations from zero through the whole table. -/
def numberLocations (t : FunctionTable) : FunctionTable :=
  ⟨⟨countThrough (fun p start => (p.numberLocations start, p.size)) 0 t.functions.entries⟩⟩

/-- Numbers loops from zero through the whole table. -/
def numberLoops (t : FunctionTable) : FunctionTable :=
  ⟨⟨countThrough (fun p start => (p.numberLoops start, p.backwardsGotos.length)) 0
    t.functions.entries⟩⟩

/-- Numbers targets function by function, up to the first with a jump that leads out of it. -/
def numberEntryTargets : List (String × FunctionEntry) →
    List (String × FunctionEntry) × Except ProgramError Unit
  | [] => ([], .ok ())
  | (name, f) :: rest =>
    match f.body.computeTargetNumbers with
    | (body, .error e) => ((name, { f with body }) :: rest, .error e)
    | (body, .ok ()) =>
      let (entries, outcome) := numberEntryTargets rest
      ((name, { f with body }) :: entries, outcome)

/-- Numbers all locations, then the targets of each function. -/
def update (t : FunctionTable) : FunctionTable × Except ProgramError Unit :=
  let (entries, outcome) := numberEntryTargets t.numberLocations.functions.entries
  (⟨⟨entries⟩⟩, outcome)

/-- The listing of every function that has a body. -/
def text (t : FunctionTable) (names : SymbolTable) : String :=
  String.join <| t.functions.entries.map fun (name, f) =>
    if f.isAvailable then name ++ ":\n" ++ f.body.text names ++ "\n" else ""

end FunctionTable
end GotoCheck
