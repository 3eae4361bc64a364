import GotoCheck.Loop.Modified

/-! Loops cut out of function bodies. A loop is the stretch from its head to a back edge as a
program of its own; jumps that leave the stretch lead to an end marker behind it. -/
namespace GotoCheck

structure Loop where
  /-- The copied stretch; all its jumps stay inside. -/
  program : Program
  /-- The loop head in the enclosing body. -/
  head : Handle
  /-- The goto that closes the loop in the enclosing body. -/
  backEdge : Handle
  /-- The variables that the loop may write, by name. -/
  modified : NameMap Expr
  /-- The jumps that leave the loop: the copied instruction and its target in the enclosing body. -/
  exits : List (Handle × Handle)

namespace Loop

/-- A stretch of a body, by the places of its first and last instruction. -/
structure Span where
  first : Nat
  last : Nat

def span (body : Program) (head backEdge : Handle) : Except ProgramError Span := do
  let first ← body.locate head
  let last ← body.locate backEdge
  return ⟨first, last⟩

/-- The rows from `first` up to and without `last`. -/
def inner (body : Program) (s : Span) : List (Nat × Instruction) :=
  (body.rows.drop s.first).take (s.last - s.first)

/-- The rows of a loop, its back edge last. -/
def stretch (body : Program) (s : Span) : List (Nat × Instruction) :=
  inner body s ++ body.rows[s.last]?.toList

/-- The jumps of the stretch that lead out of it, by the copied instruction and the target. -/
def exitEdges (tag : Nat) (inside : Handle → Option Nat) (rows : List Instruction) :
    List (Handle × Handle) :=
  rows.zipIdx.flatMap fun (i, k) =>
    (i.targets.filter fun t => (inside t).isNone).map fun t => (⟨tag, k⟩, t)

/-- The copied stretch under a tag. Each jump leads to the copy of its target or else to the end
marker, which is there only if some jump needs it. -/
def copyStretch (tag : Nat) (body : Program) (rows : List (Nat × Instruction)) :
    Program × List (Handle × Handle) :=
  let inside (h : Handle) : Option Nat := rows.findIdx? fun r => body.handle r.1 == h
  let instructions := rows.map Prod.snd
  let marker : Handle := ⟨tag, rows.length⟩
  let exits := exitEdges tag inside instructions
  let lead (t : Handle) : Handle := ((inside t).map fun k => Handle.mk tag k).getD marker
  let copied := instructions.map fun i => { i with targets := i.targets.map lead }
  (.ofList tag (if exits.isEmpty then copied else copied ++ [.endFunction]), exits)

/-- Cuts a loop out of a body of the named function. The variables come from all but the back edge,
which as a goto writes nothing. -/
def extract (table : FunctionTable) (function : String) (body : Program) (head backEdge : Handle)
    (s : Span) (tag : Nat) : Except ProgramError Loop := do
  let walk ← (ModifiedWalk.start function).walkAll table ((inner body s).map Prod.snd)
  let (program, exits) := copyStretch tag body (stretch body s)
  let (program, outcome) := program.update
  outcome
  return { program, head, backEdge, modified := walk.modified, exits }

/-- The listing of a loop and its variables. -/
def text (l : Loop) (names : SymbolTable) : String :=
  l.program.text names ++
    if l.modified.isEmpty then ""
    else "Loop variables: " ++ ", ".intercalate l.modified.names ++ "\n"

end Loop

/-- The loops found so far in one function, with the supply of tags for their programs. -/
structure LoopSearch where
  loops : List Loop
  nextTag : Nat

namespace LoopSearch

def start (nextTag : Nat) : LoopSearch := ⟨[], nextTag⟩

def get? (s : LoopSearch) (head : Handle) : Option Loop := s.loops.find? fun l => l.head == head

/-- A loop takes the place of an earlier one with the same head: a later back edge spans more. -/
def put (l : Loop) : List Loop → List Loop
  | [] => [l]
  | k :: rest => if k.head = l.head then l :: rest else k :: put l rest

/-- Cuts out one more loop. A tag is spent as soon as head and back edge are known to be there. -/
def addLoop (s : LoopSearch) (table : FunctionTable) (function : String) (body : Program)
    (head backEdge : Handle) : LoopSearch × Except ProgramError Unit :=
  match Loop.span body head backEdge with
  | .error e => (s, .error e)
  | .ok span =>
    match Loop.extract table function body head backEdge span s.nextTag with
    | .error e => ({ s with nextTag := s.nextTag + 1 }, .error e)
    | .ok l => (⟨put l s.loops, s.nextTag + 1⟩, .ok ())

/-- The loop head that a goto jumps back to, if it closes a loop. `seen` holds the targets scanned
so far under their location numbers, the latest first. A jump to its own location closes none. -/
def loopHead? (body : Program) (seen : List (Nat × Handle)) (h : Handle) (i : Instruction) :
    Except ProgramError (Option Handle) :=
  if !body.isBackwardsGoto h then .ok none
  else match i.targets with
    | [t] =>
      match body.get? t with
      | none => .error (.notInProgram t)
      | some j =>
        if j.locationNumber = i.locationNumber then .ok none
        else match seen.find? fun s => s.1 == j.locationNumber with
          | some s => .ok (some s.2)
          | none => .error (.unknownLoopHead j.locationNumber)
    | ts => .error (.malformedBackEdge h ts.length)

/-- Scans rows of a body in order and cuts out the loop of each back edge. -/
def scan (table : FunctionTable) (function : String) (body : Program) :
    List (Nat × Instruction) → List (Nat × Handle) → LoopSearch →
      LoopSearch × Except ProgramError Unit
  | [], _, s => (s, .ok ())
  | (slot, i) :: rest, seen, s =>
    let h := body.handle slot
    let seen := if i.isTarget then (i.locationNumber, h) :: seen else seen
    match loopHead? body seen h i with
    | .error e => (s, .error e)
    | .ok none => scan table function body rest seen s
    | .ok (some head) =>
      match s.addLoop table function body head h with
      | (s, .error e) => (s, .error e)
      | (s, .ok ()) => scan table function body rest seen s

/-- Finds the loops of a function, whose body has to be numbered. What was found before a fault
stays found. -/
def findLoops (s : LoopSearch) (table : FunctionTable) (function : String) :
    LoopSearch × Except ProgramError Unit :=
  match table.get? function with
  | none => (s, .error (.missingFunction function))
  | some f => scan table function f.body f.body.rows [] s

def text (s : LoopSearch) (names : SymbolTable) : String :=
  String.join (s.loops.map fun l => l.text names)

end LoopSearch
end GotoCheck
