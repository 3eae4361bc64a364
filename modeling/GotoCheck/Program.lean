import GotoCheck.Instruction

/-! Goto programs: instructions in order, each under a handle of its own. A handle stays with its
instruction while others come and go, and is never issued again. -/
namespace GotoCheck

structure Program where
  /-- Tells the handles of one program from those of every other. -/
  tag : Nat
  /-- The slots handed out so far. -/
  issued : Nat
  /-- The live instructions with their slots, in program order. -/
  rows : List (Nat × Instruction)

namespace Program

def empty (tag : Nat) : Program := ⟨tag, 0, []⟩

/-- A program of the given instructions, in slots 0, 1, …. -/
def ofList (tag : Nat) (instructions : List Instruction) : Program :=
  ⟨tag, instructions.length, instructions.zipIdx.map fun r => (r.2, r.1)⟩

instance : Inhabited Program := ⟨empty 0⟩

/-- The handle of a slot. -/
def handle (p : Program) (slot : Nat) : Handle := ⟨p.tag, slot⟩

/-- Handles in program order. -/
def ids (p : Program) : List Handle := p.rows.map fun r => p.handle r.1

def instructions (p : Program) : List Instruction := p.rows.map Prod.snd

def size (p : Program) : Nat := p.rows.length

def get? (p : Program) (h : Handle) : Option Instruction :=
  (p.rows.find? fun r => p.handle r.1 == h).map Prod.snd

def contains (p : Program) (h : Handle) : Bool := (p.get? h).isSome

/-- The place of an instruction in program order. -/
def position? (p : Program) (h : Handle) : Option Nat := p.ids.findIdx? (· == h)

def first? (p : Program) : Option Handle := p.ids.head?

def last? (p : Program) : Option Handle := p.ids.getLast?

/-- The instruction that follows in program order. -/
def next? (p : Program) (h : Handle) : Option Handle := do
  let k ← p.position? h
  p.ids[k + 1]?

/-- Changes one instruction, if it is in the program. -/
def modify (p : Program) (h : Handle) (f : Instruction → Instruction) : Program :=
  { p with rows := p.rows.map fun r => if p.handle r.1 = h then (r.1, f r.2) else r }

/-- The place of an instruction that has to be in the program. -/
def locate (p : Program) (h : Handle) : Except ProgramError Nat :=
  match p.position? h with
  | some k => .ok k
  | none => .error (.notInProgram h)

/-- Puts an instruction into a fresh slot, at a place of the program order. -/
def insertAt (p : Program) (k : Nat) (i : Instruction) : Program :=
  { p with issued := p.issued + 1, rows := p.rows.take k ++ (p.issued, i) :: p.rows.drop k }

/-- The handle that the next instruction will get. -/
def nextHandle (p : Program) : Handle := p.handle p.issued

def add (p : Program) (i : Instruction) : Program := p.insertAt p.size i

def insertBefore (p : Program) (h : Handle) (i : Instruction) : Except ProgramError Program := do
  let k ← p.locate h
  return p.insertAt k i

def insertAfter (p : Program) (h : Handle) (i : Instruction) : Except ProgramError Program := do
  let k ← p.locate h
  return p.insertAt (k + 1) i

/-- Takes an instruction out. Jumps to it stay and dangle. -/
def remove (p : Program) (h : Handle) : Except ProgramError (Program × Instruction) :=
  match p.get? h with
  | some i => .ok ({ p with rows := p.rows.filter fun r => p.handle r.1 != h }, i)
  | none => .error (.notInProgram h)

/-- Replaces an instruction and keeps its handle. -/
def set (p : Program) (h : Handle) (i : Instruction) : Except ProgramError Program :=
  if p.contains h then .ok (p.modify h fun _ => i) else .error (.notInProgram h)

/-- Where control may go next. A throw goes where its handlers are, which is not known here, and
what falls off the end of the program goes nowhere. -/
def successors (p : Program) (h : Handle) : List Handle :=
  match p.get? h with
  | none => []
  | some i =>
    let next := (p.next? h).toList
    match i.statement with
    | .goto => if i.guard.isTrue then i.targets else i.targets ++ next
    | .throws _ _ => []
    | .returns _ => p.last?.toList
    | .assume => if i.guard.isFalse then [] else next
    | _ => next

/-- A goto with a target whose location number is not above its own. -/
def isBackwardsGoto (p : Program) (h : Handle) : Bool :=
  match p.get? h with
  | none => false
  | some i => i.isGoto && i.targets.any fun t =>
      (p.get? t).any fun j => decide (j.locationNumber ≤ i.locationNumber)

end Program
end GotoCheck
