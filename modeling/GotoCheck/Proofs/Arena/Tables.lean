import GotoCheck.Workspace

/-! Programs in parallel tables: instructions by slot, handles in program order, and the place in
that order by slot. Edits keep the tables in step by hand; a place is found by one look at one of
them. -/
namespace GotoCheck

@[ext]
structure Arena where
  tag : Nat
  /-- Every slot that was handed out, without its instruction once that is removed. -/
  slots : List (Option Instruction)
  order : List Handle
  /-- The place of every slot in the order, as long as it has one. -/
  positions : List (Option Nat)

namespace Arena

def empty (tag : Nat) : Arena := ⟨tag, [], [], []⟩

section Lookups

def get? (a : Arena) (h : Handle) : Option Instruction :=
  if h.program = a.tag then a.slots[h.slot]?.join else none

def contains (a : Arena) (h : Handle) : Bool := (a.get? h).isSome

def position? (a : Arena) (h : Handle) : Option Nat :=
  if h.program = a.tag then a.positions[h.slot]?.join else none

def next? (a : Arena) (h : Handle) : Option Handle := do
  let k ← a.position? h
  a.order[k + 1]?

/-- The instructions with their handles, in program order. -/
def listing (a : Arena) : List (Handle × Instruction) :=
  a.order.filterMap fun h => (a.get? h).map fun i => (h, i)

end Lookups

section Edits

/-- The handle that the next instruction will get. -/
def nextHandle (a : Arena) : Handle := ⟨a.tag, a.slots.length⟩

/-- Puts an instruction into a fresh slot, which has no place in the order yet. -/
def alloc (a : Arena) (i : Instruction) : Arena :=
  { a with slots := a.slots ++ [some i], positions := a.positions ++ [none] }

/-- Writes down places for handles, from `place` on. -/
def reindex : List Handle → Nat → List (Option Nat) → List (Option Nat)
  | [], _, positions => positions
  | h :: rest, place, positions => reindex rest (place + 1) (positions.set h.slot (some place))

/-- Writes down the places of the order from `place` on. -/
def reindexFrom (a : Arena) (place : Nat) : Arena :=
  { a with positions := reindex (a.order.drop place) place a.positions }

def add (a : Arena) (i : Instruction) : Arena :=
  let b := a.alloc i
  { b with
    order := b.order ++ [a.nextHandle]
    positions := b.positions.set a.nextHandle.slot (some b.order.length) }

def insertAt (a : Arena) (k : Nat) (i : Instruction) : Arena :=
  let b := a.alloc i
  reindexFrom { b with order := b.order.insertIdx k a.nextHandle } k

def insertBefore (a : Arena) (h : Handle) (i : Instruction) : Except ProgramError Arena :=
  match a.position? h with
  | some k => .ok (a.insertAt k i)
  | none => .error (.notInProgram h)

def insertAfter (a : Arena) (h : Handle) (i : Instruction) : Except ProgramError Arena :=
  match a.position? h with
  | some k => .ok (a.insertAt (k + 1) i)
  | none => .error (.notInProgram h)

/-- Takes an instruction out of the order and then out of its slot. If the slot has none, the order
has changed all the same. -/
def remove (a : Arena) (h : Handle) : Arena × Except ProgramError Instruction :=
  match a.position? h with
  | none => (a, .error (.notInProgram h))
  | some k =>
    let b := reindexFrom { a with
      order := a.order.eraseIdx k
      positions := a.positions.set h.slot none } k
    let c := { b with slots := b.slots.set h.slot none }
    match b.slots[h.slot]?.join with
    | some i => (c, .ok i)
    | none => (c, .error (.notInProgram h))

/-- Changes an instruction in its slot, if there is one under the handle. -/
def modify (a : Arena) (h : Handle) (f : Instruction → Instruction) : Arena :=
  if h.program = a.tag then { a with slots := a.slots.modify h.slot (Option.map f) } else a

def set (a : Arena) (h : Handle) (i : Instruction) : Except ProgramError Arena :=
  if a.contains h then .ok (a.modify h fun _ => i) else .error (.notInProgram h)

end Edits

section Numbers
variable {σ : Type}

def visitAt (f : σ → Instruction → Instruction × σ) (c : Arena × σ) (h : Handle) : Arena × σ :=
  match c.1.get? h with
  | some i => (c.1.modify h fun _ => (f c.2 i).1, (f c.2 i).2)
  | none => c

/-- Changes the instructions one by one, in program order, and counts on the way. -/
def visit (f : σ → Instruction → Instruction × σ) (a : Arena) (s : σ) : Arena × σ :=
  a.order.foldl (visitAt f) (a, s)

def clearTargetNumber (_ : Unit) (i : Instruction) : Instruction × Unit :=
  ({ i with targetNumber := none }, ())

/-- A target has some number before it has its own. -/
def markTarget (i : Instruction) : Instruction := { i with targetNumber := some 0 }

def countTarget (n : Nat) (i : Instruction) : Instruction × Nat :=
  if i.isTarget then ({ i with targetNumber := some (n + 1) }, n + 1) else (i, n)

def countLocation (n : Nat) (i : Instruction) : Instruction × Nat :=
  ({ i with locationNumber := n }, n + 1)

/-- The handles that some instruction jumps to. -/
def targets (a : Arena) : List Handle := a.listing.flatMap fun e => e.2.targets

/-- Takes the target numbers away, marks the targets, and counts the marked. -/
def numberTargets (a : Arena) : Arena :=
  let b := (a.visit clearTargetNumber ()).1
  let c := b.targets.foldl (fun c t => c.modify t markTarget) b
  (c.visit countTarget 0).1

def isNumbered (a : Arena) (t : Handle) : Bool :=
  (a.get? t).any fun i => i.isTarget && i.targetNumber != some 0

def unnumbered (a : Arena) : List (Handle × Handle) :=
  a.listing.flatMap fun e => (e.2.targets.filter fun t => !a.isNumbered t).map fun t => (e.1, t)

def computeTargetNumbers (a : Arena) : Arena × Except ProgramError Unit :=
  let b := a.numberTargets
  match b.unnumbered with
  | [] => (b, .ok ())
  | (h, t) :: _ => (b, .error (.unnumberedTarget h t))

def numberLocations (a : Arena) (start : Nat) : Arena × Nat := a.visit countLocation start

def update (a : Arena) : Arena × Except ProgramError Unit :=
  match a.computeTargetNumbers with
  | (b, .ok ()) => ((b.numberLocations 0).1, .ok ())
  | (b, .error e) => (b, .error e)

def isBackwardsGoto (a : Arena) (h : Handle) : Bool :=
  match a.get? h with
  | none => false
  | some i => i.isGoto && i.targets.any fun t =>
      (a.get? t).any fun j => decide (j.locationNumber ≤ i.locationNumber)

/-- Gives a backwards goto and its head the next loop number. -/
def numberLoop (c : Arena × Nat) (h : Handle) : Arena × Nat :=
  let number (i : Instruction) := { i with loopNumber := c.2 }
  if c.1.isBackwardsGoto h then
    match (c.1.get? h).bind fun i => i.targets.head? with
    | some t => ((c.1.modify t number).modify h number, c.2 + 1)
    | none => (c.1.modify h number, c.2 + 1)
  else c

def numberLoops (a : Arena) (start : Nat) : Arena × Nat := a.order.foldl numberLoop (a, start)

end Numbers

section Moves

/-- Takes instructions out of their slots, which are empty afterwards. -/
def drain : List (Option Instruction) → List Handle → List (Handle × Instruction)
  | _, [] => []
  | slots, h :: rest =>
    match slots[h.slot]?.join with
    | some i => (h, i) :: drain (slots.set h.slot none) rest
    | none => drain slots rest

/-- Adds instructions, and notes which handle each has become. -/
def receive (a : Arena) : List (Handle × Instruction) → Arena × List (Handle × Handle)
  | [] => (a, [])
  | (h, i) :: rest =>
    let (b, moves) := (a.add i).receive rest
    (b, (h, a.nextHandle) :: moves)

/-- What a handle has become. The last note counts. -/
def imageOf (moves : List (Handle × Handle)) (t : Handle) : Option Handle :=
  (moves.findRev? fun m => m.1 == t).map Prod.snd

/-- Leads the jumps of the instructions over, until one has nowhere to go. -/
def remap (image : Handle → Option Handle) (a : Arena) :
    List Handle → Arena × Except ProgramError Unit
  | [] => (a, .ok ())
  | h :: rest =>
    match a.get? h with
    | none => a.remap image rest
    | some i =>
      match i.retarget image with
      | .ok j => (a.modify h fun _ => j).remap image rest
      | .error e => (a, .error e)

/-- Moves what is in `b` to the end of `a`. -/
def append (a b : Arena) : Arena × Except ProgramError Unit :=
  let (c, moves) := a.receive (drain b.slots b.order)
  c.remap (imageOf moves) (moves.map Prod.snd)

/-- A copy of `b` under a fresh tag. -/
def copy (b : Arena) (tag : Nat) : Arena × Except ProgramError Unit :=
  let (c, moves) := (empty tag).receive b.listing
  match c.remap (imageOf moves) c.order with
  | (d, .ok ()) => d.computeTargetNumbers
  | (d, .error e) => (d, .error e)

end Moves

section Changes

def keep (a : Arena) (reply : Reply) : Except ProgramError Arena → Arena × Reply
  | .ok b => (b, reply)
  | .error e => (a, .failed e)

def apply (a : Arena) : Edit → Arena × Reply
  | .add i => (a.add i, .issued a.nextHandle)
  | .insertBefore h i => keep a (.issued a.nextHandle) (a.insertBefore h i)
  | .insertAfter h i => keep a (.issued a.nextHandle) (a.insertAfter h i)
  | .remove h =>
    match a.remove h with
    | (b, .ok i) => (b, .removed i)
    | (b, .error e) => (b, .failed e)
  | .set h i => keep a .done (a.set h i)
  | .computeTargetNumbers =>
    let (b, outcome) := a.computeTargetNumbers
    (b, .ofOutcome outcome)
  | .update =>
    let (b, outcome) := a.update
    (b, .ofOutcome outcome)
  | .numberLocations start =>
    let (b, next) := a.numberLocations start
    (b, .counter next)
  | .numberLoops start =>
    let (b, next) := a.numberLoops start
    (b, .counter next)

end Changes
end Arena

/-- Arenas under names, with one supply of tags. -/
structure Store where
  arenas : NameMap Arena
  nextTag : Nat

namespace Store

def empty : Store := ⟨.empty, 0⟩

def arena? (s : Store) (name : String) : Option Arena := s.arenas.get? name

def put (s : Store) (name : String) (a : Arena) : Store :=
  { s with arenas := s.arenas.insert name a }

/-- Stores an empty arena under a fresh tag. -/
def putEmpty (s : Store) (name : String) : Store :=
  { arenas := s.arenas.insert name (.empty s.nextTag), nextTag := s.nextTag + 1 }

def run (s : Store) : Command → Store × Reply
  | .create name => (s.putEmpty name, .done)
  | .clear name =>
    match s.arena? name with
    | some _ => (s.putEmpty name, .done)
    | none => (s, .noProgram)
  | .edit name change =>
    match s.arena? name with
    | some a =>
      let (b, reply) := a.apply change
      (s.put name b, reply)
    | none => (s, .noProgram)
  | .append name source =>
    match s.arena? name, s.arena? source with
    | some a, some b =>
      let (c, outcome) := a.append b
      ((s.put name c).putEmpty source, .ofOutcome outcome)
    | _, _ => (s, .noProgram)
  | .copy name source =>
    match s.arena? source with
    | some b =>
      let (c, outcome) := b.copy s.nextTag
      (({ s with nextTag := s.nextTag + 1 }).put name c, .ofOutcome outcome)
    | none => (s, .noProgram)

/-- The store that commands lead to, starting with no arena. -/
def after (commands : List Command) : Store := commands.foldl (fun s c => (s.run c).1) empty

end Store
end GotoCheck
