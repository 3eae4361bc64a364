import GotoCheck.Program

/-! The numbers by which listings and analyses refer to instructions: target numbers for jump
targets, location numbers for all, loop numbers for loop heads with their back edges. -/
namespace GotoCheck.Program

/-- The handles that some instruction jumps to. -/
def targets (p : Program) : List Handle := p.instructions.flatMap Instruction.targets

/-- Numbers the marked rows from `next` on and takes the number from the others. -/
def numberRows (marked : Nat → Bool) (next : Nat) :
    List (Nat × Instruction) → List (Nat × Instruction)
  | [] => []
  | (slot, i) :: rest =>
    if marked slot then
      (slot, { i with targetNumber := some next }) :: numberRows marked (next + 1) rest
    else (slot, { i with targetNumber := none }) :: numberRows marked next rest

/-- Numbers the jump targets 1, 2, … in program order. -/
def numberTargets (p : Program) : Program :=
  { p with rows := numberRows (fun slot => p.targets.contains (p.handle slot)) 1 p.rows }

def hasTargetNumber (p : Program) (h : Handle) : Bool :=
  (p.get? h).any Instruction.isTarget

/-- Each jump to a target without a number, as the pair of the two, in program order. -/
def unnumbered (p : Program) : List (Handle × Handle) :=
  p.rows.flatMap fun r =>
    (r.2.targets.filter fun t => !p.hasTargetNumber t).map fun t => (p.handle r.1, t)

/-- Numbers the jump targets, and names the first jump that leads out of the program. -/
def computeTargetNumbers (p : Program) : Program × Except ProgramError Unit :=
  let q := p.numberTargets
  match q.unnumbered with
  | [] => (q, .ok ())
  | (i, t) :: _ => (q, .error (.unnumberedTarget i t))

/-- Numbers all instructions from `start` on. The next free number is `start + p.size`. -/
def numberLocations (p : Program) (start : Nat) : Program :=
  { p with rows := p.rows.mapIdx fun k r => (r.1, { r.2 with locationNumber := start + k }) }

/-- Numbers targets and then, if no jump leads out, locations from zero. -/
def update (p : Program) : Program × Except ProgramError Unit :=
  match p.computeTargetNumbers with
  | (q, .ok ()) => (q.numberLocations 0, .ok ())
  | (q, .error e) => (q, .error e)

def backwardsGotos (p : Program) : List Handle := p.ids.filter p.isBackwardsGoto

/-- Gives a loop number to an instruction and to its first target. -/
def shareLoopNumber (p : Program) (h : Handle) (n : Nat) : Program :=
  let number (i : Instruction) := { i with loopNumber := n }
  let head := (p.get? h).bind fun i => i.targets.head?
  match head with
  | some t => (p.modify t number).modify h number
  | none => p.modify h number

/-- Numbers the backwards gotos from `start` on, each together with its loop head. The next free
number is `start + p.backwardsGotos.length`. -/
def numberLoops (p : Program) (start : Nat) : Program :=
  (p.backwardsGotos.zipIdx start).foldl (fun q b => q.shareLoopNumber b.1 b.2) p

end GotoCheck.Program
