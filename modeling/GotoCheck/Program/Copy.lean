import GotoCheck.Program.Numbering

/-! Moving and copying whole programs. Jumps are led over to the new handles; a jump that leads out
of the moved program stops the work where it stands. -/
namespace GotoCheck.Program

/-- Retargets rows in order. At the first failure that row and all later ones stay as they are. -/
def retargetRows (image : Handle → Option Handle) :
    List (Nat × Instruction) → List (Nat × Instruction) × Except ProgramError Unit
  | [] => ([], .ok ())
  | (slot, i) :: rest =>
    match i.retarget image with
    | .error e => ((slot, i) :: rest, .error e)
    | .ok j =>
      let (rows, outcome) := retargetRows image rest
      ((slot, j) :: rows, outcome)

/-- The rows of `q` in slots from `issued` on of the program tagged `tag`, with their jumps. -/
def transferRows (q : Program) (tag issued : Nat) :
    List (Nat × Instruction) × Except ProgramError Unit :=
  retargetRows (fun h => (q.position? h).map fun k => ⟨tag, issued + k⟩)
    ((q.instructions.zipIdx issued).map fun r => (r.2, r.1))

/-- The instructions of `q` after those of `p`, under fresh handles of `p`. -/
def append (p q : Program) : Program × Except ProgramError Unit :=
  let (rows, outcome) := q.transferRows p.tag p.issued
  (⟨p.tag, p.issued + q.size, p.rows ++ rows⟩, outcome)

/-- A copy under a fresh tag, with its targets numbered. -/
def copy (q : Program) (tag : Nat) : Program × Except ProgramError Unit :=
  match q.transferRows tag 0 with
  | (rows, .ok ()) => computeTargetNumbers ⟨tag, q.size, rows⟩
  | (rows, .error e) => (⟨tag, q.size, rows⟩, .error e)

end GotoCheck.Program
