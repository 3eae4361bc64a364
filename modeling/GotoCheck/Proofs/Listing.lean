import GotoCheck.Program.Listing
import GotoCheck.Proofs.Arena.Passes
import GotoCheck.Proofs.TargetNumbers
import GotoCheck.Proofs.Text.Lines

/-! Listings of numbered programs. Behind each jump stand the labels of the instructions it leads
to, and no two instructions have the same label. -/
namespace GotoCheck

namespace Program
variable {p q : Program} {h t : Handle} {i j : Instruction} {k n : Nat} {names : SymbolTable}

/-- Old numbers on the first and the last instruction, a jump that leads to itself twice, and
handlers of which the last is at `t`. -/
def staleNumbers (t : Handle) : Program :=
  let jump := Instruction.goto (.ofBool true) ⟨1, 1⟩
  let handlers := Instruction.ofStatement (.catches ["a", "b"])
  .ofList 1 [
    { Instruction.endFunction with targetNumber := some 7 },
    { jump with targets := [⟨1, 1⟩, ⟨1, 3⟩, ⟨1, 1⟩] },
    { handlers with targets := [⟨1, 1⟩, t] },
    { Instruction.endFunction with targetNumber := some 1 }]

end Program
end GotoCheck
