/-! Sets of code points, given by the ascending boundaries where membership changes. -/
namespace GotoCheck.Text

/-- A code point is in the set when an odd number of boundaries is not above it. -/
def within (bounds : List Nat) (n : Nat) : Bool :=
  (bounds.takeWhile fun b => decide (b ≤ n)).length % 2 == 1

end GotoCheck.Text
