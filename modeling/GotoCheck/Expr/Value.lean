import GotoCheck.Expr
import GotoCheck.Binary64

/-! The numbers that constants stand for. -/
namespace GotoCheck.Expr

/-- The value of an integer constant, or of a fixed-point constant of a fixed-point type. -/
def float? : Expr → Option Binary64
  | literal (.fixed bits) (.fixed width integerBits) =>
    some (.ofFixed bits (width - integerBits))
  | literal (.int v) _ => some (.ofInt v)
  | _ => none

end GotoCheck.Expr
