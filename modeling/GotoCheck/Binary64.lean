import GotoCheck.Decimal

/-! Numbers of the 64-bit binary floating-point format: 53 bits of precision, exponents of the last
bit from -1074 to 971. They are kept as exact values, so rounding and printing are integer
arithmetic. -/
namespace GotoCheck

inductive Binary64
  /-- The undefined value. -/
  | nan
  | infinite (negative : Bool)
  /-- The value `mantissa * 2 ^ exponent`, with its sign. -/
  | finite (negative : Bool) (mantissa : Nat) (exponent : Int)
deriving DecidableEq

namespace Binary64
open Decimal

def zero (negative : Bool) : Binary64 := finite negative 0 (-1074)

/-- The `e` with `2 ^ e ≤ num / den < 2 ^ (e + 1)`, for a positive quotient. -/
def binaryMagnitude (num den : Nat) : Int :=
  let e : Int := num.log2 - den.log2
  let (n, d) := shift 2 (-e) num den
  if d ≤ n then e else e - 1

/-- The number nearest to `num / den`; of two that are equally near, the one with an even last
bit. -/
def ofQuotient (negative : Bool) (num den : Nat) : Binary64 :=
  if num = 0 then zero negative
  else
    let e := max (binaryMagnitude num den - 52) (-1074)
    let (n, d) := shift 2 (-e) num den
    let m := roundDiv n d
    let (m, e) := if m = Nat.pow 2 53 then (Nat.pow 2 52, e + 1) else (m, e)
    if 971 < e then infinite negative else finite negative m e

def ofInt (v : Int) : Binary64 := ofQuotient (decide (v < 0)) v.natAbs 1

/-- `bits / 2 ^ fraction`. The scale is itself a number of this format, with an exponent of 32 bits
and a sign: past 1023 it is infinite, and past the largest exponent it turns into a fraction. -/
def ofFixed (bits : Int) (fraction : Nat) : Binary64 :=
  let negative := decide (bits < 0)
  if fraction < 1024 then ofQuotient negative bits.natAbs (Nat.pow 2 fraction)
  else if fraction < Nat.pow 2 31 then zero negative
  else if Nat.pow 2 32 - fraction < 1024 then
    ofQuotient negative (bits.natAbs * Nat.pow 2 (Nat.pow 2 32 - fraction)) 1
  else if bits = 0 then nan
  else infinite negative

/-- The undefined value counts as negative. -/
def isNegative : Binary64 → Bool
  | nan => true
  | infinite s => s
  | finite s _ _ => s

def isZero : Binary64 → Bool
  | finite _ m _ => m == 0
  | _ => false

/-- The numerator and denominator of `m * 2 ^ e`. -/
def quotient (m : Nat) (e : Int) : Nat × Nat := shift 2 e m 1

/-- Four times the ends of the interval that rounds to `m * 2 ^ e`, in units of `2 ^ e`. Below a
power of two the numbers lie closer together. -/
def ends (m : Nat) (e : Int) : Nat × Nat :=
  (4 * m - (if m = Nat.pow 2 52 ∧ -1074 < e then 1 else 2), 4 * m + 2)

/-- Whether `y * 10 ^ i` rounds to `m * 2 ^ e`. The ends do so when the last bit is even. -/
def reads (m : Nat) (e : Int) (y : Nat) (i : Int) : Bool :=
  let (low, high) := ends m e
  let (n, d) := shift 10 i (4 * y) 1
  let (u, w) := quotient 1 e
  let y' := n * w
  if m % 2 = 0 then low * u * d ≤ y' && y' ≤ high * u * d
  else low * u * d < y' && y' < high * u * d

/-- Of the two neighbours of `m * 2 ^ e` on the grid of multiples of `10 ^ i`, the one to print if
any rounds to the number: the nearer one, and the larger of two that are equally near. -/
def onGrid? (m : Nat) (e : Int) (i : Int) : Option Nat :=
  let (n, d) := quotient m e
  let (n, d) := shift 10 (-i) n d
  let low := n / d
  let nearer := if 2 * (n % d) < d then low else low + 1
  let other := if 2 * (n % d) < d then low + 1 else low
  if reads m e nearer i then some nearer else if reads m e other i then some other else none

/-- A number without trailing zeros, and the exponent of its last digit. -/
def trimZeros (bound : Nat) (y : Nat) (i : Int) : Nat × Int :=
  match bound with
  | 0 => (y, i)
  | bound + 1 => if y % 10 = 0 then trimZeros bound (y / 10) (i + 1) else (y, i)

/-- The fewest digits that read back as `m * 2 ^ e`, for positive `m`: seventeen always suffice. -/
def shortest (m : Nat) (e : Int) : Nat × Int :=
  let (n, d) := quotient m e
  let top := magnitude n d
  match (List.range 17).findSome? fun (k : Nat) =>
      (onGrid? m e (top - k)).map fun y => (y, top - (k : Int)) with
  | some (y, i) => trimZeros 17 y i
  | none => (0, 0)

/-- `y * 10 ^ i` in positional notation. -/
def positional (y : Nat) (i : Int) : List Char :=
  if 0 ≤ i then Nat.toDigits 10 y ++ List.replicate i.toNat '0' else placed y (-i).toNat

/-- The fewest digits that read back, never with an exponent and never with a bare `.0`. -/
def text : Binary64 → String
  | nan => "NaN"
  | infinite s => if s then "-inf" else "inf"
  | finite s m e =>
    let digits := if m = 0 then ['0'] else let (y, i) := shortest m e; positional y i
    String.ofList (if s then '-' :: digits else digits)

end Binary64
end GotoCheck
