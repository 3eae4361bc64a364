import GotoCheck.Binary64

/-! The three C forms of floating-point numbers: fixed places, exponent, and the shorter of both.
All are of the magnitude; signs are set elsewhere. -/
namespace GotoCheck.Format
open Decimal

/-- The text of a magnitude that has no digits, or the digits of one that has. -/
def ofMagnitude (v : Binary64) (digits : Nat → Nat → List Char) : List Char :=
  match v with
  | .nan => "NaN".toList
  | .infinite _ => "inf".toList
  | .finite _ m e =>
    let (num, den) := Binary64.quotient m e
    digits num den

/-- An exponent with a sign and at least two digits. -/
def exponentChars (e : Int) : List Char :=
  'e' :: (if e < 0 then '-' else '+') :: padLeft 2 (Nat.toDigits 10 e.natAbs)

/-- One digit, the places after a point, and an exponent of ten. -/
def scientificChars (num den places : Nat) : List Char :=
  let (m, e) := scientific num den places
  placed m places ++ exponentChars e

/-- Zeros at the end of a number with a point say nothing, nor does a point at the end. -/
def dropTrailingZeros (cs : List Char) : List Char :=
  let isPoint := (· == '.')
  if cs.any isPoint then
    let cs := (cs.reverse.dropWhile (· == '0')).reverse
    (cs.reverse.dropWhile isPoint).reverse
  else cs

/-- Fixed places where the exponent is from -4 up to the precision, else an exponent; `precision`
significant digits, of which trailing zeros are dropped unless they are asked for. -/
def generalChars (keepZeros : Bool) (precision num den : Nat) : List Char :=
  let p := max precision 1
  let shorten := if keepZeros then id else dropTrailingZeros
  if num = 0 then shorten (placed 0 (p - 1))
  else
    let (m, e) := scientific num den (p - 1)
    if e < -4 ∨ (p : Int) ≤ e then shorten (placed m (p - 1)) ++ exponentChars e
    else shorten (fixedPlaces num den (p - 1 - e).toNat)

def fixedForm (v : Binary64) (precision : Nat) : List Char :=
  ofMagnitude v fun num den => fixedPlaces num den precision

def exponentForm (v : Binary64) (precision : Nat) : List Char :=
  ofMagnitude v fun num den => scientificChars num den precision

def generalForm (v : Binary64) (keepZeros : Bool) (precision : Nat) : List Char :=
  ofMagnitude v fun num den => generalChars keepZeros precision num den

end GotoCheck.Format
