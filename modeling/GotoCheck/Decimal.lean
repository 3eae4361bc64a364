/-! Decimal text of non-negative rational numbers, rounded to a number of places. A half goes to the
even neighbour, and is told from the exact value. -/
namespace GotoCheck.Decimal

/-- The integer nearest to `num / den`; of two that are equally near, the even one. -/
def roundDiv (num den : Nat) : Nat :=
  let q := num / den
  let r := num % den
  if 2 * r < den ∨ (2 * r = den ∧ q % 2 = 0) then q else q + 1

/-- `num / den` times `base ^ e`, again as a quotient. -/
def shift (base : Nat) (e : Int) (num den : Nat) : Nat × Nat :=
  (num * Nat.pow base e.toNat, den * Nat.pow base (-e).toNat)

/-- The number of decimal digits. -/
def digitCount (n : Nat) : Nat := (Nat.toDigits 10 n).length

/-- The `e` with `10 ^ e ≤ num / den < 10 ^ (e + 1)`, for a positive quotient. -/
def magnitude (num den : Nat) : Int :=
  let e : Int := digitCount num - digitCount den
  let (n, d) := shift 10 (-e) num den
  if d ≤ n then e else e - 1

/-- Digits with leading zeros up to a length. -/
def padLeft (length : Nat) (digits : List Char) : List Char :=
  List.replicate (length - digits.length) '0' ++ digits

/-- The number `n / 10 ^ places` with all its places; no point without places. -/
def placed (n places : Nat) : List Char :=
  let digits := padLeft (places + 1) (Nat.toDigits 10 n)
  let whole := digits.take (digits.length - places)
  if places = 0 then whole else whole ++ '.' :: digits.drop (digits.length - places)

/-- `num / den` with a fixed number of places. -/
def fixedPlaces (num den places : Nat) : List Char :=
  placed (roundDiv (num * Nat.pow 10 places) den) places

/-- `num / den` as a number `m` of `places + 1` digits and an exponent `e`: the value is about
`m / 10 ^ places * 10 ^ e`. -/
def scientific (num den places : Nat) : Nat × Int :=
  if num = 0 then (0, 0)
  else
    let e := magnitude num den
    let (n, d) := shift 10 (places - e) num den
    let m := roundDiv n d
    if m = Nat.pow 10 (places + 1) then (Nat.pow 10 places, e + 1) else (m, e)

end GotoCheck.Decimal
