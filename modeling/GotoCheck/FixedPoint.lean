/-! Exact decimal text of binary fixed-point numbers. A number with `f` fraction bits needs at most
`f` decimal places, so the digits always end. -/
namespace GotoCheck.FixedPoint

/-- Fraction bits of a format; at most 120 of them count. -/
def fractionBits (width integerBits : Nat) : Nat := min (width - integerBits) 120

/-- The decimal places of `rem / 2 ^ f`, ending with the last non-zero one. `places` bounds their
number. -/
def places (f : Nat) : Nat → Nat → List Char
  | 0, _ => []
  | bound + 1, rem =>
    if rem = 0 then []
    else (rem * 10 / Nat.pow 2 f).digitChar :: places f bound (rem * 10 % Nat.pow 2 f)

/-- The places of a fraction `rem / 2 ^ f`, with a single zero for none. -/
def fraction (f rem : Nat) : List Char :=
  if rem = 0 then ['0'] else places f f rem

/-- The value `bits / 2 ^ f` written out. -/
def decimalChars (bits : Int) (f : Nat) : List Char :=
  (if bits < 0 then ['-'] else []) ++ Nat.toDigits 10 (bits.natAbs / Nat.pow 2 f) ++
    '.' :: fraction f (bits.natAbs % Nat.pow 2 f)

/-- The decimal text of the raw bits of a fixed-point number. -/
def decimal (bits : Int) (width integerBits : Nat) : String :=
  String.ofList (decimalChars bits (fractionBits width integerBits))

end GotoCheck.FixedPoint
