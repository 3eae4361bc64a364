import GotoCheck.Expr.Text
import GotoCheck.Expr.Value
import GotoCheck.Format.Directive
import GotoCheck.Format.Real

/-! Formatted output of model values. Constants format as numbers and characters; any other argument
prints as its expression. -/
namespace GotoCheck.Format

/-- No field is wider than this, and no precision larger. -/
def maxField : Nat := 4096

/-- A directive whose width and precision are known. -/
structure Layout where
  flags : Flags
  width : Nat
  precision : Option Nat

/-- Fills up with spaces. -/
def pad (l : Layout) (cs : List Char) : List Char :=
  let fill := List.replicate (l.width - cs.length) ' '
  if l.flags.left then cs ++ fill else fill ++ cs

/-- The sign of a number: always for a negative one, by the flags for others. -/
def signChars (flags : Flags) (negative : Bool) : List Char :=
  if negative then ['-'] else if flags.plus then ['+'] else if flags.space then [' '] else []

/-- A number in its field: sign, mark of the base, digits. Zeros fill the field between mark and
digits. -/
def padNumber (l : Layout) (fillZeros : Bool) (sign mark digits : List Char) : List Char :=
  if fillZeros && !l.flags.left then
    sign ++ mark ++ List.replicate (l.width - (sign ++ mark ++ digits).length) '0' ++ digits
  else pad l (sign ++ mark ++ digits)

/-- Digits with leading zeros up to the precision. -/
def withPrecision (l : Layout) (digits : List Char) : List Char :=
  Decimal.padLeft (l.precision.getD 0) digits

/-- Zeros fill the field of an integer only where no precision is given. -/
def padInteger (l : Layout) (sign mark digits : List Char) : List Char :=
  padNumber l (l.flags.zero && l.precision.isNone) sign mark (withPrecision l digits)

def signedChars (l : Layout) (v : Int) : List Char :=
  padInteger l (signChars l.flags (decide (v < 0))) [] (Nat.toDigits 10 v.natAbs)

/-- The remainder modulo `2 ^ width`. -/
def wrap (width : Nat) (v : Int) : Nat := (v % Int.ofNat (Nat.pow 2 width)).toNat

/-- A negative value read again in the two's complement of its type; types without a width have 64
bits, and no more than 127 count. With 127 bits, so for every negative value of a type of 127 bits
or more, the addition overflows the signed 128 bits in which it is made, and wraps around. -/
def unsignedValue (v : Int) (type : CType) : Nat :=
  if 0 ≤ v then v.toNat
  else wrap 128 (v + Int.ofNat (Nat.pow 2 (min (type.width?.getD 64) 127)))

/-- An unsigned number with the mark of its base, which zero goes without. -/
def unsignedChars (l : Layout) (v : Nat) (mark digits : List Char) : List Char :=
  padInteger l [] (if l.flags.alternate && v != 0 then mark else []) digits

/-- A sign stands before every negative number but a zero. -/
def realChars (l : Layout) (v : Binary64) (digits : List Char) : List Char :=
  padNumber l l.flags.zero (signChars l.flags (v.isNegative && !v.isZero)) [] digits

def upper (cs : List Char) : List Char := cs.map Char.toUpper

/-- The character of a code point, if it is one. -/
def character? (v : Int) : Option Char :=
  if h : 0 ≤ v ∧ v.toNat.isValidChar then some (Char.ofNatAux v.toNat h.2) else none

/-- The text of a string constant, or of the expression. -/
def stringChars (names : SymbolTable) : Expr → List Char
  | .literal (.string s) _ => s.toList
  | e => (e.text names).toList

/-- An address: a number in hexadecimal two's complement of 128 bits, or the null pointer. -/
def addressChars (names : SymbolTable) : Expr → List Char
  | .literal .null _ => "(nil)".toList
  | .literal (.int v) _ => '0' :: 'x' :: Nat.toDigits 16 (wrap 128 v)
  | e => (e.text names).toList

def integerChars (names : SymbolTable) (l : Layout) (e : Expr) (write : Int → List Char) :
    List Char :=
  match e.int? with
  | some v => write v
  | none => pad l (e.text names).toList

def floatChars (names : SymbolTable) (l : Layout) (e : Expr)
    (write : Binary64 → Nat → List Char) : List Char :=
  match e.float? with
  | some v => realChars l v (write v (l.precision.getD 6))
  | none => pad l (e.text names).toList

/-- One argument under one conversion. Unknown conversions print nothing. -/
def convert (names : SymbolTable) (l : Layout) (conversion : Char) (e : Expr) : List Char :=
  let unsigned (mark : List Char) (digits : Nat → List Char) :=
    integerChars names l e fun v =>
      let n := unsignedValue v e.type
      unsignedChars l n mark (digits n)
  match conversion with
  | 'd' | 'i' => integerChars names l e (signedChars l)
  | 'u' => unsigned [] (Nat.toDigits 10)
  | 'x' => unsigned ['0', 'x'] (Nat.toDigits 16)
  | 'X' => unsigned ['0', 'X'] fun n => upper (Nat.toDigits 16 n)
  | 'o' => unsigned ['0'] (Nat.toDigits 8)
  | 'c' => pad l ((e.int?.bind character?).toList)
  | 's' =>
    let cs := stringChars names e
    pad l (match l.precision with
      | some p => cs.take p
      | none => cs)
  | 'f' | 'F' => floatChars names l e fixedForm
  | 'e' => floatChars names l e exponentForm
  | 'E' => floatChars names l e fun v p => upper (exponentForm v p)
  | 'g' => floatChars names l e fun v p => generalForm v l.flags.alternate p
  | 'G' => floatChars names l e fun v p => upper (generalForm v l.flags.alternate p)
  | 'p' => pad l (addressChars names e)
  | _ => []

/-- The value of an amount and the arguments left. A star takes an integer argument; anything else
in its place, or nothing, counts as zero. -/
def Amount.resolve : Amount → List Expr → Int × List Expr
  | given n, args => (n, args)
  | star, args => ((args.head?.bind Expr.int?).getD 0, args.tail)

def clampField (n : Int) : Nat := min n.natAbs maxField

/-- The text of a directive and the arguments left. A negative width justifies to the left, a
negative precision counts as none, and a directive without an argument prints nothing. -/
def Directive.expand (names : SymbolTable) (d : Directive) (args : List Expr) :
    List Char × List Expr :=
  let (width, args) := d.width.resolve args
  let (precision, args) := match d.precision with
    | none => (none, args)
    | some amount =>
      let (p, args) := amount.resolve args
      (if p < 0 then none else some (clampField p), args)
  let flags := { d.flags with left := d.flags.left || decide (width < 0) }
  let text := match args with
    | [] => []
    | e :: _ => convert names ⟨flags, clampField width, precision⟩ d.conversion e
  (text, args.tail)

def expandItems (names : SymbolTable) : List Item → List Expr → List Char
  | [], _ => []
  | .plain c :: rest, args => c :: expandItems names rest args
  | .directive d :: rest, args =>
    let (text, args) := d.expand names args
    text ++ expandItems names rest args

/-- Expands a format string with the arguments in order. -/
def expand (names : SymbolTable) (format : String) (args : List Expr) : String :=
  String.ofList (expandItems names (parse format.toList) args)

end GotoCheck.Format
