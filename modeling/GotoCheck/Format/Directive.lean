/-! The directives of C format strings. A string splits into plain characters and directives by its
text alone, before any argument is looked at. -/
namespace GotoCheck.Format

structure Flags where
  /-- Justify to the left. -/
  left : Bool
  /-- A plus sign before non-negative numbers. -/
  plus : Bool
  /-- A space before non-negative numbers. -/
  space : Bool
  /-- Fill with zeros. -/
  zero : Bool
  /-- The alternate form. -/
  alternate : Bool

/-- A width or a precision: written out, or taken from the arguments. -/
inductive Amount
  | given (n : Nat)
  | star

structure Directive where
  flags : Flags
  width : Amount
  precision : Option Amount
  conversion : Char

inductive Item
  | plain (c : Char)
  | directive (d : Directive)

def isFlag (c : Char) : Bool := c == '-' || c == '+' || c == ' ' || c == '0' || c == '#'

/-- Length modifiers say nothing about model values. -/
def isLengthModifier (c : Char) : Bool := "hlzjtLq".toList.contains c

def Flags.ofChars (cs : List Char) : Flags :=
  ⟨cs.contains '-', cs.contains '+', cs.contains ' ', cs.contains '0', cs.contains '#'⟩

/-- Reads digits or a star; without either the amount is zero. -/
def readAmount : List Char → Amount × List Char
  | '*' :: rest => (.star, rest)
  | cs => (.given (Nat.ofDigitChars 10 (cs.takeWhile Char.isDigit) 0), cs.dropWhile Char.isDigit)

/-- Reads a precision, which starts with a point. -/
def readPrecision : List Char → Option Amount × List Char
  | '.' :: rest =>
    let (n, rest) := readAmount rest
    (some n, rest)
  | cs => (none, cs)

/-- Reads what follows a percent sign, unless the string ends before the conversion character. -/
def readDirective? (cs : List Char) : Option (Directive × List Char) :=
  let flags := Flags.ofChars (cs.takeWhile isFlag)
  let (width, cs) := readAmount (cs.dropWhile isFlag)
  let (precision, cs) := readPrecision cs
  match cs.dropWhile isLengthModifier with
  | conversion :: rest => some (⟨flags, width, precision, conversion⟩, rest)
  | [] => none

theorem length_readAmount_le (cs : List Char) : (readAmount cs).2.length ≤ cs.length := by
  unfold readAmount
  split
  · simp
  · exact (List.dropWhile_sublist _).length_le

theorem length_readPrecision_le (cs : List Char) : (readPrecision cs).2.length ≤ cs.length := by
  unfold readPrecision
  split
  · exact Nat.le_succ_of_le (length_readAmount_le _)
  · exact Nat.le_refl _

theorem length_readDirective_lt {cs rest : List Char} {d : Directive}
    (h : readDirective? cs = some (d, rest)) : rest.length < cs.length := by
  simp only [readDirective?] at h
  split at h
  · rename_i hd
    cases h
    have h₁ := (List.dropWhile_sublist (l := (readPrecision (readAmount (cs.dropWhile isFlag)).2).2)
      isLengthModifier).length_le
    have h₂ := length_readPrecision_le (readAmount (cs.dropWhile isFlag)).2
    have h₃ := length_readAmount_le (cs.dropWhile isFlag)
    have h₄ := (List.dropWhile_sublist (l := cs) isFlag).length_le
    rw [hd, List.length_cons] at h₁
    omega
  · cases h

/-- Splits a format string. A directive that the string breaks off is dropped. -/
def parse : List Char → List Item
  | [] => []
  | '%' :: '%' :: rest => .plain '%' :: parse rest
  | '%' :: rest =>
    match _h : readDirective? rest with
    | some (d, rest') => .directive d :: parse rest'
    | none => []
  | c :: rest => .plain c :: parse rest
termination_by cs => cs.length
decreasing_by
  · simp only [List.length_cons]; omega
  · have := length_readDirective_lt _h
    simp only [List.length_cons]; omega
  · simp

/-- How many arguments an amount takes. -/
def Amount.arity : Amount → Nat
  | given _ => 0
  | star => 1

/-- How many arguments a directive takes, whatever they are. -/
def Directive.arity (d : Directive) : Nat :=
  d.width.arity + (d.precision.map Amount.arity).getD 0 + 1

end GotoCheck.Format
