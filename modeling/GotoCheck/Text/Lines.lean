/-! Lines of a text, and numbers in them. -/
namespace GotoCheck.Text

/-- Splits at line feeds. What follows the last one is a line even if it is empty. -/
def splitLines : List Char → List (List Char)
  | [] => [[]]
  | '\n' :: rest => [] :: splitLines rest
  | c :: rest =>
    match splitLines rest with
    | [] => [[c]]
    | l :: ls => (c :: l) :: ls

/-- A carriage return before a line feed belongs to the line end. -/
def dropReturn (l : List Char) : List Char :=
  if l.getLast? = some '\r' then l.dropLast else l

/-- The lines without their line ends. An empty text after the last line feed is no line. -/
def lines (s : String) : List String :=
  let parts := splitLines s.toList
  let closed := parts.dropLast.map fun l => String.ofList (dropReturn l)
  match parts.getLast? with
  | some [] | none => closed
  | some l => closed ++ [String.ofList l]

/-- A number of 32 bits in decimal digits, with at most a plus sign before them. -/
def word32? (s : String) : Option Nat :=
  let digits := match s.toList with
    | '+' :: rest => rest
    | cs => cs
  if digits.isEmpty || !digits.all Char.isDigit then none
  else
    let n := Nat.ofDigitChars 10 digits 0
    if n < 4294967296 then some n else none

end GotoCheck.Text
