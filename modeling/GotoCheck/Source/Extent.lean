import GotoCheck.Text.Blank
import GotoCheck.Text.Letters

/-! How far the parts of a C source text reach. Every function looks at the text after the first
character of a part, or after its first two, and counts the characters that still belong to it. -/
namespace GotoCheck.Source

/-- Up to the line feed, which stays outside. -/
def lineExtent (rest : List Char) : Nat := (rest.takeWhile (· != '\n')).length

/-- Up to the end of a block comment and including it. One that is never closed takes everything. -/
def commentExtent : List Char → Nat
  | [] => 0
  | '*' :: '/' :: _ => 2
  | _ :: rest => commentExtent rest + 1

/-- Up to the line feed that ends a directive. A backslash before a line feed continues the line,
and so does a block comment; `inComment` tells whether one is open. -/
def directiveExtent (inComment : Bool) : List Char → Nat
  | [] => 0
  | c :: rest =>
    match inComment, c, rest with
    | true, '*', '/' :: rest => directiveExtent false rest + 2
    | true, _, rest => directiveExtent true rest + 1
    | false, '\n', _ => 0
    | false, '\\', '\n' :: rest => directiveExtent false rest + 2
    | false, '/', '*' :: rest => directiveExtent true rest + 2
    | false, _, rest => directiveExtent false rest + 1

/-- Up to the closing quote and including it. A literal that is not closed on its line ends there; a
backslash takes the next character with it. -/
def quotedExtent (quote : Char) : List Char → Nat
  | [] => 0
  | '\n' :: _ => 0
  | ['\\'] => 1
  | '\\' :: '\n' :: _ => 1
  | '\\' :: _ :: rest => quotedExtent quote rest + 2
  | c :: rest => if c = quote then 1 else quotedExtent quote rest + 1

def isQuote (c : Char) : Bool := c = '"' || c = '\''

/-- A letter that takes a sign after it in a number. -/
def isExponentMark (c : Char) : Bool := c ∈ ['e', 'E', 'p', 'P']

def isSign (c : Char) : Bool := c = '+' || c = '-'

def isNumberChar (c : Char) : Bool := c.isAlphanum || c = '_' || c = '.'

/-- The rest of a preprocessing number: digits, letters, points and signed exponents. -/
def numberExtent : List Char → Nat
  | [] => 0
  | [c] => if isNumberChar c then 1 else 0
  | c :: d :: rest =>
    if isExponentMark c && isSign d then numberExtent rest + 2
    else if isNumberChar c then numberExtent (d :: rest) + 1
    else 0

def isWordStart (c : Char) : Bool := Text.isAlphabetic c || c = '_'

def isWordChar (c : Char) : Bool := Text.isAlphanumeric c || c = '_'

/-- Words that, directly before a quote, tell the encoding of a literal. -/
def encodings : List (List Char) := [['L'], ['u'], ['U'], ['u', '8']]

/-- The rest of an identifier and of the literal that it is an encoding of. -/
def wordExtent (c : Char) (rest : List Char) : Nat :=
  let tail := rest.takeWhile isWordChar
  let literal :=
    match rest.drop tail.length with
    | quote :: rest =>
      if c :: tail ∈ encodings ∧ isQuote quote then quotedExtent quote rest + 1 else 0
    | [] => 0
  tail.length + literal

/-- Punctuators of more than one character, the longer ones first. -/
def punctuators : List String := [
  "<<=", ">>=", "...",
  "->", "++", "--", "<<", ">>", "<=", ">=", "==", "!=", "&&", "||", "*=", "/=", "%=", "+=", "-=",
  "&=", "^=", "|=", "##"]

/-- The rest of the first punctuator that the text starts with; any other character stands alone. -/
def punctuatorExtent (c : Char) (rest : List Char) : Nat :=
  match punctuators.find? fun p => p.toList.isPrefixOf (c :: rest) with
  | some p => p.length - 1
  | none => 0

def startsNumber (c : Char) (rest : List Char) : Bool :=
  c.isDigit || (c = '.' && rest.head?.any Char.isDigit)

/-- How far a token reaches past its first character. -/
def tokenExtent (c : Char) (rest : List Char) : Nat :=
  if isQuote c then quotedExtent c rest
  else if startsNumber c rest then numberExtent rest
  else if isWordStart c then wordExtent c rest
  else punctuatorExtent c rest

/-- How far what carries no token reaches past its first character, if nothing of it does: a blank,
a line continuation, a comment, or a directive where no token stands before it on the line. -/
def skipExtent? (lineStart : Bool) (c : Char) (rest : List Char) : Option Nat :=
  match c, rest with
  | '\\', '\n' :: _ => some 1
  | '/', '/' :: rest => some (lineExtent rest + 1)
  | '/', '*' :: rest => some (commentExtent rest + 1)
  | '#', rest => if lineStart then some (directiveExtent false rest) else none
  | c, _ => if Text.isBlank c then some 0 else none

end GotoCheck.Source
