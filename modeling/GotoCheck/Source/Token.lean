import GotoCheck.Source.Extent
import GotoCheck.Text.Utf8

/-! Tokens of C source text. The text is first cut into segments, which together are the whole text;
the tokens are those segments that are not skipped, each with the line it starts on. -/
namespace GotoCheck.Source

inductive Segment
  | skipped (chars : List Char)
  | token (chars : List Char)

namespace Segment

def chars : Segment → List Char
  | skipped s => s
  | token s => s

def isToken : Segment → Bool
  | skipped _ => false
  | token _ => true

end Segment

/-- Cuts a text into segments; `lineStart` tells whether no token stands before it on its line. -/
def segments (lineStart : Bool) : List Char → List Segment
  | [] => []
  | c :: rest =>
    match skipExtent? lineStart c rest with
    | some n =>
      let skipped := c :: rest.take n
      .skipped skipped :: segments (lineStart || skipped.contains '\n') (rest.drop n)
    | none =>
      let n := tokenExtent c rest
      .token (c :: rest.take n) :: segments false (rest.drop n)
termination_by s => s.length
decreasing_by all_goals simp only [List.length_drop, List.length_cons]; omega

structure Token where
  text : String
  /-- The line of the first character; the first line is 1. -/
  line : Nat
deriving DecidableEq

/-- The tokens among the segments of a text that starts on `line`. -/
def tokensFrom (line : Nat) : List Segment → List Token
  | [] => []
  | s :: rest =>
    let later := tokensFrom (line + s.chars.count '\n') rest
    if s.isToken then ⟨String.ofList s.chars, line⟩ :: later else later

def tokenize (source : String) : List Token := tokensFrom 1 (segments true source.toList)

/-- The tokens that start on one line, each with its number in the file. -/
structure LineTokens where
  line : Nat
  tokens : List (Nat × String)

/-- Puts a token before those of its line. -/
def place (number : Nat) (t : Token) : List LineTokens → List LineTokens
  | [] => [⟨t.line, [(number, t.text)]⟩]
  | l :: rest =>
    if t.line < l.line then ⟨t.line, [(number, t.text)]⟩ :: l :: rest
    else if t.line = l.line then { l with tokens := (number, t.text) :: l.tokens } :: rest
    else l :: place number t rest

/-- The tokens by ascending lines. They are numbered from 1 in the order of the file. -/
def byLine (tokens : List Token) : List LineTokens :=
  (tokens.zipIdx 1).foldr (fun (t, number) lines => place number t lines) []

/-- The tokens of a file by lines. Bytes that are no UTF-8 are replaced. -/
def linesOfBytes (bytes : List UInt8) : List LineTokens :=
  byLine (tokenize (String.ofList (Text.decode bytes)))

/-- The tokens on a line, none if it has none. -/
def tokensOn (line : Nat) (lines : List LineTokens) : List (Nat × String) :=
  ((lines.find? fun l => l.line == line).map LineTokens.tokens).getD []

end GotoCheck.Source
