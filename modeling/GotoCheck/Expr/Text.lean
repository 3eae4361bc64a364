import GotoCheck.FixedPoint
import GotoCheck.Symbol

/-! Expressions in C syntax. The text is a row of lexemes with single spaces between some of them,
so that what is written can be compared with what a reader of C finds. An operand that binds less
tightly than its place asks for stands in parentheses. -/
namespace GotoCheck

/-- A part of a printed text. -/
inductive Piece
  | lexeme (text : String)
  | gap
deriving DecidableEq

namespace Piece

def text : Piece → String
  | lexeme s => s
  | gap => " "

def lexeme? : Piece → Option String
  | lexeme s => some s
  | gap => none

def join (ps : List Piece) : String := String.join (ps.map text)

/-- Puts a comma and a space between the items. -/
def commaSeparated : List (List Piece) → List Piece
  | [] => []
  | [ps] => ps
  | ps :: qs :: rest => ps ++ lexeme "," :: gap :: commaSeparated (qs :: rest)

end Piece

namespace Literal

/-- A string constant between quotes; quotes, backslashes, line feeds and tabs are escaped. -/
def quoted (s : String) : String :=
  let escape : Char → List Char
    | '"' => ['\\', '"']
    | '\\' => ['\\', '\\']
    | '\n' => ['\\', 'n']
    | '\t' => ['\\', 't']
    | c => [c]
  String.ofList ('"' :: s.toList.flatMap escape ++ ['"'])

/-- A negative integer is a minus sign before a numeral. -/
def pieces (type : CType) : Literal → List Piece
  | bool true => [.lexeme "TRUE"]
  | bool false => [.lexeme "FALSE"]
  | int v => (if v < 0 then [.lexeme "-"] else []) ++ [.lexeme v.natAbs.repr]
  | fixed bits =>
    match type with
    | .fixed width integerBits => [.lexeme (FixedPoint.decimal bits width integerBits)]
    | _ => [.lexeme bits.repr]
  | string s => [.lexeme (quoted s)]
  | null => [.lexeme "NULL"]

/-- A leading minus sign makes a constant bind like a prefixed operand. -/
def level : Literal → Nat
  | int v => if v < 0 then 14 else 16
  | fixed bits => if bits < 0 then 14 else 16
  | _ => 16

end Literal

namespace Expr

/-- How tightly the text of an expression holds together; larger is tighter. -/
def level : Expr → Nat
  | symbol _ _ | nondet _ | structValue _ _ | arrayValue _ _ => 16
  | literal v _ => v.level
  | index _ _ _ | member _ _ _ => 15
  | unary _ _ _ | addressOf _ _ | dereference _ _ | cast _ _ => 14
  | binary op _ _ _ => op.precedence
  | conditional _ _ _ _ => 3

/-- Encloses the text of `e` in parentheses where its place asks for a tighter one. -/
def fit (place : Nat) (e : Expr) (ps : List Piece) : List Piece :=
  if e.level < place then .lexeme "(" :: ps ++ [.lexeme ")"] else ps

/-- Writes `.name=` before each value that has a name. -/
def labelled : List String → List (List Piece) → List (List Piece)
  | n :: ns, ps :: rest => (.lexeme "." :: .lexeme n :: .lexeme "=" :: ps) :: labelled ns rest
  | _, items => items

def braced (ps : List Piece) : List Piece :=
  [.lexeme "\x7b", .gap] ++ ps ++ [.gap, .lexeme "\x7d"]

mutual
/-- The text without parentheses of its own. A binary operator groups to the left, so an operand of
its own level needs parentheses on the right. -/
def pieces (names : SymbolTable) : Expr → List Piece
  | symbol n _ => [.lexeme (names.displayName n)]
  | literal v t => v.pieces t
  | unary op e _ => .lexeme op.text :: fit 14 e (pieces names e)
  | binary op l r _ =>
    fit op.precedence l (pieces names l) ++ .gap :: .lexeme op.text :: .gap ::
      fit (op.precedence + 1) r (pieces names r)
  | addressOf e _ => .lexeme "&" :: fit 14 e (pieces names e)
  | dereference e _ => .lexeme "*" :: fit 14 e (pieces names e)
  | index b i _ => fit 15 b (pieces names b) ++ .lexeme "[" :: pieces names i ++ [.lexeme "]"]
  | member (dereference p _) f _ => fit 15 p (pieces names p) ++ [.lexeme "->", .lexeme f]
  | member b f _ => fit 15 b (pieces names b) ++ [.lexeme ".", .lexeme f]
  | cast e t => .lexeme "(" :: .lexeme t.text :: .lexeme ")" :: fit 14 e (pieces names e)
  | conditional c a b _ =>
    fit 4 c (pieces names c) ++ .gap :: .lexeme "?" :: .gap :: fit 4 a (pieces names a) ++
      .gap :: .lexeme ":" :: .gap :: fit 3 b (pieces names b)
  | structValue vs t =>
    braced (Piece.commaSeparated (labelled (t.members.map Prod.fst) (items names vs)))
  | arrayValue vs _ => braced (Piece.commaSeparated (items names vs))
  | nondet t => [.lexeme "NONDET", .lexeme "(", .lexeme t.text, .lexeme ")"]

/-- The values of an aggregate, each fit to stand between commas. -/
def items (names : SymbolTable) : List Expr → List (List Piece)
  | [] => []
  | e :: es => fit 3 e (pieces names e) :: items names es
end

/-- The expression in C syntax, with symbols shown by their display names. -/
def text (names : SymbolTable) (e : Expr) : String := Piece.join (e.pieces names)

/-- What is written, lexeme by lexeme. -/
def lexemes (names : SymbolTable) (e : Expr) : List String :=
  (e.pieces names).filterMap Piece.lexeme?

end Expr
end GotoCheck
