import GotoCheck.CType

/-! Typed C expressions. Every node carries its type; the functions named `mk…` derive it from the
operands as C does. -/
namespace GotoCheck

inductive UnaryOp
  | not
  | neg
  | complement
deriving DecidableEq

inductive BinaryOp
  | add | sub | mul | div | mod
  | shiftLeft | shiftRight
  | bitAnd | bitOr | bitXor
  | and | or
  | eq | ne | lt | le | gt | ge
deriving DecidableEq

inductive Literal
  | bool (value : Bool)
  /-- An integer, already read with its sign. -/
  | int (value : Int)
  /-- The raw bits of a fixed-point number. -/
  | fixed (bits : Int)
  | string (value : String)
  | null
deriving DecidableEq

inductive Expr
  | symbol (name : String) (type : CType)
  | literal (value : Literal) (type : CType)
  | unary (op : UnaryOp) (operand : Expr) (type : CType)
  | binary (op : BinaryOp) (left right : Expr) (type : CType)
  | addressOf (operand : Expr) (type : CType)
  | dereference (pointer : Expr) (type : CType)
  | index (base position : Expr) (type : CType)
  | member (base : Expr) (field : String) (type : CType)
  /-- A conversion to the node's type. -/
  | cast (operand : Expr) (type : CType)
  | conditional (test whenTrue whenFalse : Expr) (type : CType)
  /-- One value per member, in the order of their declaration. -/
  | structValue (values : List Expr) (type : CType)
  | arrayValue (values : List Expr) (type : CType)
  /-- Any value of the type. -/
  | nondet (type : CType)

namespace UnaryOp

def text : UnaryOp → String
  | not => "!"
  | neg => "-"
  | complement => "~"

def all : List UnaryOp := [not, neg, complement]

def ofText? (s : String) : Option UnaryOp := all.find? fun op => op.text == s

end UnaryOp

namespace BinaryOp

def text : BinaryOp → String
  | add => "+"
  | sub => "-"
  | mul => "*"
  | div => "/"
  | mod => "%"
  | shiftLeft => "<<"
  | shiftRight => ">>"
  | bitAnd => "&"
  | bitOr => "|"
  | bitXor => "^"
  | and => "&&"
  | or => "||"
  | eq => "=="
  | ne => "!="
  | lt => "<"
  | le => "<="
  | gt => ">"
  | ge => ">="

def all : List BinaryOp :=
  [add, sub, mul, div, mod, shiftLeft, shiftRight, bitAnd, bitOr, bitXor, and, or,
    eq, ne, lt, le, gt, ge]

def ofText? (s : String) : Option BinaryOp := all.find? fun op => op.text == s

/-- How tightly the operator binds in C; larger is tighter. -/
def precedence : BinaryOp → Nat
  | mul | div | mod => 13
  | add | sub => 12
  | shiftLeft | shiftRight => 11
  | lt | le | gt | ge => 10
  | eq | ne => 9
  | bitAnd => 8
  | bitXor => 7
  | bitOr => 6
  | and => 5
  | or => 4

/-- The result is a truth value and not of the operands' type. -/
def isPredicate : BinaryOp → Bool
  | and | or | eq | ne | lt | le | gt | ge => true
  | _ => false

end BinaryOp

namespace Expr

def type : Expr → CType
  | symbol _ t | literal _ t | unary _ _ t | binary _ _ _ t | addressOf _ t | dereference _ t
  | index _ _ t | member _ _ t | cast _ t | conditional _ _ _ t | structValue _ t
  | arrayValue _ t | nondet t => t

/-- The same node with another type. -/
def withType : Expr → CType → Expr
  | symbol n _, t => symbol n t
  | literal v _, t => literal v t
  | unary op e _, t => unary op e t
  | binary op l r _, t => binary op l r t
  | addressOf e _, t => addressOf e t
  | dereference e _, t => dereference e t
  | index b i _, t => index b i t
  | member b f _, t => member b f t
  | cast e _, t => cast e t
  | conditional c a b _, t => conditional c a b t
  | structValue vs _, t => structValue vs t
  | arrayValue vs _, t => arrayValue vs t
  | nondet _, t => nondet t

def ofBool (b : Bool) : Expr := literal (.bool b) .bool

def ofInt (value : Int) (type : CType) : Expr := literal (.int value) type

def ofString (value : String) : Expr := literal (.string value) .string

def mkUnary (op : UnaryOp) (operand : Expr) : Expr :=
  unary op operand (if op = .not then .bool else operand.type)

def mkBinary (op : BinaryOp) (left right : Expr) : Expr :=
  binary op left right (if op.isPredicate then .bool else left.type)

def mkAddressOf (operand : Expr) : Expr := addressOf operand (.pointer operand.type)

def mkDereference (pointer : Expr) : Expr :=
  dereference pointer (pointer.type.subtype?.getD .void)

def mkIndex (base position : Expr) : Expr := index base position (base.type.subtype?.getD .void)

def mkMember (base : Expr) (field : String) : Expr :=
  member base field ((base.type.memberType? field).getD .void)

def mkConditional (test whenTrue whenFalse : Expr) : Expr :=
  conditional test whenTrue whenFalse whenTrue.type

/-- The literal truth, not merely an expression that always holds. -/
def isTrue : Expr → Bool
  | literal (.bool true) _ => true
  | _ => false

def isFalse : Expr → Bool
  | literal (.bool false) _ => true
  | _ => false

def isLiteral : Expr → Bool
  | literal _ _ => true
  | _ => false

def isDereference : Expr → Bool
  | dereference _ _ => true
  | _ => false

def symbolName? : Expr → Option String
  | symbol n _ => some n
  | _ => none

def isSymbol (e : Expr) : Bool := e.symbolName?.isSome

/-- The direct parts, in the order of evaluation. -/
def operands : Expr → List Expr
  | symbol _ _ | literal _ _ | nondet _ => []
  | unary _ e _ | addressOf e _ | dereference e _ | member e _ _ | cast e _ => [e]
  | binary _ l r _ => [l, r]
  | index b i _ => [b, i]
  | conditional c a b _ => [c, a, b]
  | structValue vs _ | arrayValue vs _ => vs

mutual
/-- The expression and all that it is built from, each node before its parts. -/
def nodes : Expr → List Expr
  | symbol n t => [symbol n t]
  | literal v t => [literal v t]
  | nondet t => [nondet t]
  | unary op e t => unary op e t :: e.nodes
  | addressOf e t => addressOf e t :: e.nodes
  | dereference e t => dereference e t :: e.nodes
  | member e f t => member e f t :: e.nodes
  | cast e t => cast e t :: e.nodes
  | binary op l r t => binary op l r t :: (l.nodes ++ r.nodes)
  | index b i t => index b i t :: (b.nodes ++ i.nodes)
  | conditional c a b t => conditional c a b t :: (c.nodes ++ (a.nodes ++ b.nodes))
  | structValue vs t => structValue vs t :: allNodes vs
  | arrayValue vs t => arrayValue vs t :: allNodes vs

def allNodes : List Expr → List Expr
  | [] => []
  | e :: es => e.nodes ++ allNodes es
end

/-- The value of an integer or truth constant. -/
def int? : Expr → Option Int
  | literal (.int v) _ => some v
  | literal (.bool b) _ => some (if b then 1 else 0)
  | _ => none

end Expr
end GotoCheck
