import GotoCheck.Expr
import GotoCheck.Location
import GotoCheck.NameMap

/-! Declarations and the table that resolves qualified names. -/
namespace GotoCheck

structure Symbol where
  /-- The qualified name, such as `c::main::x`. -/
  name : String
  /-- The name in the source, such as `x`. -/
  baseName : String
  /-- The name shown to readers; empty when the qualified name is to be shown. -/
  prettyName : String
  module : String := ""
  type : CType
  value : Option Expr := none
  location : Location := {}
  isLvalue : Bool := true
  isStatic : Bool := false
  isMacro : Bool := false
  isType : Bool := false

inductive SymbolError
  | duplicate (name : String)

def SymbolError.message : SymbolError → String
  | duplicate name => "symbol '" ++ name ++ "' is already defined"

namespace Symbol

/-- A variable is shown by its base name. -/
def ofVariable (name baseName : String) (type : CType) : Symbol :=
  { name, baseName, prettyName := baseName, type }

def ofFunction (name baseName : String) (type : CType) : Symbol :=
  { name, baseName, prettyName := baseName, type, isLvalue := false }

def expr (s : Symbol) : Expr := .symbol s.name s.type

end Symbol

structure SymbolTable where
  symbols : NameMap Symbol

namespace SymbolTable

def empty : SymbolTable := ⟨.empty⟩

/-- A name is declared once. -/
def insert (t : SymbolTable) (s : Symbol) : Except SymbolError SymbolTable :=
  if t.symbols.contains s.name then .error (.duplicate s.name)
  else .ok ⟨t.symbols.insert s.name s⟩

/-- Declares the symbols in order; the first of a name wins. -/
def ofList (symbols : List Symbol) : SymbolTable :=
  ⟨symbols.foldl (fun m s => m.insertNew s.name s) .empty⟩

def lookup? (t : SymbolTable) (name : String) : Option Symbol := t.symbols.get? name

/-- The pretty name of a declared symbol that has one, otherwise the name itself. -/
def displayName (t : SymbolTable) (name : String) : String :=
  match t.lookup? name with
  | some s => if s.prettyName.isEmpty then name else s.prettyName
  | none => name

def baseName (t : SymbolTable) (name : String) : String :=
  match t.lookup? name with
  | some s => s.baseName
  | none => ""

def names (t : SymbolTable) : List String := t.symbols.names

def size (t : SymbolTable) : Nat := t.symbols.size

end SymbolTable
end GotoCheck
