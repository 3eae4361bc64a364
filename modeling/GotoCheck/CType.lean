/-! The C types that expressions carry, with their text in listings. A structure or union prints
by its tag alone. -/
namespace GotoCheck

inductive CType
  | bool
  | signed (width : Nat)
  | unsigned (width : Nat)
  /-- A fixed-point number with `integerBits` bits before the binary point. -/
  | fixed (width integerBits : Nat)
  | float (width : Nat)
  | pointer (target : CType)
  | array (element : CType) (size : Option Nat)
  | struct (tag : String) (members : List (String × CType))
  | union (tag : String) (members : List (String × CType))
  | code (parameters : List CType) (result : CType)
  | void
  | string

namespace CType

def int : CType := .signed 32

def uint : CType := .unsigned 32

/-- The plain character type is signed. -/
def char : CType := .signed 8

/-- The short name of a type's family, as trace records give it. -/
def family : CType → String
  | bool => "bool"
  | signed _ => "signedbv"
  | unsigned _ => "unsignedbv"
  | fixed _ _ => "fixedbv"
  | float _ => "floatbv"
  | pointer _ => "pointer"
  | array _ _ => "array"
  | struct _ _ => "struct"
  | union _ _ => "union"
  | code _ _ => "code"
  | void => "empty"
  | string => "string"

def isBitVector : CType → Bool
  | signed _ | unsigned _ => true
  | _ => false

def isSigned : CType → Bool
  | signed _ => true
  | _ => false

def isFixed : CType → Bool
  | fixed _ _ => true
  | _ => false

def isCode : CType → Bool
  | code _ _ => true
  | _ => false

def isArray : CType → Bool
  | array _ _ => true
  | _ => false

def isPointer : CType → Bool
  | pointer _ => true
  | _ => false

def isStruct : CType → Bool
  | struct _ _ => true
  | _ => false

def isUnion : CType → Bool
  | union _ _ => true
  | _ => false

/-- The width in bits of a scalar; a pointer has 64. -/
def width? : CType → Option Nat
  | bool => some 1
  | signed w | unsigned w | fixed w _ | float w => some w
  | pointer _ => some 64
  | _ => none

/-- The members of a structure or union, none for other types. -/
def members : CType → List (String × CType)
  | struct _ ms | union _ ms => ms
  | _ => []

/-- The type of the first member of that name. -/
def memberType? (t : CType) (name : String) : Option CType :=
  (t.members.find? fun m => m.1 == name).map Prod.snd

/-- What a pointer points to, or an array holds. -/
def subtype? : CType → Option CType
  | pointer t | array t _ => some t
  | _ => none

/-- The names that C has for integers of a width. -/
def integerName? : Nat → Option String
  | 8 => some "char"
  | 16 => some "short int"
  | 32 => some "int"
  | 64 => some "long int"
  | _ => none

def signedText (width : Nat) : String :=
  match integerName? width with
  | some name => "signed " ++ name
  | none => "__signedbv<" ++ width.repr ++ ">"

def unsignedText (width : Nat) : String :=
  match integerName? width with
  | some name => "unsigned " ++ name
  | none => "__unsignedbv<" ++ width.repr ++ ">"

def floatText : Nat → String
  | 32 => "float"
  | 64 => "double"
  | w => "__floatbv<" ++ w.repr ++ ">"

mutual
def text : CType → String
  | bool => "_Bool"
  | signed w => signedText w
  | unsigned w => unsignedText w
  | fixed w i => "__fixedbv<" ++ w.repr ++ ", " ++ i.repr ++ ">"
  | float w => floatText w
  | pointer t => t.text ++ " *"
  | array t (some n) => t.text ++ " [" ++ n.repr ++ "]"
  | array t none => t.text ++ " []"
  | struct tag _ => "struct " ++ tag
  | union tag _ => "union " ++ tag
  | code ps r => r.text ++ " (" ++ ", ".intercalate (texts ps) ++ ")"
  | void => "void"
  | string => "string"

def texts : List CType → List String
  | [] => []
  | t :: ts => t.text :: texts ts
end

end CType
end GotoCheck
