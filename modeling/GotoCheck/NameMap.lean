/-! Finite maps from names, kept in ascending order of the names. Names compare by code points, so
two maps with the same bindings list them alike. -/
namespace GotoCheck

/-- Bindings in strictly ascending order of name. -/
structure NameMap (α : Type) where
  entries : List (String × α)

namespace NameMap
variable {α β : Type}

instance : Inhabited (NameMap α) := ⟨⟨[]⟩⟩

def empty : NameMap α := ⟨[]⟩

def get? (m : NameMap α) (name : String) : Option α :=
  (m.entries.find? fun e => e.1 == name).map Prod.snd

def contains (m : NameMap α) (name : String) : Bool := (m.get? name).isSome

/-- Places a binding before the first larger name and overwrites an equal one. -/
def insertEntry (name : String) (value : α) : List (String × α) → List (String × α)
  | [] => [(name, value)]
  | e :: rest =>
    if name < e.1 then (name, value) :: e :: rest
    else if name = e.1 then (name, value) :: rest
    else e :: insertEntry name value rest

def insert (m : NameMap α) (name : String) (value : α) : NameMap α :=
  ⟨insertEntry name value m.entries⟩

/-- The first binding of a name stays. -/
def insertNew (m : NameMap α) (name : String) (value : α) : NameMap α :=
  if m.contains name then m else m.insert name value

/-- Forgets the binding of a name. -/
def erase (m : NameMap α) (name : String) : NameMap α :=
  ⟨m.entries.filter fun e => e.1 != name⟩

def names (m : NameMap α) : List String := m.entries.map Prod.fst

def values (m : NameMap α) : List α := m.entries.map Prod.snd

def size (m : NameMap α) : Nat := m.entries.length

def isEmpty (m : NameMap α) : Bool := m.entries.isEmpty

/-- Every name keeps its place. -/
def mapValues (f : α → β) (m : NameMap α) : NameMap β :=
  ⟨m.entries.map fun e => (e.1, f e.2)⟩

/-- Changes the value of one name, if it is bound. -/
def modify (m : NameMap α) (name : String) (f : α → α) : NameMap α :=
  ⟨m.entries.map fun e => if e.1 = name then (e.1, f e.2) else e⟩

/-- The names ascend strictly; every map built from `empty` by the operations here has it. -/
def Ordered (m : NameMap α) : Prop := m.names.Pairwise (· < ·)

end NameMap
end GotoCheck
