/-! Paths as texts: names between slashes. -/
namespace GotoCheck

/-- What keeps a path from naming a file. -/
inductive PathFault
  /-- There is nothing at the path, or at a folder on its way. -/
  | absent
  /-- The path goes on after a file. -/
  | notFolder
  /-- The path names a folder. -/
  | isFolder
  /-- The path or a name in it is longer than paths and names may be. -/
  | tooLong
  /-- The path holds the null character, which ends paths. -/
  | null
deriving DecidableEq

def PathFault.message : PathFault → String
  | absent => "No such file or directory (os error 2)"
  | notFolder => "Not a directory (os error 20)"
  | isFolder => "Is a directory (os error 21)"
  | tooLong => "File name too long (os error 36)"
  | null => "file name contained an unexpected NUL byte"

/-- A way through folders. -/
structure Path where
  /-- Whether the way begins at the outermost folder and not at the one at hand. -/
  isAbsolute : Bool
  names : List String
deriving DecidableEq

namespace Path

/-- The parts of a text between its slashes. -/
def parts : List Char → List (List Char)
  | [] => [[]]
  | c :: rest =>
    if c = '/' then [] :: parts rest
    else match parts rest with
      | [] => [[c]]
      | p :: ps => (c :: p) :: ps

/-- Reads a path; slashes in a row count as one. -/
def ofText (cs : List Char) : Path :=
  { isAbsolute := cs.head? = some '/'
    names := ((parts cs).filter fun p => !p.isEmpty).map String.ofList }

/-- A path takes at most 4095 bytes. -/
def maxBytes : Nat := 4095

/-- A name takes at most 255 bytes. -/
def maxNameBytes : Nat := 255

/-- Reads the path of a file. After a slash at its end nothing but a folder could stand, so that the
last name no longer matters. -/
def ofString (s : String) : Except PathFault Path :=
  if s.isEmpty then .error .absent
  else if s.toList.contains '\x00' then .error .null
  else if maxBytes < s.utf8ByteSize then .error .tooLong
  else
    let p := ofText s.toList
    .ok (if s.toList.getLast? = some '/' then { p with names := p.names.dropLast ++ ["."] } else p)

end Path
end GotoCheck
