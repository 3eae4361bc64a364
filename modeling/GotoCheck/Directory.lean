import GotoCheck.NameMap
import GotoCheck.Path

/-! The files that a run can see: those in and below the folder at hand. -/
namespace GotoCheck

inductive DirectoryEntry
  | folder
  | file (content : List UInt8)

/-- Where something is, from the inside out: its name, the name of the folder around it, and so on.
The folder at hand is `[]`, those around it are `[".."]`, `["..", ".."]` and so on, and the
outermost one is `["/"]`. -/
abbrev Place := List String

namespace Place

/-- The folder around a place; the outermost folder lies in itself. -/
def outer : Place → Place
  | [] => [".."]
  | ".." :: place => ".." :: ".." :: place
  | ["/"] => ["/"]
  | _ :: place => place

/-- The place a name leads to from a folder. -/
def follow (place : Place) (name : String) : Place :=
  if name = "." then place else if name = ".." then place.outer else name :: place

def start (p : Path) : Place := if p.isAbsolute then ["/"] else []

/-- Where a path leads if nothing is in its way. -/
def ofPath (p : Path) : Place := p.names.foldl follow (start p)

/-- The names from the outside in, between slashes. -/
def text (place : Place) : String := "/".intercalate place.reverse

end Place

/-- What is known of the folders, by the texts of places. -/
structure Directory where
  entries : NameMap DirectoryEntry

/-- A file could not be written. -/
structure WriteError where
  path : String
  fault : PathFault

def WriteError.message (e : WriteError) : String :=
  "cannot write witness to " ++ e.path ++ ": " ++ e.fault.message

namespace Directory

def empty : Directory := ⟨.empty⟩

/-- What is at a place. The folder at hand and those around it are always there. -/
def entry? (d : Directory) : Place → Option DirectoryEntry
  | [] | ".." :: _ | ["/"] => some .folder
  | place => d.entries.get? (Place.text place)

/-- Follows names from a place. Each must be looked up in a folder; the last may be new. -/
def follow (d : Directory) (place : Place) : List String → Except PathFault Place
  | [] => .ok place
  | name :: rest =>
    match d.entry? place with
    | none => .error .absent
    | some (.file _) => .error .notFolder
    | some .folder =>
      if Path.maxNameBytes < name.utf8ByteSize then .error .tooLong
      else d.follow (place.follow name) rest

/-- The place that a path names. -/
def locate (d : Directory) (path : String) : Except PathFault Place := do
  let p ← Path.ofString path
  d.follow (Place.start p) p.names

/-- The content of a file. -/
def read? (d : Directory) (path : String) : Option (List UInt8) :=
  match d.locate path with
  | .error _ => none
  | .ok place =>
    match d.entry? place with
    | some (.file content) => some content
    | _ => none

/-- Adds folders until a place is there. -/
def addFolders (d : Directory) : Place → Directory
  | [] => d
  | name :: around =>
    let d := d.addFolders around
    match d.entry? (name :: around) with
    | none => ⟨d.entries.insert (Place.text (name :: around)) .folder⟩
    | some _ => d

/-- Puts a file at a place, and folders around it. -/
def put (d : Directory) (place : Place) (content : List UInt8) : Directory :=
  ⟨(d.addFolders place.tail).entries.insert place.text (.file content)⟩

/-- Puts a file where a path leads. -/
def write (d : Directory) (path : String) (content : List UInt8) : Directory :=
  d.put (.ofPath (.ofText path.toList)) content

/-- Takes away a file. -/
def remove (d : Directory) (path : String) : Directory :=
  ⟨d.entries.erase (Place.ofPath (.ofText path.toList)).text⟩

/-- Writes a text into a file, which may be new. The folder of the file must be there. -/
def save (d : Directory) (path text : String) : Except WriteError Directory :=
  match d.locate path with
  | .error fault => .error ⟨path, fault⟩
  | .ok place =>
    match d.entry? place with
    | some .folder => .error ⟨path, .isFolder⟩
    | _ => .ok (d.put place text.toUTF8.toList)

end Directory
end GotoCheck
