/-! XML trees and their text: one element a line, indented by tabs. -/
namespace GotoCheck

inductive Xml
  /-- An element that holds text only. -/
  | data (name : String) (attributes : List (String × String)) (content : String)
  | element (name : String) (attributes : List (String × String)) (children : List Xml)

namespace Xml

/-- Characters that mean something in markup stand as references. -/
def escape : Char → List Char
  | '&' => "&amp;".toList
  | '<' => "&lt;".toList
  | '>' => "&gt;".toList
  | '"' => "&quot;".toList
  | '\'' => "&apos;".toList
  | c => [c]

def escaped (s : String) : List Char := s.toList.flatMap escape

/-- A name with the attributes after it, as a tag holds them. -/
def tagChars (name : String) (attributes : List (String × String)) : List Char :=
  name.toList ++ attributes.flatMap fun a => ' ' :: a.1.toList ++ '=' :: '"' :: escaped a.2 ++ ['"']

def closingTag (name : String) : List Char := '<' :: '/' :: name.toList ++ ['>']

def indent (depth : Nat) : List Char := List.replicate depth '\t'

mutual
/-- The lines of an element. One without children closes itself. -/
def chars (depth : Nat) : Xml → List Char
  | data name attributes content =>
    indent depth ++ '<' :: tagChars name attributes ++ '>' :: escaped content ++
      closingTag name ++ ['\n']
  | element name attributes [] =>
    indent depth ++ '<' :: tagChars name attributes ++ ['/', '>', '\n']
  | element name attributes (x :: xs) =>
    indent depth ++ '<' :: tagChars name attributes ++ ['>', '\n'] ++
      (chars (depth + 1) x ++ allChars (depth + 1) xs) ++
      indent depth ++ closingTag name ++ ['\n']

def allChars (depth : Nat) : List Xml → List Char
  | [] => []
  | x :: xs => chars depth x ++ allChars depth xs
end

/-- A whole document: the declaration and its element. -/
def document (x : Xml) : String :=
  "<?xml version=\"1.0\" encoding=\"utf-8\"?>\n" ++ String.ofList (x.chars 0)

end Xml
end GotoCheck
