import GotoCheck.Xml

/-! Violation witnesses: a chain of nodes that leads from the entry of a program to a violated
property. What an edge knows about the source stands in its notes. -/
namespace GotoCheck

/-- What an edge of a witness tells about one step of the program. -/
structure WitnessNotes where
  originFile : Option String := none
  /-- What holds after the step. -/
  assumption : Option String := none
  /-- The function that the step is the first one of. -/
  enterFunction : Option String := none
  startLine : Option Nat := none
  endLine : Option Nat := none
  /-- The numbers of the tokens in the file, first and last. -/
  tokens : Option String := none
  sourceCode : Option String := none
deriving DecidableEq

/-- An edge of the chain and what it leads to. -/
structure WitnessLink where
  notes : WitnessNotes := {}
  isViolation : Bool := false
deriving DecidableEq

structure WitnessConfig where
  producer : String := "GBMC"
  language : String := "C"
deriving DecidableEq

/-- The entry node and all links after it. -/
structure Witness where
  config : WitnessConfig
  links : List WitnessLink
deriving DecidableEq

structure WitnessNode where
  number : Nat
  isEntry : Bool := false
  isViolation : Bool := false
deriving DecidableEq

structure WitnessEdge where
  source : Nat
  target : Nat
  notes : WitnessNotes
deriving DecidableEq

namespace WitnessNode

def nameOf (number : Nat) : String := "n" ++ number.repr

def name (n : WitnessNode) : String := nameOf n.number

end WitnessNode

/-- A part of the graph, in the order of creation. -/
inductive WitnessElement
  | node (n : WitnessNode)
  | edge (e : WitnessEdge)

namespace WitnessElement

def node? : WitnessElement → Option WitnessNode
  | node n => some n
  | edge _ => none

def edge? : WitnessElement → Option WitnessEdge
  | node _ => none
  | edge e => some e

end WitnessElement

namespace Witness

/-- The entry alone. -/
def start (config : WitnessConfig) : Witness := ⟨config, []⟩

/-- Leads on to another node. -/
def extend (w : Witness) (notes : WitnessNotes) : Witness :=
  { w with links := w.links ++ [{ notes }] }

/-- Leads on to a violation. -/
def finish (w : Witness) : Witness :=
  { w with links := w.links ++ [{ isViolation := true }] }

/-- Every link after node `last` makes a node and then the edge to it. -/
def linkElements (last : Nat) : List WitnessLink → List WitnessElement
  | [] => []
  | l :: rest =>
    .node { number := last + 1, isViolation := l.isViolation } ::
      .edge ⟨last, last + 1, l.notes⟩ :: linkElements (last + 1) rest

def elements (w : Witness) : List WitnessElement :=
  .node { number := 0, isEntry := true } :: linkElements 0 w.links

def nodes (w : Witness) : List WitnessNode := w.elements.filterMap WitnessElement.node?

def edges (w : Witness) : List WitnessEdge := w.elements.filterMap WitnessElement.edge?

end Witness

/-! The GraphML document. -/

def keyed (key value : String) : Xml := .data "data" [("key", key)] value

namespace WitnessNotes

/-- The notes by key, in the order of the document. -/
def fields (a : WitnessNotes) : List (String × Option String) := [
  ("originFileName", a.originFile), ("assumption", a.assumption),
  ("enterFunction", a.enterFunction), ("startline", a.startLine.map Nat.repr),
  ("endline", a.endLine.map Nat.repr), ("tokens", a.tokens), ("sourcecode", a.sourceCode)]

/-- Only notes that are there are written. -/
def xml (a : WitnessNotes) : List Xml := a.fields.filterMap fun f => f.2.map (keyed f.1)

end WitnessNotes

namespace WitnessElement

def xml : WitnessElement → Xml
  | node n =>
    .element "node" [("id", n.name)]
      ((if n.isEntry then [keyed "entry" "true"] else []) ++
        (if n.isViolation then [keyed "violation" "true"] else []))
  | edge e =>
    .element "edge"
      [("source", WitnessNode.nameOf e.source), ("target", WitnessNode.nameOf e.target)] e.notes.xml

end WitnessElement

namespace Witness

/-- Declares the data that nodes, edges or the graph may carry under a key. -/
def declare (id place name type : String) (default : Option String) : Xml :=
  .element "key" [("id", id), ("for", place), ("attr.name", name), ("attr.type", type)]
    (default.map (Xml.data "default" [])).toList

def declarations : List Xml :=
  let edgeKey (id type : String) := declare id "edge" id type none
  let nodeKey (id name : String) := declare id "node" name "boolean" (some "false")
  let graphKey (id : String) := declare id "graph" id "string" none
  [edgeKey "assumption" "string", edgeKey "enterFunction" "string", edgeKey "startline" "int",
    edgeKey "endline" "int", edgeKey "tokens" "string", edgeKey "sourcecode" "string",
    edgeKey "originFileName" "string", nodeKey "entry" "isEntryNode",
    nodeKey "violation" "isViolationNode", graphKey "sourcecodelang", graphKey "producer"]

def xml (w : Witness) : Xml :=
  .element "graphml" [("xmlns", "http://graphml.graphdrawing.org/xmlns"),
      ("xmlns:xsi", "http://www.w3.org/2001/XMLSchema-instance")]
    (declarations ++
      [.element "graph" [("edgedefault", "directed")]
        (keyed "sourcecodelang" w.config.language :: keyed "producer" w.config.producer ::
          w.elements.map WitnessElement.xml)])

def text (w : Witness) : String := w.xml.document

end Witness
end GotoCheck
