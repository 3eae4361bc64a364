import GotoCheck.Proofs.Witness.Text
import GotoCheck.Witness.Generator

/-! How a witness grows. Its nodes and edges stand in one list that is only appended to, beside a
count of the nodes, which gives the next one its name, and the name of the last node, from which the
next edge leads on. That comes to the chain of links, with the same document. -/
namespace GotoCheck

structure NamedNode where
  id : String
  isEntry : Bool := false
  isViolation : Bool := false

structure NamedEdge where
  source : String := ""
  target : String := ""
  notes : WitnessNotes := {}

inductive NamedElement
  | node (n : NamedNode)
  | edge (e : NamedEdge)

def NamedElement.xml : NamedElement → Xml
  | node n =>
    .element "node" [("id", n.id)]
      ((if n.isEntry then [keyed "entry" "true"] else []) ++
        (if n.isViolation then [keyed "violation" "true"] else []))
  | edge e => .element "edge" [("source", e.source), ("target", e.target)] e.notes.xml

/-- The element with names for the numbers of its nodes. -/
def WitnessElement.named : WitnessElement → NamedElement
  | node n => .node ⟨n.name, n.isEntry, n.isViolation⟩
  | edge e => .edge ⟨WitnessNode.nameOf e.source, WitnessNode.nameOf e.target, e.notes⟩

theorem WitnessElement.xml_named (e : WitnessElement) : e.named.xml = e.xml := by
  cases e with
  | node n => rfl
  | edge e => rfl

/-- The document of a witness by its header and the trees of its elements. -/
def Witness.frame (config : WitnessConfig) (elements : List Xml) : Xml :=
  .element "graphml" [("xmlns", "http://graphml.graphdrawing.org/xmlns"),
      ("xmlns:xsi", "http://www.w3.org/2001/XMLSchema-instance")]
    (declarations ++
      [.element "graph" [("edgedefault", "directed")]
        (keyed "sourcecodelang" config.language :: keyed "producer" config.producer :: elements)])

structure WitnessGraph where
  config : WitnessConfig
  /-- Nodes and edges in the order of creation. -/
  elements : List NamedElement
  nodeCount : Nat
  lastNode : String

namespace WitnessGraph

/-- Appends a node and gives its name. -/
def addNode (g : WitnessGraph) (isEntry isViolation : Bool) : WitnessGraph × String :=
  let id := "n" ++ g.nodeCount.repr
  ({ g with
      elements := g.elements ++ [.node { id, isEntry, isViolation }]
      nodeCount := g.nodeCount + 1 }, id)

/-- The entry alone. -/
def start (config : WitnessConfig) : WitnessGraph :=
  let (g, entry) :=
    ({ config, elements := [], nodeCount := 0, lastNode := "" } : WitnessGraph).addNode true false
  { g with lastNode := entry }

/-- Adds a node and the edge that leads to it from the last one. The ends of the edge are filled in
here. -/
def extend (g : WitnessGraph) (e : NamedEdge) : WitnessGraph :=
  let (g, target) := g.addNode false false
  { g with
    elements := g.elements ++ [.edge { e with source := g.lastNode, target }]
    lastNode := target }

/-- Adds the violation. -/
def finish (g : WitnessGraph) : WitnessGraph :=
  let (g, target) := g.addNode false true
  { g with
    elements := g.elements ++ [.edge { source := g.lastNode, target }]
    lastNode := target }

def text (g : WitnessGraph) : String :=
  (Witness.frame g.config (g.elements.map NamedElement.xml)).document

/-- The graph has the elements of the witness, and goes on where the witness does. -/
structure Holds (g : WitnessGraph) (w : Witness) : Prop where
  config : g.config = w.config
  elements : g.elements = w.elements.map WitnessElement.named
  nodeCount : g.nodeCount = w.links.length + 1
  lastNode : g.lastNode = WitnessNode.nameOf w.links.length

variable {g : WitnessGraph} {w : Witness}

theorem holds_start (config : WitnessConfig) : (start config).Holds (.start config) where
  config := rfl
  elements := rfl
  nodeCount := rfl
  lastNode := rfl

/-- One more link makes a node and the edge to it, behind all that is there. -/
theorem linkElements_concat (last : Nat) (links : List WitnessLink) (l : WitnessLink) :
    Witness.linkElements last (links ++ [l]) = Witness.linkElements last links ++
      [.node { number := last + links.length + 1, isViolation := l.isViolation },
        .edge ⟨last + links.length, last + links.length + 1, l.notes⟩] := by
  induction links generalizing last with
  | nil => rfl
  | cons k links ih =>
    have hlength : last + 1 + links.length = last + (links.length + 1) := by omega
    rw [List.cons_append, Witness.linkElements, Witness.linkElements, ih, List.length_cons, hlength]
    rfl

/-- Both ways to lead on append a node and the edge to it from the last one. -/
theorem Holds.link (h : g.Holds w) (l : WitnessLink) :
    Holds
      { config := g.config
        elements := g.elements ++
          [.node { id := "n" ++ g.nodeCount.repr, isViolation := l.isViolation }] ++
          [.edge ⟨g.lastNode, "n" ++ g.nodeCount.repr, l.notes⟩]
        nodeCount := g.nodeCount + 1
        lastNode := "n" ++ g.nodeCount.repr }
      { w with links := w.links ++ [l] } where
  config := h.config
  elements := by
    have hconcat := linkElements_concat 0 w.links l
    rw [Nat.zero_add] at hconcat
    rw [Witness.elements, hconcat, ← List.cons_append, List.map_append, h.elements, h.nodeCount,
      h.lastNode, List.append_assoc]
    rfl
  nodeCount := by rw [h.nodeCount, List.length_append, List.length_singleton]
  lastNode := by
    rw [h.nodeCount, List.length_append, List.length_singleton]
    rfl

theorem Holds.extend (h : g.Holds w) (e : NamedEdge) : (g.extend e).Holds (w.extend e.notes) :=
  h.link { notes := e.notes }

theorem Holds.finish (h : g.Holds w) : g.finish.Holds w.finish :=
  h.link { isViolation := true }

theorem Holds.text_eq (h : g.Holds w) : g.text = w.text := by
  have hxml : g.elements.map NamedElement.xml = w.elements.map WitnessElement.xml := by
    rw [h.elements, List.map_map]
    exact List.map_congr_left fun e _ => e.xml_named
  rw [text, hxml, h.config]
  rfl

def move (g : WitnessGraph) : WitnessMove → WitnessGraph
  | .extend notes => g.extend { notes }
  | .finish => g.finish

/-- What the given steps make of the entry alone. -/
def made (config : WitnessConfig) (moves : List WitnessMove) : WitnessGraph :=
  moves.foldl move (start config)

theorem Holds.move (h : g.Holds w) (m : WitnessMove) : (g.move m).Holds (w.move m) := by
  cases m with
  | extend notes => exact h.extend { notes }
  | finish => exact h.finish

/-- Step by step the graph stays the one of the chain. -/
theorem holds_made (config : WitnessConfig) (moves : List WitnessMove) :
    (made config moves).Holds (Witness.made config moves) := by
  have hfoldl : ∀ (g : WitnessGraph) (w : Witness), g.Holds w →
      (moves.foldl WitnessGraph.move g).Holds (moves.foldl Witness.move w) := by
    induction moves with
    | nil => exact fun g w h => h
    | cons m moves ih => exact fun g w h => ih _ _ (h.move m)
  exact hfoldl _ _ (holds_start config)

end WitnessGraph

/-- What a generator writes is the document of the graph that grows by its notes. -/
theorem WitnessGenerator.text_generate (g : WitnessGenerator) (d : Directory) (t : Trace) :
    (g.generate d t).2.text =
      (WitnessGraph.made g.config
        ((notes g.names d g.cache "" t.shownAssignments).2.map .extend ++ [.finish])).text := by
  rw [(WitnessGraph.holds_made _ _).text_eq, Witness.made, List.foldl_append, List.foldl_map]
  rfl

end GotoCheck
