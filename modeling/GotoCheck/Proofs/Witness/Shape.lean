import Mathlib.Data.List.Forall2
import GotoCheck.Proofs.SymbolName
import GotoCheck.Proofs.Witness.Cache

/-! The shape of a witness: a chain with one node and one edge for each assignment of the checked
program to a variable of its own, and one more for the violation. -/
namespace GotoCheck

/-- A step that a witness shows. -/
structure Step.Qualifies (s : Step) : Prop where
  kind : s.kind = .assignment
  notBuiltIn : ¬"built-in".toList <:+: s.instruction.location.text.toList
  notLibrary : ¬"library".toList <:+: s.instruction.location.text.toList
  target : ∃ n t, s.lhs = some (.symbol n t) ∧ ¬SymbolName.temporaryMark.toList <:+: n.toList

/-- The function that a step is in, by its name without the mark of the language. -/
def Step.InFunction (s : Step) (name : String) : Prop :=
  s.instruction.function = "c::" ++ name ∨
    ¬"c::".toList <+: s.instruction.function.toList ∧ s.instruction.function = name

/-- Nodes are numbered from the entry to the violation, an edge leads from each to the next, and
each edge is made right after its target. -/
structure Witness.IsChain (w : Witness) (notes : List WitnessNotes) : Prop where
  nodes : w.nodes = (List.range (notes.length + 1)).map fun i =>
    { number := i, isEntry := i = 0, isViolation := i = notes.length }
  edges : w.edges = notes.zipIdx.map fun (a, i) => ⟨i, i + 1, a⟩
  order : ∀ k e, w.elements[k]? = some (.edge e) →
    ∃ j n, k = j + 1 ∧ w.elements[j]? = some (.node n) ∧ n.number = e.target

namespace WitnessNotes

/-- The function entered last, edge by edge. -/
def functionsAlong (current : String) : List WitnessNotes → List String
  | [] => []
  | a :: rest =>
    a.enterFunction.getD current :: functionsAlong (a.enterFunction.getD current) rest

/-- An edge carries the file and the line of a step, if they are known. -/
structure AtPlaceOf (a : WitnessNotes) (s : Step) : Prop where
  file : a.originFile =
    if s.instruction.location.file = "" then none else some s.instruction.location.file
  startLine : a.startLine =
    if s.instruction.location.line = 0 then none else some s.instruction.location.line
  endLine : a.endLine = a.startLine

/-- The edges of some steps in order: their places, and their functions where these change. -/
structure Tell (current : String) (notes : List WitnessNotes) (steps : List Step) : Prop where
  places : List.Forall₂ AtPlaceOf notes steps
  functions : List.Forall₂ Step.InFunction steps (functionsAlong current notes)
  entered : notes.map (fun a => a.enterFunction.isSome) =
    List.zipWith (fun before now => decide (before ≠ now)) (current :: functionsAlong current notes)
      (functionsAlong current notes)

end WitnessNotes

/-! Which steps are shown, and where they are. -/

theorem Expr.symbolName?_eq_some {e : Expr} {n : String} :
    e.symbolName? = some n ↔ ∃ t, e = .symbol n t := by
  cases e <;> simp [symbolName?]

namespace Step
variable {s : Step}

theorem shownTarget?_isSome_iff : s.shownTarget?.isSome ↔ s.Qualifies := by
  have hinside (text part : String) :
      (!Text.contains text part) = true ↔ ¬part.toList <:+: text.toList := by
    rw [Bool.not_eq_true', ← Bool.not_eq_true]
    exact not_congr Text.occursIn_iff_isInfix
  unfold shownTarget?
  simp only [hinside]
  constructor
  · intro h
    split at h
    · rename_i hcond
      obtain ⟨hkind, hbuiltIn, hlibrary⟩ := hcond
      obtain ⟨e, he⟩ := Option.isSome_iff_exists.mp h
      obtain ⟨hlhs, hname⟩ := Option.filter_eq_some_iff.mp he
      obtain ⟨n, hn, htemporary⟩ := (Option.any_eq_true _ _).mp hname
      obtain ⟨t, rfl⟩ := Expr.symbolName?_eq_some.mp hn
      exact ⟨hkind, hbuiltIn, hlibrary, n, t, hlhs, (hinside n _).mp htemporary⟩
    · cases h
  · intro ⟨hkind, hbuiltIn, hlibrary, n, t, hlhs, htemporary⟩
    rw [if_pos ⟨hkind, hbuiltIn, hlibrary⟩, hlhs, Option.filter_some, if_pos]
    · rfl
    · exact (hinside n _).mpr htemporary

instance : DecidablePred Qualifies := fun _ => decidable_of_iff _ shownTarget?_isSome_iff

theorem inFunction_functionName (s : Step) : s.InFunction s.functionName := by
  unfold functionName InFunction
  split
  · rename_i rest hname
    refine .inl ?_
    apply String.toList_inj.mp
    rw [hname]
    simp
  · rename_i hno
    refine .inr ⟨?_, by rw [String.ofList_toList]⟩
    intro h
    obtain ⟨rest, hrest⟩ := h
    exact hno rest hrest.symm

end Step

theorem Trace.map_fst_shownAssignments (t : Trace) :
    t.shownAssignments.map Prod.fst = t.steps.filter fun s => s.Qualifies := by
  rw [shownAssignments, List.map_filterMap, ← List.filterMap_eq_filter]
  apply List.filterMap_congr
  intro s _
  by_cases hs : s.Qualifies
  · obtain ⟨e, he⟩ := Option.isSome_iff_exists.mp (Step.shownTarget?_isSome_iff.mpr hs)
    simp [he, hs, Option.guard]
  · have hnone : s.shownTarget? = none := by
      rw [← Option.not_isSome_iff_eq_none, Step.shownTarget?_isSome_iff]
      exact hs
    simp [hnone, hs, Option.guard]

/-- A step that qualifies is shown with the symbol on its left-hand side. -/
theorem Trace.getElem?_shownAssignments {t : Trace} {i : Nat} {s : Step}
    (h : (t.steps.filter fun s => s.Qualifies)[i]? = some s) :
    ∃ n type, s.lhs = some (.symbol n type) ∧
      t.shownAssignments[i]? = some (s, .symbol n type) := by
  rw [← t.map_fst_shownAssignments, List.getElem?_map, Option.map_eq_some_iff] at h
  obtain ⟨⟨s, lhs⟩, hshown, rfl⟩ := h
  have hmem : (s, lhs) ∈ t.shownAssignments := List.mem_of_getElem? hshown
  obtain ⟨s', -, htarget⟩ := List.mem_filterMap.mp hmem
  rw [Option.map_eq_some_iff] at htarget
  obtain ⟨_, htarget, hpair⟩ := htarget
  cases hpair
  simp only [Step.shownTarget?] at htarget
  split at htarget
  · obtain ⟨hlhs, hname⟩ := Option.filter_eq_some_iff.mp htarget
    obtain ⟨n, hn, -⟩ := (Option.any_eq_true _ _).mp hname
    obtain ⟨type, rfl⟩ := Expr.symbolName?_eq_some.mp hn
    exact ⟨n, type, hlhs, hshown⟩
  · cases htarget

/-! Chains. -/

namespace Witness

theorem nodes_linkElements (last : Nat) (links : List WitnessLink) :
    (linkElements last links).filterMap WitnessElement.node? =
      (links.zipIdx last).map fun (l, i) => { number := i + 1, isViolation := l.isViolation } := by
  induction links generalizing last with
  | nil => rfl
  | cons l rest ih =>
    rw [linkElements, List.zipIdx_cons, List.map_cons, ← ih (last + 1)]
    rfl

theorem edges_linkElements (last : Nat) (links : List WitnessLink) :
    (linkElements last links).filterMap WitnessElement.edge? =
      (links.zipIdx last).map fun (l, i) => ⟨i, i + 1, l.notes⟩ := by
  induction links generalizing last with
  | nil => rfl
  | cons l rest ih =>
    rw [linkElements, List.zipIdx_cons, List.map_cons, ← ih (last + 1)]
    rfl

theorem order_linkElements {k : Nat} {e : WitnessEdge} (last : Nat) (links : List WitnessLink)
    (h : (linkElements last links)[k]? = some (.edge e)) :
    ∃ j n, k = j + 1 ∧ (linkElements last links)[j]? = some (.node n) ∧ n.number = e.target := by
  induction links generalizing last k with
  | nil => cases h
  | cons l rest ih =>
    match k with
    | 0 => cases h
    | 1 =>
      cases h
      exact ⟨0, _, rfl, rfl, rfl⟩
    | k + 2 =>
      obtain ⟨j, n, hk, hnode, htarget⟩ := ih (last + 1) h
      exact ⟨j + 2, n, by rw [hk], hnode, htarget⟩

/-- The links that a generator makes of the notes on its steps. -/
theorem foldl_extend (w : Witness) (notes : List WitnessNotes) :
    notes.foldl extend w = { w with links := w.links ++ notes.map fun a => { notes := a } } := by
  induction notes generalizing w with
  | nil => rw [List.map_nil, List.append_nil]; rfl
  | cons a rest ih =>
    rw [List.foldl_cons, ih]
    simp [extend]

theorem isChain_finish (config : WitnessConfig) (notes : List WitnessNotes) :
    ((notes.foldl extend (.start config)).finish).IsChain (notes ++ [({} : WitnessNotes)]) := by
  have hlinks : ((notes.foldl extend (.start config)).finish).links =
      (notes.map fun a => { notes := a }) ++ [{ isViolation := true }] := by
    rw [foldl_extend]
    rfl
  generalize (notes.foldl extend (.start config)).finish = w at hlinks
  refine ⟨?_, ?_, ?_⟩
  · have hnodes : w.nodes = { number := 0, isEntry := true } ::
        (w.links.zipIdx 0).map fun (l, i) => { number := i + 1, isViolation := l.isViolation } :=
      congrArg _ (nodes_linkElements 0 w.links)
    rw [hnodes, List.range_succ_eq_map, List.map_cons, List.map_map]
    refine congrArg₂ List.cons (by simp) ?_
    apply List.ext_getElem
    · simp [hlinks]
    · intro i hi _
      simp only [hlinks, List.getElem_map, List.getElem_zipIdx, List.getElem_append]
      have hlt : i < notes.length + 1 := by simpa [hlinks] using hi
      split
      · rename_i hbefore
        have hne : i ≠ notes.length := by rw [List.length_map] at hbefore; omega
        simp [hne]
      · rename_i hbefore
        have heq : i = notes.length := by rw [List.length_map] at hbefore; omega
        simp [heq]
  · have hedges : w.edges = (w.links.zipIdx 0).map fun (l, i) => ⟨i, i + 1, l.notes⟩ :=
      edges_linkElements 0 w.links
    have hnotes : notes ++ [({} : WitnessNotes)] = w.links.map WitnessLink.notes := by
      rw [hlinks, List.map_append, List.map_map]
      exact congrArg (· ++ _) (List.map_id notes).symm
    rw [hedges, hnotes, List.zipIdx_map, List.map_map]
    rfl
  · intro k e h
    cases k with
    | zero => cases h
    | succ k =>
      obtain ⟨j, n, hk, hnode, htarget⟩ := order_linkElements 0 w.links h
      exact ⟨j + 1, n, by rw [hk], hnode, htarget⟩

theorem edges_finish (config : WitnessConfig) {notes : List WitnessNotes} {i : Nat}
    {a : WitnessNotes} (h : notes[i]? = some a) :
    ((notes.foldl extend (.start config)).finish).edges[i]? = some ⟨i, i + 1, a⟩ := by
  have hi : i < notes.length := (List.getElem?_eq_some_iff.mp h).1
  rw [(isChain_finish config notes).edges, List.getElem?_map, List.getElem?_zipIdx,
    List.getElem?_append_left hi, h]
  simp

end Witness

/-! What the edges say. -/

namespace WitnessNotes
variable (names : SymbolTable) (current : String) (tokens : List (Nat × String)) (s : Step)
  (lhs : Expr)

theorem atPlaceOf_ofStep : (ofStep names current tokens s lhs).AtPlaceOf s where
  file := by
    show (if s.instruction.location.file.isEmpty = true then none else _) = _
    simp only [String.isEmpty_iff]
  startLine := rfl
  endLine := rfl

/-- The name is carried to the step where it changes, and is the right one before and after. -/
theorem enterFunction_ofStep :
    (ofStep names current tokens s lhs).enterFunction.getD current = s.functionName ∧
      (ofStep names current tokens s lhs).enterFunction.isSome =
        decide (current ≠ s.functionName) := by
  show (if s.functionName = current then none else some s.functionName).getD current = _ ∧
    (if s.functionName = current then none else some s.functionName).isSome = _
  split
  · rename_i heq
    simp [heq]
  · rename_i hne
    simp [Ne.symm hne]

theorem tell_freshNotes (d : Directory) (shown : List (Step × Expr)) :
    Tell current (WitnessGenerator.freshNotes names d current shown) (shown.map Prod.fst) := by
  induction shown generalizing current with
  | nil => exact ⟨.nil, .nil, rfl⟩
  | cons x rest ih =>
    obtain ⟨s, lhs⟩ := x
    obtain ⟨hplaces, hfunctions, hentered⟩ := ih s.functionName
    obtain ⟨hname, hchange⟩ := enterFunction_ofStep names current
      (SourceCache.readTokens d s.instruction.location) s lhs
    have halong : functionsAlong current (WitnessGenerator.freshNotes names d current
          ((s, lhs) :: rest)) =
        s.functionName :: functionsAlong s.functionName
          (WitnessGenerator.freshNotes names d s.functionName rest) := by
      rw [WitnessGenerator.freshNotes, functionsAlong, hname]
    refine ⟨.cons (atPlaceOf_ofStep names current _ s lhs) hplaces, ?_, ?_⟩
    · rw [halong]
      exact .cons s.inFunction_functionName hfunctions
    · rw [halong, WitnessGenerator.freshNotes, List.map_cons, hentered, hchange,
        List.zipWith_cons_cons]

end WitnessNotes

namespace WitnessGenerator

/-- One generator makes for each of several traces what a fresh one makes: a chain that tells the
qualifying steps in order and then, saying nothing, leads to the violation. -/
theorem witnesses_are_chains (names : SymbolTable) (config : WitnessConfig) (d : Directory)
    (traces : List Trace) :
    let fresh : WitnessGenerator := { names, config }
    fresh.witnesses d traces = traces.map (fun t => (fresh.generate d t).2) ∧
      ∀ t : Trace, ∃ shown : List WitnessNotes,
        WitnessNotes.Tell "" shown (t.steps.filter fun s => s.Qualifies) ∧
          (fresh.generate d t).2.IsChain (shown ++ [({} : WitnessNotes)]) := by
  intro fresh
  have hfaithful : fresh.cache.Faithful d := SourceCache.faithful_empty
  have hwitness (t : Trace) : (fresh.generate d t).2 = fresh.freshWitness d t :=
    (generate_of_faithful hfaithful t).2
  constructor
  · rw [witnesses_of_faithful hfaithful]
    exact List.map_congr_left fun t _ => (hwitness t).symm
  · intro t
    refine ⟨freshNotes names d "" t.shownAssignments, ?_, ?_⟩
    · rw [← t.map_fst_shownAssignments]
      exact WitnessNotes.tell_freshNotes names "" d t.shownAssignments
    · rw [hwitness]
      exact Witness.isChain_finish config _

end WitnessGenerator
end GotoCheck
