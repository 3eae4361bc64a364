import Mathlib.Data.List.Basic
import Mathlib.Data.Option.Basic
import GotoCheck.Proofs.Text.Lines
import GotoCheck.Proofs.XmlGrammar
import GotoCheck.Witness

/-! The document of a witness determines the witness. Whatever the notes on its edges hold, nodes
and edges can be read back in their order, with every note that is there and every one that
is not. -/
namespace GotoCheck

theorem keyed_inj {k l a b : String} (h : keyed k a = keyed l b) : k = l ∧ a = b := by
  simpa [keyed] using h

/-- Fields that may be missing are told apart by their keys. -/
theorem filterMap_keyed_inj {fs gs : List (String × Option String)}
    (hkeys : fs.map Prod.fst = gs.map Prod.fst) (hnodup : (fs.map Prod.fst).Nodup)
    (h : (fs.filterMap fun f => f.2.map (keyed f.1)) = gs.filterMap fun f => f.2.map (keyed f.1)) :
    fs = gs := by
  induction fs generalizing gs with
  | nil => exact (List.map_eq_nil_iff.mp hkeys.symm).symm
  | cons f fs ih =>
    obtain ⟨k, a⟩ := f
    obtain ⟨⟨l, b⟩, gs, rfl, hhead, htail⟩ := List.map_eq_cons_iff.mp hkeys.symm
    obtain rfl : l = k := hhead
    obtain ⟨hfresh, hrest⟩ := List.nodup_cons.mp hnodup
    -- no later field has the key of this one
    have hlater : ∀ {v : String} {es : List (String × Option String)},
        es.map Prod.fst = fs.map Prod.fst →
          keyed l v ∉ es.filterMap fun f => f.2.map (keyed f.1) := by
      intro v es hes hmem
      obtain ⟨e, he, heq⟩ := List.mem_filterMap.mp hmem
      obtain ⟨u, -, hu⟩ := Option.map_eq_some_iff.mp heq
      apply hfresh
      rw [← hes]
      exact List.mem_map.mpr ⟨e, he, (keyed_inj hu).1⟩
    cases a with
    | none =>
      cases b with
      | none => rw [ih htail.symm hrest h]
      | some v =>
        have hmem : keyed l v ∈ fs.filterMap fun f => f.2.map (keyed f.1) := by
          rw [List.filterMap_cons_none rfl] at h
          rw [h]
          exact List.mem_cons_self
        exact absurd hmem (hlater rfl)
    | some u =>
      cases b with
      | none =>
        have hmem : keyed l u ∈ gs.filterMap fun f => f.2.map (keyed f.1) := by
          rw [List.filterMap_cons_none (l := gs) rfl] at h
          rw [← h]
          exact List.mem_cons_self
        exact absurd hmem (hlater htail)
      | some v =>
        obtain ⟨hfirst, hothers⟩ := List.cons.inj h
        rw [(keyed_inj hfirst).2, ih htail.symm hrest hothers]

theorem WitnessNotes.xml_injective : Function.Injective WitnessNotes.xml := by
  intro a b h
  have hkeys : (a.fields.map Prod.fst).Nodup := by
    rw [fields]
    simp only [List.map_cons, List.map_nil]
    decide
  have hfields : a.fields = b.fields := filterMap_keyed_inj rfl hkeys h
  simp only [fields, List.cons.injEq, Prod.mk.injEq, true_and, and_true] at hfields
  obtain ⟨hfile, hassumption, hfunction, hstart, hend, htokens, hcode⟩ := hfields
  have hnumber := Option.map_injective Text.repr_injective
  cases a
  cases b
  simp only [WitnessNotes.mk.injEq]
  exact ⟨hfile, hassumption, hfunction, hnumber hstart, hnumber hend, htokens, hcode⟩

theorem WitnessNode.nameOf_injective : Function.Injective WitnessNode.nameOf := fun _ _ h =>
  Text.repr_injective ((String.append_right_inj "n").mp h)

theorem WitnessElement.xml_injective : Function.Injective WitnessElement.xml := by
  intro x y h
  have hname : ∀ {n m : String} {as bs : List (String × String)} {xs ys : List Xml},
      Xml.element n as xs = .element m bs ys → n = m := fun h => (Xml.element.inj h).1
  cases x with
  | node n =>
    cases y with
    | node m =>
      simp only [xml, Xml.element.injEq, List.cons.injEq, Prod.mk.injEq, true_and, and_true] at h
      obtain ⟨hname, hflags⟩ := h
      have hnumber : n.number = m.number := WitnessNode.nameOf_injective hname
      -- each flag is there or not, and no other child is
      have hsame : n.isEntry = m.isEntry ∧ n.isViolation = m.isViolation := by
        cases he : n.isEntry <;> cases hv : n.isViolation <;> cases he' : m.isEntry <;>
          cases hv' : m.isViolation <;> simp [he, hv, he', hv', keyed] at hflags ⊢
      cases n
      cases m
      simp_all
    | edge f => exact absurd (hname h) (by decide)
  | edge e =>
    cases y with
    | node m => exact absurd (hname h) (by decide)
    | edge f =>
      simp only [xml, Xml.element.injEq, List.cons.injEq, Prod.mk.injEq, true_and, and_true] at h
      obtain ⟨⟨hsource, htarget⟩, hnotes⟩ := h
      cases e
      cases f
      simp only [edge.injEq, WitnessEdge.mk.injEq]
      exact ⟨WitnessNode.nameOf_injective hsource, WitnessNode.nameOf_injective htarget,
        WitnessNotes.xml_injective hnotes⟩

/-! All names in a document are proper, and no tag has an attribute twice. -/

theorem formed_keyed (key value : String) : (keyed key value).Formed :=
  .data (by decide) (.of_names ["key"] rfl (by decide))

theorem WitnessElement.formed_xml (x : WitnessElement) : x.xml.Formed := by
  cases x with
  | node n =>
    refine .element (by decide) (.of_names ["id"] rfl (by decide)) ?_
    intro x hx
    rcases List.mem_append.mp hx with hx | hx
    · rw [List.mem_singleton.mp (List.mem_ite_nil_right.mp hx).2]
      exact formed_keyed _ _
    · rw [List.mem_singleton.mp (List.mem_ite_nil_right.mp hx).2]
      exact formed_keyed _ _
  | edge e =>
    refine .element (by decide) (.of_names ["source", "target"] rfl (by decide)) ?_
    intro x hx
    obtain ⟨f, -, hf⟩ := List.mem_filterMap.mp hx
    obtain ⟨v, -, rfl⟩ := Option.map_eq_some_iff.mp hf
    exact formed_keyed _ _

namespace Witness
variable {w v : Witness}

theorem formed_declare (id place name type : String) (default : Option String) :
    (declare id place name type default).Formed := by
  refine .element (by decide) (.of_names ["id", "for", "attr.name", "attr.type"] rfl (by decide)) ?_
  intro x hx
  obtain ⟨value, -, rfl⟩ := Option.map_eq_some_iff.mp (Option.mem_toList.mp hx)
  exact .data (by decide) (.of_names [] rfl (by decide))

theorem formed_of_mem_declarations {x : Xml} (hx : x ∈ declarations) : x.Formed := by
  simp only [declarations, List.mem_cons, List.not_mem_nil, or_false] at hx
  rcases hx with rfl | rfl | rfl | rfl | rfl | rfl | rfl | rfl | rfl | rfl | rfl
  all_goals exact formed_declare _ _ _ _ _

theorem formed_xml (w : Witness) : w.xml.Formed := by
  refine .element (by decide) (.of_names ["xmlns", "xmlns:xsi"] rfl (by decide)) ?_
  intro x hx
  rcases List.mem_append.mp hx with hx | hx
  · exact formed_of_mem_declarations hx
  · cases List.mem_singleton.mp hx
    refine .element (by decide) (.of_names ["edgedefault"] rfl (by decide)) ?_
    intro x hx
    rcases List.mem_cons.mp hx with rfl | hx
    · exact formed_keyed _ _
    rcases List.mem_cons.mp hx with rfl | hx
    · exact formed_keyed _ _
    obtain ⟨e, -, rfl⟩ := List.mem_map.mp hx
    exact e.formed_xml

/-- The tree of a witness holds its header and its elements in their places. -/
theorem xml_inj (h : w.xml = v.xml) : w.config = v.config ∧ w.elements = v.elements := by
  simp only [xml, Xml.element.injEq, List.append_cancel_left_eq, List.cons.injEq, true_and,
    and_true] at h
  obtain ⟨hlanguage, hproducer, helements⟩ := h
  refine ⟨?_, List.map_injective_iff.mpr WitnessElement.xml_injective helements⟩
  rw [← show WitnessConfig.mk w.config.producer w.config.language = w.config from rfl,
    (keyed_inj hlanguage).2, (keyed_inj hproducer).2]

theorem text_inj (h : w.text = v.text) : w.config = v.config ∧ w.elements = v.elements :=
  xml_inj (w.formed_xml.wellNamed.document_inj v.formed_xml.wellNamed h)

theorem linkElements_inj {last : Nat} {ls ms : List WitnessLink}
    (h : linkElements last ls = linkElements last ms) : ls = ms := by
  induction ls generalizing last ms with
  | nil =>
    cases ms with
    | nil => rfl
    | cons m ms => cases h
  | cons l ls ih =>
    cases ms with
    | nil => cases h
    | cons m ms =>
      obtain ⟨hnode, hothers⟩ := List.cons.inj h
      obtain ⟨hedge, hrest⟩ := List.cons.inj hothers
      have hviolation : l.isViolation = m.isViolation :=
        congrArg WitnessNode.isViolation (WitnessElement.node.inj hnode)
      have hnotes : l.notes = m.notes :=
        congrArg WitnessEdge.notes (WitnessElement.edge.inj hedge)
      have hlink : l = m := by
        cases l
        cases m
        exact congrArg₂ WitnessLink.mk hnotes hviolation
      rw [hlink, ih hrest]

end Witness

/-- One step in making a witness. -/
inductive WitnessMove
  | extend (notes : WitnessNotes)
  | finish

def WitnessMove.link : WitnessMove → WitnessLink
  | extend notes => { notes }
  | finish => { isViolation := true }

theorem WitnessMove.link_injective : Function.Injective WitnessMove.link := by
  intro a b h
  cases a <;> cases b <;> simp_all [link]

namespace Witness
variable {c d : WitnessConfig} {ms ns : List WitnessMove}

def move (w : Witness) : WitnessMove → Witness
  | .extend notes => w.extend notes
  | .finish => w.finish

/-- What the given steps make of the entry alone. -/
def made (config : WitnessConfig) (moves : List WitnessMove) : Witness :=
  moves.foldl move (.start config)

theorem made_eq (config : WitnessConfig) (moves : List WitnessMove) :
    made config moves = ⟨config, moves.map WitnessMove.link⟩ := by
  have hfoldl : ∀ w : Witness, moves.foldl move w =
      { w with links := w.links ++ moves.map WitnessMove.link } := by
    intro w
    induction moves generalizing w with
    | nil => simp
    | cons m ms ih =>
      rw [List.foldl_cons, ih]
      cases m <;> simp [move, extend, finish, WitnessMove.link]
  exact hfoldl (.start config)

/-- Two witnesses, however they were made, have the same document exactly if they have the same
header and the same nodes and edges, flags and notes included, in the same order. Then the same
steps made them. -/
theorem text_made_eq_iff : (made c ms).text = (made d ns).text ↔
    c.producer = d.producer ∧ c.language = d.language ∧
      (made c ms).nodes = (made d ns).nodes ∧ (made c ms).edges = (made d ns).edges ∧
      (made c ms).elements = (made d ns).elements ∧ ms = ns := by
  constructor
  · intro h
    obtain ⟨hconfig, helements⟩ := text_inj h
    rw [made_eq, made_eq] at hconfig
    obtain rfl : c = d := hconfig
    have hmoves : ms = ns := by
      apply List.map_injective_iff.mpr WitnessMove.link_injective
      rw [made_eq, made_eq] at helements
      exact linkElements_inj (List.cons.inj helements).2
    exact ⟨rfl, rfl, by rw [hmoves], by rw [hmoves], helements, hmoves⟩
  · intro h
    obtain ⟨hproducer, hlanguage, -, -, -, rfl⟩ := h
    cases c
    cases d
    simp_all

end Witness
end GotoCheck
