import GotoCheck.Proofs.Witness.Assumption
import GotoCheck.Proofs.Witness.Text

/-! The document of a witness is one of XML, but for characters that XML has no place for. -/
namespace GotoCheck
open Xml (Legal LegalTexts IsDocument legalTexts_nil legalTexts_cons legalTexts_append)

/-- The notes that are there have only characters of XML. -/
def WitnessNotes.IsLegal (a : WitnessNotes) : Prop :=
  ∀ key value, (key, some value) ∈ a.fields → Legal value.toList

theorem legalTexts_keyed {key value : String} (hkey : Legal key.toList) :
    LegalTexts (keyed key value).texts ↔ Legal value.toList := by
  simp [keyed, Xml.texts, legalTexts_cons, legalTexts_nil, hkey]

theorem legalTexts_allTexts {xs : List Xml} :
    LegalTexts (Xml.allTexts xs) ↔ ∀ x ∈ xs, LegalTexts x.texts := by
  induction xs with
  | nil => simp [Xml.allTexts, legalTexts_nil]
  | cons x xs ih => rw [Xml.allTexts, legalTexts_append, ih, List.forall_mem_cons]

theorem WitnessNotes.legalTexts_xml (a : WitnessNotes) :
    LegalTexts (Xml.allTexts a.xml) ↔ a.IsLegal := by
  have hkeys : ∀ f ∈ a.fields, Legal f.1.toList := by
    have hnames : ∀ key ∈ a.fields.map Prod.fst, Legal key.toList := by
      show ∀ key ∈ ["originFileName", "assumption", "enterFunction", "startline", "endline",
        "tokens", "sourcecode"], Legal key.toList
      decide
    exact fun f hf => hnames f.1 (List.mem_map_of_mem hf)
  rw [legalTexts_allTexts]
  constructor
  · intro h key value hmem
    have hx : keyed key value ∈ a.xml := List.mem_filterMap.mpr ⟨_, hmem, rfl⟩
    exact (legalTexts_keyed (hkeys _ hmem)).mp (h _ hx)
  · intro h x hx
    obtain ⟨⟨key, value?⟩, hmem, hsome⟩ := List.mem_filterMap.mp hx
    obtain ⟨value, rfl, rfl⟩ := Option.map_eq_some_iff.mp hsome
    exact (legalTexts_keyed (hkeys _ hmem)).mpr (h key value hmem)

theorem WitnessNode.legal_nameOf (number : Nat) : Legal (nameOf number).toList := by
  rw [nameOf, String.toList_append, Nat.toList_repr, Xml.legal_append]
  refine ⟨by decide, fun c hc => Xml.isChar_of_isTagChar ?_⟩
  simp [Xml.isTagChar, Char.isAlphanum, Nat.isDigit_of_mem_toDigits (by decide) (by decide) hc]

theorem WitnessElement.legalTexts_xml (x : WitnessElement) :
    LegalTexts x.xml.texts ↔ ∀ e, x.edge? = some e → e.notes.IsLegal := by
  cases x with
  | node n =>
    have hflag : ∀ key ∈ ["entry", "violation"], LegalTexts (keyed key "true").texts := by decide
    refine iff_of_true ?_ fun e he => by cases he
    show LegalTexts ([n.name] ++ Xml.allTexts (_ ++ _))
    rw [legalTexts_append, legalTexts_allTexts]
    refine ⟨legalTexts_cons.mpr ⟨WitnessNode.legal_nameOf n.number, legalTexts_nil⟩, fun x hx => ?_⟩
    rcases List.mem_append.mp hx with hx | hx
    · rw [List.mem_singleton.mp (List.mem_ite_nil_right.mp hx).2]
      exact hflag "entry" (by decide)
    · rw [List.mem_singleton.mp (List.mem_ite_nil_right.mp hx).2]
      exact hflag "violation" (by decide)
  | edge e =>
    have hnames := WitnessNode.legal_nameOf
    simp [xml, Xml.texts, edge?, legalTexts_cons, hnames, e.notes.legalTexts_xml]

namespace Witness

theorem legalTexts_declarations : LegalTexts (Xml.allTexts declarations) := by
  decide

theorem legalTexts_xml (w : Witness) : LegalTexts w.xml.texts ↔
    Legal w.config.language.toList ∧ Legal w.config.producer.toList ∧
      ∀ e ∈ w.edges, e.notes.IsLegal := by
  have hgraph : LegalTexts (Xml.allTexts (keyed "sourcecodelang" w.config.language ::
      keyed "producer" w.config.producer :: w.elements.map WitnessElement.xml)) ↔
        Legal w.config.language.toList ∧ Legal w.config.producer.toList ∧
          ∀ x ∈ w.elements, ∀ e, x.edge? = some e → e.notes.IsLegal := by
    rw [legalTexts_allTexts, List.forall_mem_cons, List.forall_mem_cons, List.forall_mem_map,
      legalTexts_keyed (by decide), legalTexts_keyed (by decide)]
    simp only [WitnessElement.legalTexts_xml]
  have hnames : LegalTexts ["http://graphml.graphdrawing.org/xmlns",
      "http://www.w3.org/2001/XMLSchema-instance"] ∧ LegalTexts ["directed"] := by
    decide
  have hedges : (∀ e ∈ w.edges, e.notes.IsLegal) ↔
      ∀ x ∈ w.elements, ∀ e, x.edge? = some e → e.notes.IsLegal := by
    simp only [edges, List.mem_filterMap]
    exact ⟨fun h x hx e he => h e ⟨x, hx, he⟩, fun h e ⟨x, hx, he⟩ => h x hx e he⟩
  rw [hedges, ← hgraph, xml, Xml.texts, legalTexts_append, legalTexts_allTexts,
    List.forall_mem_append, ← legalTexts_allTexts, and_iff_right legalTexts_declarations,
    List.forall_mem_singleton, Xml.texts, legalTexts_append]
  exact (and_iff_right hnames.1).trans (and_iff_right hnames.2)

end Witness

namespace WitnessGenerator

/-- The document of a witness is one of XML, with every element closed in its place and no markup in
any text, whatever the trace holds. All its characters are those of XML if and only if those of its
header and its notes are: the others are not escaped. -/
theorem document_of_generate (g : WitnessGenerator) (d : Directory) (t : Trace) :
    IsDocument (g.generate d t).2.text.toList ∧
      (Legal (g.generate d t).2.text.toList ↔
        Legal g.config.language.toList ∧ Legal g.config.producer.toList ∧
          ∀ e ∈ (g.generate d t).2.edges, e.notes.IsLegal) := by
  have hformed := (g.generate d t).2.formed_xml
  have hconfig : (g.generate d t).2.config = g.config := by
    show (((notes g.names d g.cache "" t.shownAssignments).2.foldl Witness.extend
      (.start g.config)).finish).config = _
    rw [Witness.foldl_extend]
    rfl
  refine ⟨hformed.isDocument, ?_⟩
  rw [← hconfig, ← Witness.legalTexts_xml]
  exact hformed.legal_document

/-- A control character of a string constant is none of XML, and gets into the document. -/
theorem control_in_document : ¬Legal (stringWitness "a\x01b").text.toList := by
  have hassumption : ((stringWitness "a\x01b").edges[0]?.bind fun e => e.notes.assumption) =
      some "c::name = \"a\x01b\";" := by
    decide +kernel
  obtain ⟨e, he, htext⟩ := Option.bind_eq_some_iff.mp hassumption
  intro hlegal
  have htexts := (stringWitness "a\x01b").formed_xml.legal_document.mp hlegal
  obtain ⟨-, -, hnotes⟩ := (Witness.legalTexts_xml _).mp htexts
  have hfield : ("assumption", some "c::name = \"a\x01b\";") ∈ e.notes.fields := by
    simp [WitnessNotes.fields, htext]
  exact absurd (hnotes e (List.mem_of_getElem? he) _ _ hfield) (by decide)

end WitnessGenerator
end GotoCheck
