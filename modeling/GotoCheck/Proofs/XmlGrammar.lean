import GotoCheck.Proofs.Xml

/-! Documents of XML 1.0. A tree with proper names, no attribute given twice, has the text of one:
every element is closed where it was opened, and nothing in a text or a value is taken for markup.
Its characters are those that XML allows if and only if those of its texts and values are. -/
namespace GotoCheck.Xml

/-! The characters. -/

/-- The characters that a document may have. -/
def IsChar (c : Char) : Prop :=
  c = '\t' ∨ c = '\n' ∨ c = '\r' ∨ (0x20 ≤ c.toNat ∧ c.toNat ≤ 0xD7FF) ∨
    (0xE000 ≤ c.toNat ∧ c.toNat ≤ 0xFFFD) ∨ 0x10000 ≤ c.toNat

instance : DecidablePred IsChar := fun _ => inferInstanceAs (Decidable (_ ∨ _))

def Legal (cs : List Char) : Prop := ∀ c ∈ cs, IsChar c

instance : DecidablePred Legal := List.decidableBAll IsChar

theorem legal_nil : Legal [] := fun _ hc => absurd hc List.not_mem_nil

theorem legal_cons {c : Char} {cs : List Char} : Legal (c :: cs) ↔ IsChar c ∧ Legal cs :=
  List.forall_mem_cons

theorem legal_append {cs ds : List Char} : Legal (cs ++ ds) ↔ Legal cs ∧ Legal ds :=
  List.forall_mem_append

/-! The grammar, as far as the documents here go. -/

def isTagStart (c : Char) : Bool := c.isAlpha || c == '_' || c == ':'

def isTagChar (c : Char) : Bool := c.isAlphanum || c == '_' || c == ':' || c == '-' || c == '.'

/-- The name of an element or an attribute. -/
def IsTagName : List Char → Prop
  | [] => False
  | c :: cs => isTagStart c ∧ cs.all isTagChar

instance : DecidablePred IsTagName
  | [] => instDecidableFalse
  | c :: cs => inferInstanceAs (Decidable (isTagStart c ∧ cs.all isTagChar))

/-- The references that every reader of XML knows. -/
def references : List (List Char) :=
  ["&amp;".toList, "&lt;".toList, "&gt;".toList, "&quot;".toList, "&apos;".toList]

/-- Text that is not markup, between tags or between quotation marks. -/
inductive IsText : List Char → Prop
  | nil : IsText []
  | char {c : Char} {cs : List Char} : c ∉ ['&', '<', '>', '"'] → IsText cs → IsText (c :: cs)
  | reference {r cs : List Char} : r ∈ references → IsText cs → IsText (r ++ cs)

/-- The attributes of a tag, each with another name. -/
inductive IsAttributes : List (List Char) → List Char → Prop
  | nil : IsAttributes [] []
  | cons {n v cs : List Char} {ns : List (List Char)} : IsTagName n → n ∉ ns → IsText v →
    IsAttributes ns cs → IsAttributes (n :: ns) (' ' :: n ++ '=' :: '"' :: v ++ '"' :: cs)

mutual
inductive IsElement : List Char → Prop
  | empty {n as : List Char} {ns : List (List Char)} : IsTagName n → IsAttributes ns as →
    IsElement ('<' :: n ++ as ++ ['/', '>'])
  | between {n as cs : List Char} {ns : List (List Char)} : IsTagName n → IsAttributes ns as →
    IsContent cs → IsElement ('<' :: n ++ as ++ '>' :: cs ++ '<' :: '/' :: n ++ ['>'])

/-- Text with elements in it. -/
inductive IsContent : List Char → Prop
  | text {cs : List Char} : IsText cs → IsContent cs
  | element {cs es ds : List Char} : IsText cs → IsElement es → IsContent ds →
    IsContent (cs ++ es ++ ds)
end

def declaration : String := "<?xml version=\"1.0\" encoding=\"utf-8\"?>\n"

/-- The declaration, one element, and the end of the last line. -/
def IsDocument (cs : List Char) : Prop :=
  ∃ es, IsElement es ∧ cs = declaration.toList ++ es ++ ['\n']

/-! Trees with proper names. -/

/-- Proper names, each given once. -/
structure ProperAttributes (attributes : List (String × String)) : Prop where
  names : ∀ n ∈ attributes.map Prod.fst, IsTagName n.toList
  distinct : (attributes.map Prod.fst).Nodup

theorem ProperAttributes.of_names {attributes : List (String × String)} (ns : List String)
    (h : attributes.map Prod.fst = ns) (hns : (∀ n ∈ ns, IsTagName n.toList) ∧ ns.Nodup) :
    ProperAttributes attributes where
  names := by rw [h]; exact hns.1
  distinct := by rw [h]; exact hns.2

inductive Formed : Xml → Prop
  | data {name content : String} {attributes : List (String × String)} : IsTagName name.toList →
    ProperAttributes attributes → Formed (data name attributes content)
  | element {name : String} {attributes : List (String × String)} {children : List Xml} :
    IsTagName name.toList → ProperAttributes attributes → (∀ x ∈ children, Formed x) →
    Formed (element name attributes children)

theorem IsTagName.isTagChar {cs : List Char} (h : IsTagName cs) : ∀ c ∈ cs, isTagChar c := by
  cases cs with
  | nil => exact h.elim
  | cons c cs =>
    obtain ⟨hstart, hrest⟩ := h
    refine List.forall_mem_cons.mpr ⟨?_, List.all_eq_true.mp hrest⟩
    simp only [isTagStart, Bool.or_eq_true] at hstart
    rcases hstart with (hletter | hmark) | hmark
    · simp [Xml.isTagChar, Char.isAlphanum, hletter]
    · simp [Xml.isTagChar, hmark]
    · simp [Xml.isTagChar, hmark]

theorem isName_of_isTagName {name : String} (h : IsTagName name.toList) : IsName name := by
  have hstops : ∀ c ∈ [' ', '=', '/', '>'], ¬isTagChar c := by simp [isTagChar, Char.isAlphanum]
  refine ⟨?_, fun c hc => ?_⟩
  · rintro rfl
    exact h
  · have hno : c ∉ [' ', '=', '/', '>'] := fun hmem => hstops c hmem (h.isTagChar c hc)
    simp only [isNameChar, hno, decide_false, Bool.not_false]

theorem Formed.wellNamed {x : Xml} (hx : x.Formed) : x.WellNamed := by
  induction hx with
  | data hname hattributes =>
    exact .data (isName_of_isTagName hname) fun n hn => isName_of_isTagName (hattributes.names n hn)
  | element hname hattributes _ ih =>
    exact .element (isName_of_isTagName hname)
      (fun n hn => isName_of_isTagName (hattributes.names n hn)) ih

/-! Their texts in the grammar. -/

theorem IsText.append {cs ds : List Char} (hcs : IsText cs) (hds : IsText ds) :
    IsText (cs ++ ds) := by
  induction hcs with
  | nil => exact hds
  | char hc _ ih => exact .char hc ih
  | reference hr _ ih =>
    rw [List.append_assoc]
    exact .reference hr ih

theorem isText_escape (c : Char) : IsText (escape c) := by
  have hreference {r : List Char} (hr : r ∈ references) : IsText r := by
    rw [← List.append_nil r]
    exact .reference hr .nil
  unfold escape
  split
  · exact hreference (by decide)
  · exact hreference (by decide)
  · exact hreference (by decide)
  · exact hreference (by decide)
  · exact hreference (by decide)
  · exact .char (by simp_all) .nil

theorem isText_escaped (s : String) : IsText (escaped s) := by
  unfold escaped
  induction s.toList with
  | nil => exact .nil
  | cons c cs ih => exact (isText_escape c).append ih

theorem isText_indent (depth : Nat) : IsText (indent depth) := by
  induction depth with
  | zero => exact .nil
  | succ depth ih => exact .char (by decide) ih

theorem isAttributes_tagChars {attributes : List (String × String)}
    (h : ProperAttributes attributes) :
    IsAttributes (attributes.map fun a => a.1.toList) (attributes.flatMap attributeChars) := by
  obtain ⟨hnames, hdistinct⟩ := h
  induction attributes with
  | nil => exact .nil
  | cons a attributes ih =>
    obtain ⟨hname, hnames⟩ := List.forall_mem_cons.mp hnames
    obtain ⟨hfresh, hdistinct⟩ := List.nodup_cons.mp hdistinct
    have hfreshChars : a.1.toList ∉ attributes.map fun b => b.1.toList := by
      intro hmem
      obtain ⟨b, hb, hsame⟩ := List.mem_map.mp hmem
      exact hfresh (String.toList_inj.mp hsame ▸ List.mem_map_of_mem hb)
    have hcons := IsAttributes.cons hname hfreshChars (isText_escaped a.2) (ih hnames hdistinct)
    rw [List.flatMap_cons, attributeChars_append]
    simpa using hcons

theorem tagChars_eq (name : String) (attributes : List (String × String)) :
    tagChars name attributes = name.toList ++ attributes.flatMap attributeChars := rfl

/-- A tree on a line or on several: an element, indented. -/
def LaysOut (x : Xml) : Prop :=
  ∀ depth, ∃ es, IsElement es ∧ x.chars depth = indent depth ++ es ++ ['\n']

/-- Elements on lines of their own, with the ends of the lines before and after them as text. -/
theorem isContent_allChars {depth : Nat} {before after : List Char} {xs : List Xml}
    (hxs : ∀ x ∈ xs, x.LaysOut) (hbefore : IsText before) (hafter : IsText after) :
    IsContent (before ++ (allChars depth xs ++ after)) := by
  induction xs generalizing before with
  | nil => exact .text (hbefore.append hafter)
  | cons x xs ih =>
    obtain ⟨hx, hxs⟩ := List.forall_mem_cons.mp hxs
    obtain ⟨es, hes, hchars⟩ := hx depth
    -- The end of an element's line is text before the next one.
    have hfeed : IsText ['\n'] := .char (by decide) .nil
    have hcontent := IsContent.element (hbefore.append (isText_indent depth)) hes (ih hxs hfeed)
    rw [allChars, hchars]
    simpa using hcontent

theorem Formed.laysOut {x : Xml} (hx : x.Formed) : x.LaysOut := by
  induction hx with
  | @data name content attributes hname hattributes =>
    intro depth
    refine ⟨_, .between hname (isAttributes_tagChars hattributes) (.text (isText_escaped content)),
      ?_⟩
    simp [chars, tagChars_eq, closingTag]
  | @element name attributes children hname hattributes _ ih =>
    intro depth
    have has := isAttributes_tagChars hattributes
    cases children with
    | nil =>
      refine ⟨_, .empty hname has, ?_⟩
      simp [chars, tagChars_eq]
    | cons x xs =>
      have hfeed : IsText ['\n'] := .char (by decide) .nil
      have hcontent : IsContent (['\n'] ++ (allChars (depth + 1) (x :: xs) ++ indent depth)) :=
        isContent_allChars ih hfeed (isText_indent depth)
      refine ⟨_, .between hname has hcontent, ?_⟩
      simp [chars, allChars, tagChars_eq, closingTag]

theorem document_eq (x : Xml) : x.document = declaration ++ String.ofList (x.chars 0) := rfl

theorem Formed.isDocument {x : Xml} (hx : x.Formed) : IsDocument x.document.toList := by
  obtain ⟨es, hes, hchars⟩ := hx.laysOut 0
  refine ⟨es, hes, ?_⟩
  rw [document_eq, String.toList_append, String.toList_ofList, hchars, indent, List.replicate_zero,
    List.nil_append, List.append_assoc]

/-! Their characters. -/

mutual
/-- What a tree holds besides names: texts and the values of attributes. -/
def texts : Xml → List String
  | data _ attributes content => content :: attributes.map Prod.snd
  | element _ attributes children => attributes.map Prod.snd ++ allTexts children

def allTexts : List Xml → List String
  | [] => []
  | x :: xs => texts x ++ allTexts xs
end

/-- All texts and values have only characters of XML. -/
def LegalTexts (texts : List String) : Prop := ∀ s ∈ texts, Legal s.toList

instance : DecidablePred LegalTexts :=
  List.decidableBAll fun s : String => Legal s.toList

theorem isChar_of_isTagChar {c : Char} (h : isTagChar c) : IsChar c := by
  simp only [isTagChar, Bool.or_eq_true, beq_iff_eq] at h
  rcases h with (((h | rfl) | rfl) | rfl) | rfl
  · delta Char.isAlphanum Char.isAlpha Char.isUpper Char.isLower Char.isDigit at h
    simp only [Bool.or_eq_true, Bool.and_eq_true, decide_eq_true_eq,
      UInt32.le_iff_toNat_le] at h
    have hval : c.toNat = c.val.toNat := rfl
    have hletters : 'A'.val.toNat = 65 ∧ 'Z'.val.toNat = 90 ∧ 'a'.val.toNat = 97 ∧
        'z'.val.toNat = 122 ∧ '0'.val.toNat = 48 ∧ '9'.val.toNat = 57 := by decide
    exact .inr (.inr (.inr (.inl (by omega))))
  all_goals decide

theorem legal_escape (c : Char) : Legal (escape c) ↔ IsChar c := by
  unfold escape
  split
  · decide
  · decide
  · decide
  · decide
  · decide
  · simp [Legal]

theorem legal_escaped {s : String} : Legal (escaped s) ↔ Legal s.toList := by
  unfold escaped
  induction s.toList with
  | nil => exact Iff.rfl
  | cons c cs ih => rw [List.flatMap_cons, legal_append, ih, legal_escape, legal_cons]

theorem legal_indent (depth : Nat) : Legal (indent depth) := by
  intro c hc
  rw [List.eq_of_mem_replicate hc]
  decide

theorem legalTexts_nil : LegalTexts [] := fun _ hs => absurd hs List.not_mem_nil

theorem legalTexts_cons {s : String} {texts : List String} :
    LegalTexts (s :: texts) ↔ Legal s.toList ∧ LegalTexts texts := by
  unfold LegalTexts
  exact List.forall_mem_cons

theorem legalTexts_append {as bs : List String} :
    LegalTexts (as ++ bs) ↔ LegalTexts as ∧ LegalTexts bs :=
  List.forall_mem_append

theorem IsTagName.legal {cs : List Char} (h : IsTagName cs) : Legal cs :=
  fun c hc => isChar_of_isTagChar (h.isTagChar c hc)

theorem legal_tagChars {name : String} {attributes : List (String × String)}
    (hname : IsTagName name.toList) (h : ProperAttributes attributes) :
    Legal (tagChars name attributes) ↔ LegalTexts (attributes.map Prod.snd) := by
  have hmarks : IsChar ' ' ∧ IsChar '=' ∧ IsChar '"' := by decide
  have hattribute {a : String × String} (ha : IsTagName a.1.toList) :
      Legal (attributeChars a) ↔ Legal a.2.toList := by
    simp [attributeChars, legal_cons, legal_append, legal_escaped, hmarks, ha.legal, legal_nil]
  rw [tagChars_eq, legal_append, and_iff_right hname.legal]
  have hnames := h.names
  clear h
  induction attributes with
  | nil => simp [legalTexts_nil, legal_nil]
  | cons a attributes ih =>
    obtain ⟨ha, hnames⟩ := List.forall_mem_cons.mp hnames
    have hrest : Legal (attributes.flatMap attributeChars) ↔ LegalTexts (attributes.map Prod.snd) :=
      ih hnames
    rw [List.flatMap_cons, legal_append, hattribute ha, hrest, List.map_cons, legalTexts_cons]

/-- A tree's characters are legal if and only if its texts and values are. -/
def LegalAlike (x : Xml) : Prop := ∀ depth, Legal (x.chars depth) ↔ LegalTexts x.texts

theorem legal_allChars {xs : List Xml} (hxs : ∀ x ∈ xs, x.LegalAlike) (depth : Nat) :
    Legal (allChars depth xs) ↔ LegalTexts (allTexts xs) := by
  induction xs with
  | nil => simp [allChars, allTexts, legalTexts_nil, legal_nil]
  | cons x xs ih =>
    obtain ⟨hx, hxs⟩ := List.forall_mem_cons.mp hxs
    rw [allChars, allTexts, legal_append, legalTexts_append, hx depth, ih hxs]

theorem Formed.legalAlike {x : Xml} (hx : x.Formed) : x.LegalAlike := by
  have hmarks : IsChar '<' ∧ IsChar '>' ∧ IsChar '/' ∧ IsChar '\n' := by decide
  induction hx with
  | @data name content attributes hname hattributes =>
    intro depth
    simp [chars, closingTag, texts, legal_cons, legal_append, legal_indent, hmarks, hname.legal,
      legal_tagChars hname hattributes, legal_escaped, legal_nil, legalTexts_cons, and_comm]
  | @element name attributes children hname hattributes _ ih =>
    intro depth
    cases children with
    | nil =>
      simp [chars, texts, allTexts, legal_cons, legal_append, legal_indent, hmarks,
        legal_tagChars hname hattributes, legal_nil]
    | cons x xs =>
      have hchildren := legal_allChars ih (depth + 1)
      rw [allChars, legal_append] at hchildren
      simp [chars, closingTag, texts, legal_cons, legal_append, legal_indent, hmarks, hname.legal,
        legal_tagChars hname hattributes, legal_nil, legalTexts_append, hchildren]

theorem Formed.legal_document {x : Xml} (hx : x.Formed) :
    Legal x.document.toList ↔ LegalTexts x.texts := by
  have hdeclaration : Legal declaration.toList := by decide
  rw [document_eq, String.toList_append, String.toList_ofList, legal_append,
    and_iff_right hdeclaration, hx.legalAlike 0]

end GotoCheck.Xml
