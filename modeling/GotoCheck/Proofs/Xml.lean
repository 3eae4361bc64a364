import GotoCheck.Xml

/-! The text of an XML tree determines the tree. Escaped texts hold none of the marks that end them,
names stop before what follows them, and children stand deeper than the end of their parent, so a
tree can be told from the front of any text that starts with it. -/
namespace GotoCheck.Xml
variable {c d : Char} {r s : List Char} {depth : Nat} {x y : Xml}

/-- Two texts that agree are cut at the same place if both parts go on exactly as long as
`p` holds. -/
theorem eq_of_append_eq {p : Char → Bool} {a b : List Char} (ha : ∀ c ∈ a, p c) (hb : ∀ c ∈ b, p c)
    (hr : r.takeWhile p = []) (hs : s.takeWhile p = []) (h : a ++ r = b ++ s) : a = b ∧ r = s := by
  have hfront : a = b := by
    calc a = (a ++ r).takeWhile p := by rw [List.takeWhile_append_of_pos ha, hr, List.append_nil]
      _ = (b ++ s).takeWhile p := by rw [h]
      _ = b := by rw [List.takeWhile_append_of_pos hb, hs, List.append_nil]
  subst hfront
  exact ⟨rfl, List.append_cancel_left h⟩

section Escaping

/-- No reference is the start of another, and the ampersand stands for itself in none. -/
theorem escape_append_inj (h : escape c ++ r = escape d ++ s) : c = d ∧ r = s := by
  unfold escape at h
  split at h <;> split at h <;> simp at h ⊢ <;> grind

theorem escape_ne_nil : escape c ≠ [] := by
  unfold escape
  split <;> simp

theorem escaped_inj {a b : String} (h : escaped a = escaped b) : a = b := by
  apply String.toList_inj.mp
  unfold escaped at h
  generalize a.toList = as at h ⊢
  generalize b.toList = bs at h ⊢
  induction as generalizing bs with
  | nil =>
    cases bs with
    | nil => rfl
    | cons d bs => exact absurd (List.append_eq_nil_iff.mp h.symm).1 escape_ne_nil
  | cons c as ih =>
    cases bs with
    | nil => exact absurd (List.append_eq_nil_iff.mp h).1 escape_ne_nil
    | cons d bs =>
      obtain ⟨rfl, hrest⟩ := escape_append_inj h
      rw [ih bs hrest]

/-- The marks that open a tag and close a value never come from an escaped text. -/
theorem not_mark_of_mem_escaped {a : String} (h : c ∈ escaped a) : c ≠ '<' ∧ c ≠ '"' := by
  obtain ⟨d, -, hc⟩ := List.mem_flatMap.mp h
  unfold escape at hc
  split at hc <;> simp at hc <;> grind

end Escaping

section Tags

/-- What can stand in a name: anything but the marks that follow names. -/
def isNameChar (c : Char) : Bool := !(c ∈ [' ', '=', '/', '>'])

def IsName (name : String) : Prop := name ≠ "" ∧ ∀ c ∈ name.toList, isNameChar c

instance (name : String) : Decidable (IsName name) :=
  decidable_of_iff (name ≠ "" ∧ name.toList.all isNameChar)
    (and_congr_right fun _ => List.all_eq_true)

/-- What can follow the last attribute of a tag. -/
def EndsTag (r : List Char) : Prop := r.head? = some '>' ∨ r.head? = some '/'

theorem EndsTag.takeWhile (hr : EndsTag r) : r.takeWhile isNameChar = [] := by
  cases r with
  | nil => rfl
  | cons c r => rcases hr with hc | hc <;> cases hc <;> rfl

theorem EndsTag.ne_space (hr : EndsTag r) {t : List Char} : r ≠ ' ' :: t := by
  rintro rfl
  rcases hr with hc | hc <;> cases hc

def attributeChars (a : String × String) : List Char :=
  ' ' :: a.1.toList ++ '=' :: '"' :: escaped a.2 ++ ['"']

theorem attributeChars_append (a : String × String) : attributeChars a ++ r =
    ' ' :: (a.1.toList ++ '=' :: '"' :: (escaped a.2 ++ '"' :: r)) := by
  simp [attributeChars]

theorem attributeChars_append_inj {a b : String × String} (ha : IsName a.1) (hb : IsName b.1)
    (h : attributeChars a ++ r = attributeChars b ++ s) : a = b ∧ r = s := by
  rw [attributeChars_append, attributeChars_append, List.cons.injEq] at h
  -- the name ends at the first equals sign, the value at the first quotation mark behind it
  obtain ⟨hname, htail⟩ := eq_of_append_eq (p := isNameChar) ha.2 hb.2 rfl rfl h.2
  have hvalues : escaped a.2 ++ '"' :: r = escaped b.2 ++ '"' :: s := by simpa using htail
  obtain ⟨hvalue, hrest⟩ := eq_of_append_eq (p := (· != '"'))
    (fun c hc => bne_iff_ne.mpr (not_mark_of_mem_escaped hc).2)
    (fun c hc => bne_iff_ne.mpr (not_mark_of_mem_escaped hc).2) rfl rfl hvalues
  exact ⟨Prod.ext (String.toList_inj.mp hname) (escaped_inj hvalue), (List.cons.inj hrest).2⟩

theorem attributes_append_inj {as bs : List (String × String)} (has : ∀ a ∈ as, IsName a.1)
    (hbs : ∀ b ∈ bs, IsName b.1) (hr : EndsTag r) (hs : EndsTag s)
    (h : as.flatMap attributeChars ++ r = bs.flatMap attributeChars ++ s) : as = bs ∧ r = s := by
  induction as generalizing bs with
  | nil =>
    cases bs with
    | nil => exact ⟨rfl, h⟩
    | cons b bs =>
      rw [List.flatMap_cons, List.append_assoc, attributeChars_append] at h
      exact absurd h hr.ne_space
  | cons a as ih =>
    cases bs with
    | nil =>
      rw [List.flatMap_cons, List.append_assoc, attributeChars_append] at h
      exact absurd h.symm hs.ne_space
    | cons b bs =>
      rw [List.flatMap_cons, List.flatMap_cons, List.append_assoc, List.append_assoc] at h
      obtain ⟨rfl, hrest⟩ := attributeChars_append_inj (has a List.mem_cons_self)
        (hbs b List.mem_cons_self) h
      obtain ⟨rfl, htail⟩ := ih (fun e he => has e (List.mem_cons_of_mem a he))
        (fun e he => hbs e (List.mem_cons_of_mem a he)) hrest
      exact ⟨rfl, htail⟩

theorem tagChars_append_inj {m n : String} {as bs : List (String × String)} (hm : IsName m)
    (hn : IsName n) (has : ∀ a ∈ as, IsName a.1) (hbs : ∀ b ∈ bs, IsName b.1) (hr : EndsTag r)
    (hs : EndsTag s) (h : tagChars m as ++ r = tagChars n bs ++ s) : m = n ∧ as = bs ∧ r = s := by
  have hstops : ∀ {es : List (String × String)} {t : List Char}, EndsTag t →
      (es.flatMap attributeChars ++ t).takeWhile isNameChar = [] := by
    intro es t ht
    cases es with
    | nil => exact ht.takeWhile
    | cons e es =>
      rw [List.flatMap_cons, List.append_assoc, attributeChars_append]
      rfl
  have hsplit : m.toList ++ (as.flatMap attributeChars ++ r) =
      n.toList ++ (bs.flatMap attributeChars ++ s) := by
    rw [← List.append_assoc, ← List.append_assoc]
    exact h
  obtain ⟨hname, hrest⟩ := eq_of_append_eq hm.2 hn.2 (hstops hr) (hstops hs) hsplit
  exact ⟨String.toList_inj.mp hname, attributes_append_inj has hbs hr hs hrest⟩

end Tags

section Trees

/-- All names in the tree can stand in tags. -/
inductive WellNamed : Xml → Prop
  | data {name content : String} {attributes : List (String × String)} : IsName name →
      (∀ n ∈ attributes.map Prod.fst, IsName n) → WellNamed (data name attributes content)
  | element {name : String} {attributes : List (String × String)} {children : List Xml} :
      IsName name → (∀ n ∈ attributes.map Prod.fst, IsName n) → (∀ x ∈ children, WellNamed x) →
      WellNamed (element name attributes children)

def name : Xml → String
  | data name _ _ => name
  | element name _ _ => name

def attributes : Xml → List (String × String)
  | data _ attributes _ => attributes
  | element _ attributes _ => attributes

/-- What follows the name and the attributes. -/
def behindTag (depth : Nat) : Xml → List Char
  | data name _ content => '>' :: escaped content ++ closingTag name ++ ['\n']
  | element _ _ [] => ['/', '>', '\n']
  | element name _ (x :: xs) =>
    '>' :: '\n' :: allChars (depth + 1) (x :: xs) ++ indent depth ++ closingTag name ++ ['\n']

section BehindTag
variable {name content : String} {attributes : List (String × String)} {xs : List Xml}

theorem behindTag_data_append : (data name attributes content).behindTag depth ++ r =
    '>' :: (escaped content ++ '<' :: '/' :: (name.toList ++ '>' :: '\n' :: r)) := by
  simp [behindTag, closingTag]

theorem behindTag_children_append : (element name attributes (x :: xs)).behindTag depth ++ r =
    '>' :: '\n' :: (allChars (depth + 1) (x :: xs) ++
      (indent depth ++ '<' :: '/' :: (name.toList ++ '>' :: '\n' :: r))) := by
  simp [behindTag, closingTag]

theorem endTag_append_inj (h : '<' :: '/' :: (name.toList ++ '>' :: '\n' :: r) =
    '<' :: '/' :: (name.toList ++ '>' :: '\n' :: s)) : r = s := by
  simpa using h

end BehindTag

theorem chars_append (depth : Nat) (x : Xml) : x.chars depth ++ r =
    indent depth ++ '<' :: (tagChars x.name x.attributes ++ (x.behindTag depth ++ r)) := by
  match x with
  | data _ _ _ => simp [chars, name, attributes, behindTag]
  | element _ _ [] => simp [chars, name, attributes, behindTag]
  | element _ _ (_ :: _) => simp [chars, allChars, name, attributes, behindTag]

theorem WellNamed.isName (hx : x.WellNamed) : IsName x.name := by
  cases hx with
  | data hname _ => exact hname
  | element hname _ _ => exact hname

theorem WellNamed.isName_attributes (hx : x.WellNamed) : ∀ a ∈ x.attributes, IsName a.1 := by
  intro a ha
  cases hx with
  | data _ hattributes => exact hattributes a.1 (List.mem_map_of_mem ha)
  | element _ hattributes _ => exact hattributes a.1 (List.mem_map_of_mem ha)

theorem endsTag_behindTag (depth : Nat) (x : Xml) : EndsTag (x.behindTag depth ++ r) := by
  match x with
  | data _ _ _ => exact .inl rfl
  | element _ _ [] => exact .inr rfl
  | element _ _ (_ :: _) => exact .inl rfl

/-- Texts that start with two trees agree on the tags of these. -/
theorem WellNamed.tag_eq (hx : x.WellNamed) (hy : y.WellNamed)
    (h : x.chars depth ++ r = y.chars depth ++ s) :
    x.name = y.name ∧ x.attributes = y.attributes ∧
      x.behindTag depth ++ r = y.behindTag depth ++ s := by
  rw [chars_append, chars_append] at h
  have htags := (List.cons.inj (List.append_cancel_left h)).2
  exact tagChars_append_inj hx.isName hy.isName hx.isName_attributes hy.isName_attributes
    (endsTag_behindTag depth x) (endsTag_behindTag depth y) htags

/-- The tree can be told from any text that starts with it. -/
def Determined (x : Xml) : Prop :=
  ∀ (y : Xml) (depth : Nat) (r s : List Char), y.WellNamed →
    x.chars depth ++ r = y.chars depth ++ s → x = y ∧ r = s

/-- A child starts one tab later than the end of its parent. -/
theorem chars_ne_end {t : List Char} :
    y.chars (depth + 1) ++ s ≠ indent depth ++ '<' :: t := by
  intro h
  have hdeeper : indent (depth + 1) = indent depth ++ ['\t'] := List.replicate_succ'
  rw [chars_append, hdeeper, List.append_assoc] at h
  have hmark := List.append_cancel_left h
  cases hmark

theorem allChars_append_inj {xs ys : List Xml} (hxs : ∀ x ∈ xs, x.Determined)
    (hys : ∀ y ∈ ys, y.WellNamed) (h : allChars (depth + 1) xs ++ (indent depth ++ '<' :: r) =
      allChars (depth + 1) ys ++ (indent depth ++ '<' :: s)) : xs = ys ∧ r = s := by
  induction xs generalizing ys with
  | nil =>
    cases ys with
    | nil => exact ⟨rfl, (List.cons.inj (List.append_cancel_left h)).2⟩
    | cons y ys =>
      rw [allChars, allChars, List.append_assoc] at h
      exact absurd h.symm chars_ne_end
  | cons x xs ih =>
    cases ys with
    | nil =>
      rw [allChars, allChars, List.append_assoc] at h
      exact absurd h chars_ne_end
    | cons y ys =>
      rw [allChars, allChars, List.append_assoc, List.append_assoc] at h
      obtain ⟨rfl, hrest⟩ := hxs x List.mem_cons_self y _ _ _ (hys y List.mem_cons_self) h
      obtain ⟨rfl, htail⟩ := ih (fun z hz => hxs z (List.mem_cons_of_mem x hz))
        (fun z hz => hys z (List.mem_cons_of_mem x hz)) hrest
      exact ⟨rfl, htail⟩

/-- Behind a tag text goes on to the end tag, and children to the tag of the first of them. -/
theorem content_ne_children {content : String} {t : List Char} (hy : y.WellNamed) :
    escaped content ++ '<' :: '/' :: r ≠ '\n' :: (y.chars depth ++ t) := by
  intro h
  rw [chars_append, ← List.cons_append] at h
  have hindent : ∀ c ∈ '\n' :: indent depth, (c != '<') = true := by
    intro c hc
    rcases List.mem_cons.mp hc with rfl | hc
    · rfl
    · rw [List.eq_of_mem_replicate hc]
      rfl
  obtain ⟨-, htags⟩ := eq_of_append_eq (p := (· != '<'))
    (fun c hc => bne_iff_ne.mpr (not_mark_of_mem_escaped hc).1) hindent rfl rfl h
  -- a slash would be the first character of a name
  obtain ⟨hne, hchars⟩ := hy.isName
  have hslash := (List.cons.inj htags).2
  cases hname : y.name.toList with
  | nil => exact hne (String.toList_eq_nil_iff.mp hname)
  | cons c cs =>
    rw [tagChars, hname] at hslash
    rw [hname, ← (List.cons.inj hslash).1] at hchars
    exact absurd (hchars '/' List.mem_cons_self) (by decide)

theorem WellNamed.determined (hx : x.WellNamed) : x.Determined := by
  induction hx with
  | @data name content attributes hname hattributes =>
    intro y depth r s hy h
    obtain ⟨hn, has, hbehind⟩ := (WellNamed.data hname hattributes).tag_eq hy h
    cases hy with
    | @data _ content' =>
      cases hn
      cases has
      rw [behindTag_data_append, behindTag_data_append] at hbehind
      obtain ⟨hcontent, hrest⟩ := eq_of_append_eq (p := (· != '<'))
        (fun c hc => bne_iff_ne.mpr (not_mark_of_mem_escaped hc).1)
        (fun c hc => bne_iff_ne.mpr (not_mark_of_mem_escaped hc).1) rfl rfl
        (List.cons.inj hbehind).2
      rw [escaped_inj hcontent]
      exact ⟨rfl, endTag_append_inj hrest⟩
    | @element _ _ children _ _ hchildren =>
      cases children with
      | nil => cases hbehind
      | cons y ys =>
        rw [behindTag_data_append, behindTag_children_append, allChars,
          List.append_assoc] at hbehind
        have hcontents := (List.cons.inj hbehind).2
        exact absurd hcontents (content_ne_children (hchildren y List.mem_cons_self))
  | @element name attributes children hname hattributes hchildren ih =>
    intro y depth r s hy h
    obtain ⟨hn, has, hbehind⟩ := (WellNamed.element hname hattributes hchildren).tag_eq hy h
    cases hy with
    | data =>
      cases children with
      | nil => cases hbehind
      | cons x xs =>
        rw [behindTag_data_append, behindTag_children_append, allChars,
          List.append_assoc] at hbehind
        have hcontents := (List.cons.inj hbehind).2.symm
        exact absurd hcontents (content_ne_children (hchildren x List.mem_cons_self))
    | @element _ _ children' _ _ hchildren' =>
      cases hn
      cases has
      cases children with
      | nil =>
        cases children' with
        | nil => exact ⟨rfl, List.append_cancel_left hbehind⟩
        | cons y ys => cases hbehind
      | cons x xs =>
        cases children' with
        | nil => cases hbehind
        | cons y ys =>
          rw [behindTag_children_append, behindTag_children_append] at hbehind
          have hlines := (List.cons.inj (List.cons.inj hbehind).2).2
          obtain ⟨hsame, hend⟩ := allChars_append_inj ih hchildren' hlines
          rw [hsame]
          exact ⟨rfl, endTag_append_inj (congrArg ('<' :: ·) hend)⟩

/-- A document determines its tree. -/
theorem WellNamed.document_inj (hx : x.WellNamed) (hy : y.WellNamed)
    (h : x.document = y.document) : x = y := by
  have hchars : x.chars 0 = y.chars 0 := String.ofList_inj.mp ((String.append_right_inj _).mp h)
  exact (hx.determined y 0 [] [] hy (congrArg (· ++ []) hchars)).1

end Trees

end GotoCheck.Xml
