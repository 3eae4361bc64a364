import GotoCheck.CType
import GotoCheck.Proofs.Text.Lines
import GotoCheck.Source.Extent

/-! Types of truth values and integers by their texts. Each such text is read back, and none can be
taken for the start of a printed expression in parentheses. -/
namespace GotoCheck.CType

/-- The types that conversions to truth values and integers have. -/
def IsCastTarget (t : CType) : Prop := t = .bool ∨ t.isBitVector

/-- The width in the text of an integer type, by the name that C has for it or as a number. -/
def widthOfText? (named numbered : String) (cs : List Char) : Option Nat :=
  if named.toList <+: cs then
    [8, 16, 32, 64].find? fun w => integerName? w = some (String.ofList (cs.drop named.length))
  else if numbered.toList <+: cs then
    some (Nat.ofDigitChars 10 ((cs.drop numbered.length).takeWhile Char.isDigit) 0)
  else none

def ofText? (cs : List Char) : Option CType :=
  if cs = bool.text.toList then some bool
  else ((widthOfText? "signed " "__signedbv<" cs).map signed).or
    ((widthOfText? "unsigned " "__unsignedbv<" cs).map unsigned)

/-- Tells the text of a type behind a parenthesis from that of an expression: it is one word alone,
or goes on after its first word with another word or with a width. -/
def startsText (cs : List Char) : Bool :=
  match cs.dropWhile Source.isWordChar with
  | ')' :: _ | '<' :: _ => true
  | ' ' :: c :: _ => Source.isWordChar c
  | _ => false

/-- The text of an integer type, by how it starts where C has a name for the width and where not. -/
def integerText (named numbered : String) (w : Nat) : String :=
  match integerName? w with
  | some name => named ++ name
  | none => numbered ++ w.repr ++ ">"

theorem integerText_cases {P : String → Prop} {named numbered : String} {w : Nat}
    (hnamed : ∀ name ∈ ["char", "short int", "int", "long int"], P (named ++ name))
    (hnumbered : P (numbered ++ w.repr ++ ">")) : P (integerText named numbered w) := by
  unfold integerText
  cases hname : integerName? w with
  | none => exact hnumbered
  | some name =>
    apply hnamed
    unfold integerName? at hname
    split at hname <;> cases hname <;> decide

theorem widthOfText?_integerText (named numbered : String) (w : Nat)
    (h : ¬named.toList <+: (numbered ++ w.repr ++ ">").toList) :
    widthOfText? named numbered (integerText named numbered w).toList = some w := by
  unfold integerText
  cases hname : integerName? w with
  | some name =>
    show widthOfText? named numbered (named ++ name).toList = some w
    rw [widthOfText?, String.toList_append, if_pos (List.prefix_append _ _), ← String.length_toList,
      List.drop_left, String.ofList_toList]
    unfold integerName? at hname
    split at hname <;> cases hname <;> decide
  | none =>
    show widthOfText? named numbered (numbered ++ w.repr ++ ">").toList = some w
    rw [widthOfText?, if_neg h, String.toList_append, String.toList_append, List.append_assoc,
      if_pos (List.prefix_append _ _), ← String.length_toList, List.drop_left,
      List.takeWhile_append_of_pos fun c => Text.isDigit_of_mem_repr, Nat.toList_repr]
    simp

variable {t : CType}

theorem ofText?_text (h : t.IsCastTarget) : ofText? t.text.toList = some t := by
  have hbool {named numbered : String} {w : Nat}
      (hnamed : ∀ name ∈ ["char", "short int", "int", "long int"],
        (named ++ name).toList ≠ bool.text.toList)
      (hnumbered : (numbered ++ w.repr ++ ">").toList ≠ bool.text.toList) :
      (integerText named numbered w).toList ≠ bool.text.toList :=
    integerText_cases (P := fun s => s.toList ≠ bool.text.toList) hnamed hnumbered
  cases t with
  | bool => rfl
  | signed w =>
    have hw := widthOfText?_integerText "signed " "__signedbv<" w (by simp)
    show ofText? (integerText "signed " "__signedbv<" w).toList = _
    rw [ofText?, if_neg (hbool (by decide) (by simp [text])), hw]
    rfl
  | unsigned w =>
    have hw := widthOfText?_integerText "unsigned " "__unsignedbv<" w (by simp)
    have hsigned : widthOfText? "signed " "__signedbv<"
        (integerText "unsigned " "__unsignedbv<" w).toList = none :=
      integerText_cases (P := fun s => widthOfText? "signed " "__signedbv<" s.toList = none)
        (by decide) (by simp [widthOfText?])
    show ofText? (integerText "unsigned " "__unsignedbv<" w).toList = _
    rw [ofText?, if_neg (hbool (by decide) (by simp [text])), hw, hsigned]
    rfl
  | _ => simp [IsCastTarget, isBitVector] at h

theorem text_cases {P : String → Prop} (h : t.IsCastTarget) (hbool : P "_Bool")
    (hnamed : ∀ start ∈ ["signed ", "unsigned "],
      ∀ name ∈ ["char", "short int", "int", "long int"], P (start ++ name))
    (hnumbered : ∀ start ∈ ["__signedbv<", "__unsignedbv<"], ∀ w : Nat,
      P (start ++ w.repr ++ ">")) : P t.text := by
  cases t with
  | bool => exact hbool
  | signed w => exact integerText_cases (hnamed "signed " (by simp)) (hnumbered _ (by simp) w)
  | unsigned w => exact integerText_cases (hnamed "unsigned " (by simp)) (hnumbered _ (by simp) w)
  | _ => simp [IsCastTarget, isBitVector] at h

theorem startsText_text (h : t.IsCastTarget) (rest : List Char) :
    startsText (t.text.toList ++ ')' :: rest) := by
  refine text_cases (P := fun s => startsText (s.toList ++ ')' :: rest)) h rfl ?_ ?_
  · intro start hstart name hname
    simp only [List.mem_cons, List.not_mem_nil, or_false] at hstart hname
    rcases hstart with rfl | rfl <;> rcases hname with rfl | rfl | rfl | rfl <;> rfl
  · intro start hstart w
    simp only [List.mem_cons, List.not_mem_nil, or_false] at hstart
    -- the sign before the width settles it, whatever the digits are
    simp only [String.toList_append, List.append_assoc]
    rcases hstart with rfl | rfl <;> rfl

theorem close_notMem_text (h : t.IsCastTarget) : ')' ∉ t.text.toList := by
  refine text_cases (P := fun s => ')' ∉ s.toList) h (by decide) (by decide) ?_
  intro start hstart w
  have hdigits : ')' ∉ w.repr.toList := fun hc =>
    absurd (Text.isDigit_of_mem_repr hc) (by decide)
  simp only [List.mem_cons, List.not_mem_nil, or_false] at hstart
  rcases hstart with rfl | rfl <;> simpa using hdigits

end GotoCheck.CType
