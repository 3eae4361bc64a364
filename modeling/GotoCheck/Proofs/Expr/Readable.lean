import Mathlib.Tactic.Tauto
import GotoCheck.Expr.Text
import GotoCheck.Proofs.Expr.TypeText

/-! Expressions that can be read back, what remains of them without types, and their texts. -/
namespace GotoCheck

/-- An identifier of C: a letter or an underscore, and then letters, digits and underscores. -/
def IsIdentifier (name : String) : Prop :=
  ∃ c rest, name.toList = c :: rest ∧ Source.isWordStart c ∧ ∀ d ∈ rest, Source.isWordChar d

theorem isWordChar_of_isDigit {c : Char} (h : c.isDigit) : Source.isWordChar c := by
  have hascii : c.toNat < 128 := by
    simp only [Char.isDigit, Bool.and_eq_true, decide_eq_true_eq] at h
    exact Nat.lt_of_le_of_lt h.2 (by decide)
  simp [Source.isWordChar, Text.isAlphanumeric, hascii, Char.isAlphanum, h]

theorem isWordChar_of_isWordStart {c : Char} (h : Source.isWordStart c) : Source.isWordChar c := by
  unfold Source.isWordStart Text.isAlphabetic at h
  unfold Source.isWordChar Text.isAlphanumeric
  split at h <;> rename_i hascii <;> simp only [hascii, if_true, if_false]
  · simp only [Char.isAlphanum, Bool.or_eq_true, decide_eq_true_eq] at h ⊢
    tauto
  · simp only [Bool.or_eq_true, decide_eq_true_eq] at h ⊢
    tauto

theorem not_isDigit_of_isWordStart {c : Char} (h : Source.isWordStart c) : ¬c.isDigit := by
  intro hdigit
  simp only [Char.isDigit, Bool.and_eq_true, decide_eq_true_eq] at hdigit
  have hascii : c.toNat < 128 := Nat.lt_of_le_of_lt hdigit.2 (by decide)
  simp only [Source.isWordStart, Text.isAlphabetic, hascii, if_true, Bool.or_eq_true,
    decide_eq_true_eq] at h
  -- a letter in either case lies behind the digits
  have hbehind (first last : Char) (hfirst : ¬first.val ≤ '9'.val) :
      ¬(first.val ≤ c.val ∧ c.val ≤ last.val) :=
    fun hc => hfirst (UInt32.le_trans hc.1 hdigit.2)
  rcases h with hletter | rfl
  · rcases (Bool.or_eq_true _ _).mp hletter with hupper | hlower
    · exact hbehind 'A' 'Z' (by decide) (of_decide_eq_true hupper)
    · obtain ⟨hfirst, hlast⟩ := (Bool.and_eq_true _ _).mp hlower
      exact hbehind 'a' 'z' (by decide) ⟨of_decide_eq_true hfirst, of_decide_eq_true hlast⟩
  · exact absurd hdigit.2 (by decide)

theorem IsIdentifier.isWordChar {name : String} (h : IsIdentifier name) :
    ∀ c ∈ name.toList, Source.isWordChar c := by
  obtain ⟨c, rest, hname, hc, hrest⟩ := h
  rw [hname]
  intro d hd
  rcases List.mem_cons.mp hd with rfl | hd
  · exact isWordChar_of_isWordStart hc
  · exact hrest d hd

namespace Expr

mutual
/-- The tree alone, without the types of its nodes. Only what a value is converted to stays. -/
def untyped : Expr → Expr
  | symbol n _ => symbol n .void
  | literal v _ => literal v .void
  | unary op e _ => unary op e.untyped .void
  | binary op l r _ => binary op l.untyped r.untyped .void
  | addressOf e _ => addressOf e.untyped .void
  | dereference e _ => dereference e.untyped .void
  | index b i _ => index b.untyped i.untyped .void
  | member b f _ => member b.untyped f .void
  | cast e t => cast e.untyped t
  | conditional c a b _ => conditional c.untyped a.untyped b.untyped .void
  | structValue vs _ => structValue (allUntyped vs) .void
  | arrayValue vs _ => arrayValue (allUntyped vs) .void
  | nondet _ => nondet .void

def allUntyped : List Expr → List Expr
  | [] => []
  | e :: es => e.untyped :: allUntyped es
end

/-- Expressions of symbols, truth values, null, integers from zero on, operators and conversions to
truth values and integers. -/
inductive Readable : Expr → Prop
  | symbol {n : String} {t : CType} : IsIdentifier n → n ∉ ["TRUE", "FALSE", "NULL"] →
    Readable (symbol n t)
  | bool {b : Bool} {t : CType} : Readable (literal (.bool b) t)
  | null {t : CType} : Readable (literal .null t)
  | int {v : Int} {t : CType} : 0 ≤ v → Readable (literal (.int v) t)
  | unary {op : UnaryOp} {e : Expr} {t : CType} : Readable e → Readable (unary op e t)
  | binary {op : BinaryOp} {l r : Expr} {t : CType} : Readable l → Readable r →
    Readable (binary op l r t)
  | addressOf {e : Expr} {t : CType} : Readable e → Readable (addressOf e t)
  | dereference {e : Expr} {t : CType} : Readable e → Readable (dereference e t)
  | index {b i : Expr} {t : CType} : Readable b → Readable i → Readable (index b i t)
  | member {b : Expr} {f : String} {t : CType} : Readable b → IsIdentifier f →
    Readable (member b f t)
  | conditional {c a b : Expr} {t : CType} : Readable c → Readable a → Readable b →
    Readable (conditional c a b t)
  | cast {e : Expr} {t : CType} : Readable e → t.IsCastTarget → Readable (cast e t)

/-! Texts as characters. -/

def charsOf (ps : List Piece) : List Char := ps.flatMap fun p => p.text.toList

def chars (e : Expr) : List Char := charsOf (e.pieces .empty)

/-- The characters of an operand, in parentheses where its place asks for them. -/
def fitChars (place : Nat) (e : Expr) : List Char :=
  if e.level < place then '(' :: e.chars ++ [')'] else e.chars

theorem toList_text (e : Expr) : (e.text .empty).toList = e.chars := by
  rw [text, Piece.join, String.toList_join, List.flatMap_map]
  rfl

@[simp]
theorem charsOf_append (ps qs : List Piece) : charsOf (ps ++ qs) = charsOf ps ++ charsOf qs :=
  List.flatMap_append

@[simp]
theorem charsOf_cons (p : Piece) (ps : List Piece) :
    charsOf (p :: ps) = p.text.toList ++ charsOf ps :=
  List.flatMap_cons

@[simp]
theorem charsOf_nil : charsOf [] = [] := rfl

@[simp]
theorem charsOf_fit (place : Nat) (e : Expr) :
    charsOf (fit place e (e.pieces .empty)) = fitChars place e := by
  unfold fit fitChars
  split
  · simp [chars, Piece.text]
  · rfl

variable {x l r b i c a : Expr} {t : CType} {f : String} {op : BinaryOp}

theorem chars_unary {op : UnaryOp} : (unary op x t).chars = op.text.toList ++ x.fitChars 14 := by
  simp [chars, pieces, Piece.text]

theorem chars_addressOf : (addressOf x t).chars = '&' :: x.fitChars 14 := by
  simp [chars, pieces, Piece.text]

theorem chars_dereference : (dereference x t).chars = '*' :: x.fitChars 14 := by
  simp [chars, pieces, Piece.text]

theorem chars_binary : (binary op l r t).chars = fitChars op.precedence l ++
    ' ' :: (op.text.toList ++ ' ' :: fitChars (op.precedence + 1) r) := by
  simp [chars, pieces, Piece.text]

theorem chars_index : (index b i t).chars = fitChars 15 b ++ '[' :: (i.chars ++ [']']) := by
  simp [chars, pieces, Piece.text]

theorem chars_arrow {s : CType} : (member (dereference x s) f t).chars =
    fitChars 15 x ++ '-' :: '>' :: f.toList := by
  simp [chars, pieces, Piece.text]

theorem pieces_member (h : b.isDereference = false) : (member b f t).pieces .empty =
    fit 15 b (b.pieces .empty) ++ [.lexeme ".", .lexeme f] := by
  cases b with
  | dereference => cases h
  | _ => rfl

theorem chars_member (h : b.isDereference = false) :
    (member b f t).chars = b.fitChars 15 ++ '.' :: f.toList := by
  simp [chars, pieces_member h, Piece.text]

theorem chars_cast : (cast x t).chars = '(' :: (t.text.toList ++ ')' :: fitChars 14 x) := by
  simp [chars, pieces, Piece.text]

theorem chars_conditional : (conditional c a b t).chars = fitChars 4 c ++
    ' ' :: '?' :: ' ' :: (fitChars 4 a ++ ' ' :: ':' :: ' ' :: fitChars 3 b) := by
  simp [chars, pieces, Piece.text]

end Expr

end GotoCheck
