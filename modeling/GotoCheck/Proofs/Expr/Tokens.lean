import GotoCheck.Proofs.Expr
import GotoCheck.Proofs.Source.Lexeme

/-! Printed expressions as tokens. The tokens of a text are the lexemes that were written, unless a
minus sign stands directly before a minus sign, an ampersand before an ampersand, or a point behind
a numeral. -/
namespace GotoCheck.Expr
open Source

/-- Expressions of symbols, integers, and operators without types in their text. -/
inductive Spelt : Expr → Prop
  | symbol {n : String} {t : CType} : IsIdentifier n → Spelt (symbol n t)
  | int {v : Int} {t : CType} : Spelt (literal (.int v) t)
  | unary {op : UnaryOp} {x : Expr} {t : CType} : Spelt x → Spelt (unary op x t)
  | binary {op : BinaryOp} {l r : Expr} {t : CType} : Spelt l → Spelt r → Spelt (binary op l r t)
  | addressOf {x : Expr} {t : CType} : Spelt x → Spelt (addressOf x t)
  | dereference {x : Expr} {t : CType} : Spelt x → Spelt (dereference x t)
  | index {b i : Expr} {t : CType} : Spelt b → Spelt i → Spelt (index b i t)
  | member {b : Expr} {f : String} {t : CType} : Spelt b → IsIdentifier f → Spelt (member b f t)
  | conditional {c a b : Expr} {t : CType} : Spelt c → Spelt a → Spelt b →
    Spelt (conditional c a b t)

/-- The text starts with a minus sign. -/
def isNegated : Expr → Bool
  | unary .neg _ _ => true
  | literal (.int v) _ => v < 0
  | _ => false

/-- The text starts with an ampersand. -/
def isAddress : Expr → Bool
  | addressOf _ _ => true
  | _ => false

def isNumeral : Expr → Bool
  | literal (.int v) _ => 0 ≤ v
  | _ => false

/-- A lexeme of the node and one next to it read as one token. -/
inductive Joins : Expr → Prop
  | minus {x : Expr} {t : CType} : x.isNegated → Joins (unary .neg x t)
  | ampersand {x : Expr} {t : CType} : x.isAddress → Joins (addressOf x t)
  | point {b : Expr} {f : String} {t : CType} : b.isNumeral → Joins (member b f t)

/-- No node of the expression joins two lexemes. -/
def Parted (e : Expr) : Prop := ∀ x, Within x e → ¬Joins x

variable {e x l r b i c a : Expr} {t : CType} {f n : String} {ps : List Piece}

theorem parted_iff : Parted e ↔ ¬Joins e ∧ ∀ p ∈ e.operands, Parted p := by
  constructor
  · intro h
    exact ⟨h e .self, fun p hp x hx => h x (.part hp hx)⟩
  · rintro ⟨he, hoperands⟩ x hx
    cases hx with
    | self => exact he
    | part hp hx => exact hoperands _ hp x hx

theorem parted_symbol : Parted (symbol n t) := by
  rw [parted_iff]
  exact ⟨nofun, nofun⟩

theorem parted_int {v : Int} : Parted (literal (.int v) t) := by
  rw [parted_iff]
  exact ⟨nofun, nofun⟩

theorem parted_unary {op : UnaryOp} :
    Parted (unary op x t) ↔ ¬(op = .neg ∧ x.isNegated) ∧ Parted x := by
  have hjoins : Joins (unary op x t) ↔ op = .neg ∧ x.isNegated := by
    constructor
    · rintro ⟨h⟩
      exact ⟨rfl, h⟩
    · rintro ⟨rfl, h⟩
      exact .minus h
  rw [parted_iff, hjoins, operands, List.forall_mem_singleton]

theorem parted_addressOf : Parted (addressOf x t) ↔ ¬x.isAddress ∧ Parted x := by
  have hjoins : Joins (addressOf x t) ↔ x.isAddress := ⟨fun h => by cases h; assumption, .ampersand⟩
  rw [parted_iff, hjoins, operands, List.forall_mem_singleton]

theorem parted_member : Parted (member b f t) ↔ ¬b.isNumeral ∧ Parted b := by
  have hjoins : Joins (member b f t) ↔ b.isNumeral := ⟨fun h => by cases h; assumption, .point⟩
  rw [parted_iff, hjoins, operands, List.forall_mem_singleton]

theorem parted_dereference : Parted (dereference x t) ↔ Parted x := by
  rw [parted_iff, operands, List.forall_mem_singleton]
  exact and_iff_right fun h => by cases h

theorem parted_binary {op : BinaryOp} : Parted (binary op l r t) ↔ Parted l ∧ Parted r := by
  rw [parted_iff, operands, List.forall_mem_cons, List.forall_mem_singleton]
  exact and_iff_right fun h => by cases h

theorem parted_index : Parted (index b i t) ↔ Parted b ∧ Parted i := by
  rw [parted_iff, operands, List.forall_mem_cons, List.forall_mem_singleton]
  exact and_iff_right fun h => by cases h

theorem parted_conditional :
    Parted (conditional c a b t) ↔ Parted c ∧ Parted a ∧ Parted b := by
  rw [parted_iff, operands, List.forall_mem_cons, List.forall_mem_cons, List.forall_mem_singleton]
  exact and_iff_right fun h => by cases h

/-! Members. -/

/-- What a member's text starts with: the pointer where the base is what it points to. -/
def memberBase : Expr → Expr
  | dereference p _ => p
  | b => b

/-- What stands before the member's name. -/
def memberMark : Expr → String
  | dereference _ _ => "->"
  | _ => "."

theorem pieces_member_eq (b : Expr) : (member b f t).pieces .empty =
    Expr.fit 15 b.memberBase (b.memberBase.pieces .empty) ++ [.lexeme b.memberMark, .lexeme f] := by
  cases b <;> rfl

theorem memberBase_cases (b : Expr) :
    (∃ p s, b = dereference p s) ∨ b.memberBase = b ∧ b.memberMark = "." := by
  cases b with
  | dereference p s => exact .inl ⟨p, s, rfl⟩
  | _ => exact .inr ⟨rfl, rfl⟩

theorem sizeOf_memberBase_le (b : Expr) : sizeOf b.memberBase ≤ sizeOf b := by
  cases b with
  | dereference p s =>
    show sizeOf p ≤ sizeOf (dereference p s)
    simp only [dereference.sizeOf_spec]
    omega
  | _ => exact Nat.le_refl _

theorem Spelt.memberBase (h : Spelt b) : Spelt b.memberBase := by
  cases h with
  | dereference hx => exact hx
  | symbol hn => exact .symbol hn
  | int => exact .int
  | unary hx => exact .unary hx
  | binary hl hr => exact .binary hl hr
  | addressOf hx => exact .addressOf hx
  | index hb hi => exact .index hb hi
  | member hb hf => exact .member hb hf
  | conditional hc ha hb => exact .conditional hc ha hb

/-! What an operand starts with. -/

/-- A word, a numeral or a parenthesis. -/
def StartsOperand (cs : List Char) : Prop := ∃ d rest, cs = d :: rest ∧ (d = '(' ∨ isWordChar d)

theorem ne_mark_of_startsOperand {d : Char} (hd : d = '(' ∨ isWordChar d) :
    ∀ m ∈ ['=', '>', '-', '&'], d ≠ m := by
  rintro m hm rfl
  have hmarks : ∀ m ∈ ['=', '>', '-', '&'], m ≠ '(' ∧ ¬isWordChar m :=
    List.forall_iff_forall_mem.mp (by decide +kernel)
  obtain ⟨hopen, hword⟩ := hmarks d hm
  rcases hd with hd | hd
  · exact hopen hd
  · exact hword hd

theorem StartsOperand.append {cs : List Char} (h : StartsOperand cs) (ds : List Char) :
    StartsOperand (cs ++ ds) := by
  obtain ⟨d, rest, rfl, hd⟩ := h
  exact ⟨d, rest ++ ds, rfl, hd⟩

theorem startsOperand_fitChars {place : Nat} (h : place ≤ e.level → StartsOperand e.chars) :
    StartsOperand (e.fitChars place) := by
  unfold fitChars
  split
  · exact ⟨'(', _, rfl, .inl rfl⟩
  · exact h (by omega)

theorem startsOperand_repr (n : Nat) : StartsOperand n.repr.toList := by
  obtain ⟨d, rest, hchars, hd, -⟩ := exists_toList_repr n
  exact ⟨d, rest, hchars, .inr (isWordChar_of_isDigit hd)⟩

/-- So does what binds more tightly than prefix operators. -/
theorem Spelt.startsOperand : ∀ {e : Expr}, Spelt e → 15 ≤ e.level → StartsOperand e.chars
  | _, @Spelt.symbol n t hn, _ => by
    obtain ⟨d, rest, hname, hd, -⟩ := hn
    have hchars : (Expr.symbol n t).chars = n.toList := List.append_nil _
    exact ⟨d, rest, hchars.trans hname, .inr (isWordChar_of_isWordStart hd)⟩
  | _, @Spelt.int v t, hlevel => by
    by_cases hv : v < 0
    · simp [level, Literal.level, hv] at hlevel
    · have hchars : (literal (.int v) t).chars = v.natAbs.repr.toList := by
        simp [chars, pieces, Literal.pieces, hv, Piece.text]
      rw [hchars]
      exact startsOperand_repr _
  | _, .unary _, hlevel | _, .addressOf _, hlevel | _, .dereference _, hlevel =>
    absurd (show 15 ≤ 14 from hlevel) (by decide)
  | _, @Spelt.binary op _ _ _ _ _, hlevel => by
    have : op.precedence < 15 := by cases op <;> decide
    exact absurd hlevel (Nat.not_le.mpr this)
  | _, .conditional _ _ _, hlevel => absurd (show 15 ≤ 3 from hlevel) (by decide)
  | _, @Spelt.index b i t hb _, _ => by
    rw [chars_index]
    exact (startsOperand_fitChars hb.startsOperand).append _
  | _, @Spelt.member b f t hb _, _ => by
    have := sizeOf_memberBase_le b
    rw [chars, pieces_member_eq, charsOf_append, charsOf_fit]
    exact (startsOperand_fitChars hb.memberBase.startsOperand).append _
termination_by e => sizeOf e
decreasing_by all_goals simp_wf; omega

/-- The first character of a prefix operator's operand: a minus sign or an ampersand only where the
operand itself has that prefix. -/
def HasHead (e : Expr) (d : Char) : Prop :=
  d ∉ ['=', '>'] ∧ (d = '-' ↔ e.isNegated) ∧ (d = '&' ↔ e.isAddress)

theorem hasHead_of_startsOperand (h : StartsOperand (e.fitChars 14)) (hnegated : ¬e.isNegated)
    (haddress : ¬e.isAddress) : ∃ d rest, e.fitChars 14 = d :: rest ∧ HasHead e d := by
  obtain ⟨d, rest, hchars, hd⟩ := h
  have hno := ne_mark_of_startsOperand hd
  refine ⟨d, rest, hchars, ?_, iff_of_false (hno '-' (by decide)) hnegated,
    iff_of_false (hno '&' (by decide)) haddress⟩
  simp [hno '=' (by decide), hno '>' (by decide)]

theorem Spelt.exists_head (h : Spelt e) : ∃ d rest, e.fitChars 14 = d :: rest ∧ HasHead e d := by
  have htight (hlevel : 14 ≤ e.level → 15 ≤ e.level) : StartsOperand (e.fitChars 14) :=
    startsOperand_fitChars fun h14 => h.startsOperand (hlevel h14)
  cases h with
  | symbol | index | member =>
    exact hasHead_of_startsOperand (htight fun _ => by simp [level]) Bool.false_ne_true
      Bool.false_ne_true
  | conditional =>
    exact hasHead_of_startsOperand (htight fun h => absurd (show 14 ≤ 3 from h) (by decide))
      Bool.false_ne_true Bool.false_ne_true
  | @binary op =>
    have : op.precedence < 14 := by cases op <;> decide
    exact hasHead_of_startsOperand (htight fun h => absurd h (Nat.not_le.mpr this))
      Bool.false_ne_true Bool.false_ne_true
  | @int v t =>
    by_cases hv : v < 0
    · have hchars : (literal (.int v) t).fitChars 14 = '-' :: v.natAbs.repr.toList := by
        simp [fitChars, level, Literal.level, hv, chars, pieces, Literal.pieces, Piece.text]
      exact ⟨'-', _, hchars, by decide, iff_of_true rfl (decide_eq_true hv), by simp [isAddress]⟩
    · refine hasHead_of_startsOperand (htight fun _ => ?_) (by simpa [isNegated] using hv)
        Bool.false_ne_true
      simp [level, Literal.level, hv]
  | @addressOf x t =>
    exact ⟨'&', _, chars_addressOf (t := t), by decide, by simp [isNegated], by simp [isAddress]⟩
  | @dereference x t =>
    exact ⟨'*', _, chars_dereference (t := t), by decide, by simp [isNegated], by simp [isAddress]⟩
  | @unary op x t =>
    have haddress : ¬(Expr.unary op x t).isAddress := Bool.false_ne_true
    cases op with
    | not =>
      exact ⟨'!', _, chars_unary (t := t), by decide, by simp [isNegated], by simp [haddress]⟩
    | neg =>
      exact ⟨'-', _, chars_unary (t := t), by decide, by simp [isNegated], by simp [haddress]⟩
    | complement =>
      exact ⟨'~', _, chars_unary (t := t), by decide, by simp [isNegated], by simp [haddress]⟩

/-! Reading. -/

/-- What can follow an expression in its place: nothing, a space, the end of a bracket, and behind
what binds tightly enough also what takes up a postfix operand. -/
def CanFollow (place : Nat) (r : List Char) : Prop :=
  ∀ d, r.head? = some d → d ∈ [' ', ')', ']'] ∨ 15 ≤ place ∧ d ∈ ['[', '.', '-']

theorem CanFollow.behindOperand {place : Nat} {r : List Char} (h : CanFollow place r) :
    BehindOperand r := by
  intro d hd
  have := h d hd
  simp only [List.mem_cons, List.not_mem_nil, or_false] at this ⊢
  tauto

theorem CanFollow.mono {m n : Nat} {r : List Char} (h : CanFollow m r) (hmn : m ≤ n) :
    CanFollow n r :=
  fun d hd => (h d hd).imp_right fun htight => ⟨htight.1.trans hmn, htight.2⟩

theorem CanFollow.ne_point {place : Nat} {r : List Char} (h : CanFollow place r)
    (hplace : place < 15) : r.head? ≠ some '.' := by
  intro hpoint
  rcases h '.' hpoint with hmem | ⟨htight, -⟩
  · exact absurd hmem (by decide)
  · omega

theorem canFollow_nil (place : Nat) : CanFollow place [] := nofun

theorem canFollow_cons {place : Nat} {d : Char} {r : List Char}
    (h : d ∈ [' ', ')', ']'] ∨ 15 ≤ place ∧ d ∈ ['[', '.', '-']) : CanFollow place (d :: r) := by
  intro c hc
  cases hc
  exact h

/-- The text is read as it was written if no node joins two lexemes, the expression is no numeral
before a point, and what follows is read as it was written. -/
def Told (e : Expr) : Prop :=
  ∀ (lineStart : Bool) (ps : List Piece), CanFollow e.level (charsOf ps) →
    (Reads lineStart (e.pieces .empty ++ ps) ↔
      (Parted e ∧ ¬(e.isNumeral ∧ (charsOf ps).head? = some '.')) ∧ Reads false ps)

theorem level_of_isNumeral (h : e.isNumeral) : e.level = 16 := by
  unfold isNumeral at h
  split at h
  · exact if_neg (Int.not_lt.mpr (of_decide_eq_true h))
  · cases h

theorem Told.fit (h : Told e) {lineStart : Bool} {place : Nat}
    (hplace : place ≤ 15) (hfollow : CanFollow place (charsOf ps)) :
    Reads lineStart (Expr.fit place e (e.pieces .empty) ++ ps) ↔
      (Parted e ∧ ¬(e.isNumeral ∧ (charsOf ps).head? = some '.')) ∧ Reads false ps := by
  unfold Expr.fit
  split
  · -- In parentheses, which a numeral never needs.
    rename_i hlevel
    have hnumeral : ¬e.isNumeral := fun hnumeral => by
      have := level_of_isNumeral hnumeral
      omega
    have hinside : CanFollow e.level (charsOf (.lexeme ")" :: ps)) :=
      canFollow_cons (.inl (by decide))
    have hpieces : (.lexeme "(" :: e.pieces .empty ++ [.lexeme ")"]) ++ ps =
        .lexeme "(" :: (e.pieces .empty ++ .lexeme ")" :: ps) := by
      simp
    rw [hpieces, reads_bracket (c := '(') rfl (by decide), h _ _ hinside,
      reads_bracket (c := ')') rfl (by decide)]
    simp [hnumeral]
  · exact h _ _ (hfollow.mono (by omega))

/-- In a place that takes no postfix operand the text ends before no point. -/
theorem Told.fit_loose (h : Told e) {lineStart : Bool} {place : Nat} (hplace : place < 15)
    (hfollow : CanFollow place (charsOf ps)) :
    Reads lineStart (Expr.fit place e (e.pieces .empty) ++ ps) ↔ Parted e ∧ Reads false ps := by
  rw [h.fit hplace.le hfollow, and_iff_left fun hpoint => hfollow.ne_point hplace hpoint.2]

theorem told_symbol (hn : IsIdentifier n) : Told (symbol n t) := by
  intro lineStart ps hfollow
  show Reads lineStart (.lexeme n :: ps) ↔ _
  rw [reads_identifier hn hfollow.behindOperand]
  simp [parted_symbol, isNumeral]

theorem told_int {v : Int} : Told (literal (.int v) t) := by
  intro lineStart ps hfollow
  by_cases hv : v < 0
  · have hpieces : (literal (.int v) t).pieces .empty ++ ps =
        .lexeme "-" :: .lexeme v.natAbs.repr :: ps := by
      simp [pieces, Literal.pieces, hv]
    have hlevel : (literal (.int v) t).level = 14 := if_pos hv
    rw [hlevel] at hfollow
    obtain ⟨d, rest, hchars, hd⟩ := startsOperand_repr v.natAbs
    have hno := ne_mark_of_startsOperand hd
    have hps : charsOf (.lexeme v.natAbs.repr :: ps) = d :: (rest ++ charsOf ps) := by
      rw [charsOf_cons, Piece.text, hchars]
      rfl
    have hmark : d ∉ ['=', '>'] := by simp [hno '=' (by decide), hno '>' (by decide)]
    have hsingle : '-' ≠ d := fun h => hno '-' (by decide) h.symm
    rw [hpieces, reads_prefix (c := '-') rfl (by decide) hps hmark,
      reads_numeral _ hfollow.behindOperand]
    simp [hsingle, parted_int, hfollow.ne_point]
  · have hpieces : (literal (.int v) t).pieces .empty ++ ps = .lexeme v.natAbs.repr :: ps := by
      simp [pieces, Literal.pieces, hv]
    have hnumeral : (literal (.int v) t).isNumeral := decide_eq_true (Int.not_lt.mp hv)
    rw [hpieces, reads_numeral _ hfollow.behindOperand]
    simp [parted_int, hnumeral]

/-- A prefix operator is read as one if its operand does not start with the same mark. -/
theorem Told.prefixed (hx : Told x) (hspelt : Spelt x) {s : String} {m : Char}
    (hs : s.toList = [m]) (hm : m ∈ ['!', '~', '-', '&', '*']) (hlevel : e.level = 14)
    (hpieces : e.pieces .empty = .lexeme s :: Expr.fit 14 x (x.pieces .empty))
    (hnumeral : ¬e.isNumeral)
    (hparted : Parted e ↔ ¬(m = '-' ∧ x.isNegated ∨ m = '&' ∧ x.isAddress) ∧ Parted x) :
    Told e := by
  intro lineStart ps hfollow
  rw [hlevel] at hfollow
  obtain ⟨d, rest, hchars, hd, hminus, hampersand⟩ := hspelt.exists_head
  have hps : charsOf (Expr.fit 14 x (x.pieces .empty) ++ ps) = d :: (rest ++ charsOf ps) := by
    rw [charsOf_append, charsOf_fit, hchars]
    rfl
  have hdouble : m = d ∧ m ∈ ['-', '&'] ↔ m = '-' ∧ x.isNegated ∨ m = '&' ∧ x.isAddress := by
    rw [← hminus, ← hampersand]
    simp only [List.mem_cons, List.not_mem_nil, or_false]
    constructor
    · rintro ⟨rfl, rfl | rfl⟩
      · exact .inl ⟨rfl, rfl⟩
      · exact .inr ⟨rfl, rfl⟩
    · rintro (⟨rfl, rfl⟩ | ⟨rfl, rfl⟩)
      · exact ⟨rfl, .inl rfl⟩
      · exact ⟨rfl, .inr rfl⟩
  rw [hpieces, List.cons_append, reads_prefix hs hm hps hd, hdouble,
    hx.fit_loose (by decide) hfollow, hparted, ← and_assoc]
  simp [hnumeral]

theorem Told.unary {op : UnaryOp} (hx : Told x) (hspelt : Spelt x) : Told (unary op x t) := by
  have hparted (op : UnaryOp) :
      Parted (Expr.unary op x t) ↔ ¬(op = .neg ∧ x.isNegated) ∧ Parted x := parted_unary
  have hnumeral (op : UnaryOp) : ¬(Expr.unary op x t).isNumeral := Bool.false_ne_true
  cases op with
  | not =>
    exact hx.prefixed hspelt (m := '!') rfl (by decide) rfl rfl (hnumeral _) (by simp [hparted])
  | neg =>
    exact hx.prefixed hspelt (m := '-') rfl (by decide) rfl rfl (hnumeral _) (by simp [hparted])
  | complement =>
    exact hx.prefixed hspelt (m := '~') rfl (by decide) rfl rfl (hnumeral _) (by simp [hparted])

theorem Told.addressOf (hx : Told x) (hspelt : Spelt x) : Told (addressOf x t) :=
  have hnumeral : ¬(Expr.addressOf x t).isNumeral := Bool.false_ne_true
  hx.prefixed hspelt (m := '&') rfl (by decide) rfl rfl hnumeral (by simp [parted_addressOf])

theorem Told.dereference (hx : Told x) (hspelt : Spelt x) : Told (dereference x t) :=
  have hnumeral : ¬(Expr.dereference x t).isNumeral := Bool.false_ne_true
  hx.prefixed hspelt (m := '*') rfl (by decide) rfl rfl hnumeral (by simp [parted_dereference])

theorem Told.binary {op : BinaryOp} (hl : Told l) (hr : Told r) : Told (binary op l r t) := by
  intro lineStart ps hfollow
  have hop : op.precedence < 14 := by cases op <;> decide
  have hpieces : (Expr.binary op l r t).pieces .empty ++ ps =
      Expr.fit op.precedence l (l.pieces .empty) ++ (.gap :: .lexeme op.text :: .gap ::
        (Expr.fit (op.precedence + 1) r (r.pieces .empty) ++ ps)) := by
    simp [pieces]
  have hspace (qs : List Piece) : CanFollow op.precedence (charsOf (.gap :: qs)) :=
    canFollow_cons (.inl (by decide))
  have hbehind : CanFollow (op.precedence + 1) (charsOf ps) := hfollow.mono (Nat.le_succ _)
  have hnumeral : ¬(Expr.binary op l r t).isNumeral := Bool.false_ne_true
  rw [hpieces, hl.fit_loose (by omega) (hspace _), reads_gap, reads_operator,
    hr.fit_loose (by omega) hbehind, parted_binary]
  simp [hnumeral, and_assoc]

theorem Told.conditional (hc : Told c) (ha : Told a) (hb : Told b) :
    Told (conditional c a b t) := by
  intro lineStart ps hfollow
  have hpieces : (Expr.conditional c a b t).pieces .empty ++ ps =
      Expr.fit 4 c (c.pieces .empty) ++ (.gap :: .lexeme "?" :: .gap ::
        (Expr.fit 4 a (a.pieces .empty) ++ (.gap :: .lexeme ":" :: .gap ::
          (Expr.fit 3 b (b.pieces .empty) ++ ps)))) := by
    simp [pieces]
  have hspace (qs : List Piece) : CanFollow 4 (charsOf (.gap :: qs)) :=
    canFollow_cons (.inl (by decide))
  have hbehind : CanFollow 3 (charsOf ps) := hfollow
  have hnumeral : ¬(Expr.conditional c a b t).isNumeral := Bool.false_ne_true
  rw [hpieces, hc.fit_loose (by decide) (hspace _), reads_gap,
    reads_bracket (c := '?') rfl (by decide), reads_gap, ha.fit_loose (by decide) (hspace _),
    reads_gap, reads_bracket (c := ':') rfl (by decide), reads_gap,
    hb.fit_loose (by decide) hbehind, parted_conditional]
  simp [hnumeral, and_assoc]

theorem Told.index (hb : Told b) (hi : Told i) : Told (index b i t) := by
  intro lineStart ps hfollow
  have hpieces : (Expr.index b i t).pieces .empty ++ ps =
      Expr.fit 15 b (b.pieces .empty) ++ (.lexeme "[" ::
        (i.pieces .empty ++ (.lexeme "]" :: ps))) := by
    simp [pieces]
  have hopen (qs : List Piece) : CanFollow 15 (charsOf (.lexeme "[" :: qs)) :=
    canFollow_cons (.inr ⟨Nat.le_refl 15, by decide⟩)
  have hclose : CanFollow i.level (charsOf (.lexeme "]" :: ps)) :=
    canFollow_cons (.inl (by decide))
  have hnumeral : ¬(Expr.index b i t).isNumeral := Bool.false_ne_true
  have hheads (qs : List Piece) : (charsOf (.lexeme "[" :: qs)).head? = some '[' ∧
      (charsOf (.lexeme "]" :: qs)).head? = some ']' := ⟨rfl, rfl⟩
  rw [hpieces, hb.fit (Nat.le_refl 15) (hopen _), reads_bracket (c := '[') rfl (by decide),
    hi _ _ hclose, reads_bracket (c := ']') rfl (by decide), parted_index, (hheads _).1,
    (hheads _).2]
  simp [hnumeral, and_assoc]

/-- A point joins a numeral before it, an arrow joins nothing. -/
theorem Told.member (hb : Told b.memberBase) (hf : IsIdentifier f) : Told (member b f t) := by
  intro lineStart ps hfollow
  have hnumeral : ¬(Expr.member b f t).isNumeral := Bool.false_ne_true
  have hpieces : (Expr.member b f t).pieces .empty ++ ps =
      Expr.fit 15 b.memberBase (b.memberBase.pieces .empty) ++
        (.lexeme b.memberMark :: .lexeme f :: ps) := by
    rw [pieces_member_eq]
    simp
  rcases b.memberBase_cases with ⟨p, s, rfl⟩ | ⟨hbase, hmark⟩
  · -- The star of the base is not written, so the induction is on the pointer.
    have hp : Told p := hb
    have hhead : (charsOf (.lexeme "->" :: .lexeme f :: ps)).head? = some '-' := rfl
    have harrow : CanFollow 15 (charsOf (.lexeme "->" :: .lexeme f :: ps)) :=
      canFollow_cons (.inr ⟨Nat.le_refl 15, by decide⟩)
    have hbase : ¬(Expr.dereference p s).isNumeral := Bool.false_ne_true
    rw [hpieces]
    show Reads lineStart (Expr.fit 15 p (p.pieces .empty) ++ .lexeme "->" :: .lexeme f :: ps) ↔ _
    rw [hp.fit (Nat.le_refl 15) harrow, reads_arrow, reads_identifier hf hfollow.behindOperand,
      parted_member, parted_dereference, hhead]
    simp [hnumeral, hbase]
  · have hhead : (charsOf (.lexeme "." :: .lexeme f :: ps)).head? = some '.' := rfl
    have hpoint : CanFollow 15 (charsOf (.lexeme "." :: .lexeme f :: ps)) :=
      canFollow_cons (.inr ⟨Nat.le_refl 15, by decide⟩)
    rw [hbase] at hb
    rw [hpieces, hbase, hmark, hb.fit (Nat.le_refl 15) hpoint, reads_point hf,
      reads_identifier hf hfollow.behindOperand, parted_member, hhead]
    simp [hnumeral, and_comm]

theorem Spelt.told : ∀ {e : Expr}, Spelt e → Told e
  | _, .symbol hn => told_symbol hn
  | _, .int => told_int
  | _, .unary hx => hx.told.unary hx
  | _, .binary hl hr => hl.told.binary hr.told
  | _, .addressOf hx => hx.told.addressOf hx
  | _, .dereference hx => hx.told.dereference hx
  | _, .index hb hi => hb.told.index hi.told
  | _, @Spelt.member b _ _ hb hf =>
    have := sizeOf_memberBase_le b
    hb.memberBase.told.member hf
  | _, .conditional hc ha hb => hc.told.conditional ha.told hb.told
termination_by e => sizeOf e
decreasing_by all_goals simp_wf; omega

/-- The tokens of a printed expression are the lexemes that were written if and only if no node of
it joins two of them. -/
theorem tokenize_text_iff (h : Spelt e) :
    (tokenize (e.text .empty)).map Token.text = e.lexemes .empty ↔ ¬∃ x, Within x e ∧ Joins x := by
  have htold := h.told true [] (canFollow_nil _)
  rw [List.append_nil, charsOf_nil, Reads] at htold
  rw [tokenize, map_text_tokensFrom, toList_text]
  refine htold.trans ?_
  simp [reads_nil, Parted]

/-- Behind a complement a minus sign is a token of its own. -/
def complementOfMinus : Expr :=
  .binary .sub (.symbol "x" .int) (.unary .complement (.ofInt (-5) .int) .int) .int

theorem tokens_of_complementOfMinus :
    (tokenize (complementOfMinus.text .empty)).map Token.text = ["x", "-", "~", "-", "5"] := by
  have hx : IsIdentifier "x" := ⟨'x', [], rfl, by decide +kernel, nofun⟩
  have hspelt : Spelt complementOfMinus := .binary (.symbol hx) (.unary .int)
  refine ((tokenize_text_iff hspelt).mpr ?_).trans (by decide +kernel)
  rintro ⟨x, hwithin, hjoins⟩
  have hparted : Parted complementOfMinus :=
    parted_binary.mpr ⟨parted_symbol, parted_unary.mpr ⟨by decide, parted_int⟩⟩
  exact hparted x hwithin hjoins

/-- Two minus signs in a row read as a decrement. -/
theorem tokens_of_minusMinus :
    let e : Expr := .unary .neg (.unary .neg (.symbol "x" .int) .int) .int
    (tokenize (e.text .empty)).map Token.text = ["--", "x"] ∧
      e.lexemes .empty = ["-", "-", "x"] := by
  decide +kernel

end GotoCheck.Expr
