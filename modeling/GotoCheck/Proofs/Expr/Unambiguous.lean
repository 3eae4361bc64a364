import GotoCheck.Proofs.Expr.Reader
import GotoCheck.Proofs.Expr.Readable

/-! The text of an expression tells how it is built. Whatever has the same text is the same tree, so
parentheses stand wherever the tree would be another one without them. -/
namespace GotoCheck

namespace Reader

/-- The reader gets from one state to another. -/
def Runs : State → State → Prop := StateTransition.Reaches next

theorem Runs.step {s t : State} (h : next s = some t) : Runs s t := Relation.ReflTransGen.single h

instance : Trans Runs Runs Runs := ⟨Relation.ReflTransGen.trans⟩

/-- The reader finds an expression in its text, wherever the text of one of its level can stand. In
parentheses, it is not taken for a type. -/
structure Legible (e : Expr) : Prop where
  run : ∀ {K : List Pending} {rest : List Char}, Accepts K e.level → Follows e.level rest →
    Runs ⟨K, none, e.chars ++ rest⟩ ⟨K, some e.untyped, rest⟩
  noType : ∀ {rest : List Char}, (e.level = 16 → CType.startsText rest = false) →
    CType.startsText (e.chars ++ rest) = false

section
variable {K : List Pending} {rest : List Char} {e x l r b i c a : Expr} {t : CType} {f : String}
  {op : BinaryOp} {place : Nat}

theorem startsText_sign {sign : Char} (h : sign ∈ ['(', '!', '-', '~', '&', '*', '[', '.']) :
    CType.startsText (sign :: rest) = false := by
  simp only [List.mem_cons, List.not_mem_nil, or_false] at h
  rcases h with rfl | rfl | rfl | rfl | rfl | rfl | rfl | rfl <;> rfl

theorem Legible.fit (h : Legible e) (hplace : place ≤ 16) (haccepts : Accepts K place)
    (hfollows : Follows place rest) :
    Runs ⟨K, none, e.fitChars place ++ rest⟩ ⟨K, some e.untyped, rest⟩ := by
  unfold Expr.fitChars
  split
  · rename_i hlevel
    -- between the parentheses an expression of any level can stand
    have hopen : CType.startsText (e.chars ++ ')' :: rest) = false :=
      h.noType fun h16 => absurd hplace (by omega)
    have hclose : Sign.first? (')' :: rest) = some (.close, rest) := rfl
    rw [List.append_assoc, List.cons_append, List.singleton_append]
    calc Runs ⟨K, none, '(' :: (e.chars ++ ')' :: rest)⟩
          ⟨.group :: K, none, e.chars ++ ')' :: rest⟩ := .step (next_group hopen)
      Runs _ ⟨.group :: K, some e.untyped, ')' :: rest⟩ :=
        h.run trivial (.inr ⟨_, _, hclose, Nat.zero_le _⟩)
      Runs _ ⟨K, some e.untyped, rest⟩ :=
        .step (next_take hclose trivial rfl)
  · rename_i hlevel
    have hle : place ≤ e.level := Nat.not_lt.mp hlevel
    exact h.run (haccepts.mono hle) (hfollows.mono hle)

theorem Legible.noType_fit (h : Legible e) (hrest : CType.startsText rest = false) :
    CType.startsText (e.fitChars place ++ rest) = false := by
  unfold Expr.fitChars
  split
  · exact startsText_sign (by simp)
  · exact h.noType fun _ => hrest

theorem Legible.word {w : List Char} (hw : w ≠ []) (hword : ∀ c ∈ w, Source.isWordChar c)
    (hlevel : e.level = 16) (hchars : e.chars = w) (hread : ofWord w = e.untyped) : Legible e where
  run := by
    intro K rest _ hfollows
    rw [hchars, ← hread]
    exact .step (next_word hw hword (takeWhile_eq_nil_of_follows hfollows))
  noType := by
    intro rest hrest
    rw [hchars, CType.startsText, List.dropWhile_append_of_pos hword]
    exact hrest hlevel

theorem Legible.symbol {n : String} (hn : IsIdentifier n) (hconst : n ∉ ["TRUE", "FALSE", "NULL"]) :
    Legible (.symbol n t) := by
  have hword := hn.isWordChar
  obtain ⟨c, cs, hcs, hc, -⟩ := hn
  refine .word (w := n.toList) ?_ hword rfl ?_ ?_
  · rw [hcs]
    exact List.cons_ne_nil c cs
  · exact List.append_nil _
  · have hdigits : ¬n.toList.all Char.isDigit := by
      rw [hcs, List.all_cons, Bool.and_eq_true]
      exact fun h => not_isDigit_of_isWordStart hc h.1
    rw [ofWord, if_neg hdigits, String.ofList_toList]
    simp only [List.mem_cons, List.not_mem_nil, or_false, not_or] at hconst
    obtain ⟨htrue, hfalse, hnull⟩ := hconst
    split
    · exact absurd rfl htrue
    · exact absurd rfl hfalse
    · exact absurd rfl hnull
    · rfl

theorem Legible.int {v : Int} (hv : 0 ≤ v) : Legible (.literal (.int v) t) := by
  have hdigits : ∀ c ∈ v.natAbs.repr.toList, c.isDigit := fun _ => Text.isDigit_of_mem_repr
  refine .word (w := v.natAbs.repr.toList) ?_ (fun c hc => isWordChar_of_isDigit (hdigits c hc))
    ?_ ?_ ?_
  · rw [Nat.toList_repr]
    exact Nat.toDigits_ne_nil
  · exact if_neg (Int.not_lt.mpr hv)
  · simp [Expr.chars, Expr.pieces, Literal.pieces, Int.not_lt.mpr hv, Piece.text]
  · have hvalue : (Nat.ofDigitChars 10 v.natAbs.repr.toList 0 : Int) = v := by
      rw [Nat.toList_repr, Nat.ofDigitChars_toDigits (by decide) (by decide)]
      exact Int.natAbs_of_nonneg hv
    rw [ofWord, if_pos (List.all_eq_true.mpr hdigits), hvalue]
    rfl

/-- What stands before an operand and has one, be it one character or a type in parentheses. -/
theorem Legible.prefixed {g : Expr → Expr} (hx : Legible x) (start : List Char)
    (hstart : ∀ K cs, next ⟨K, none, start ++ cs⟩ = some ⟨.operator 14 g :: K, none, cs⟩)
    (hnoType : ∀ cs, CType.startsText (start ++ cs) = false) (hlevel : e.level = 14)
    (hchars : e.chars = start ++ x.fitChars 14) (huntyped : e.untyped = g x.untyped) :
    Legible e where
  run := by
    intro K rest _ hfollows
    rw [hlevel] at hfollows
    rw [hchars, huntyped, List.append_assoc]
    -- such operators group to the right, so one may be the operand of another
    have hplace : Accepts (.operator 14 g :: K) 14 := Nat.le_refl 14
    calc Runs ⟨K, none, start ++ (x.fitChars 14 ++ rest)⟩
          ⟨.operator 14 g :: K, none, x.fitChars 14 ++ rest⟩ := .step (hstart K _)
      Runs _ ⟨.operator 14 g :: K, some x.untyped, rest⟩ := hx.fit (by decide) hplace hfollows
      Runs _ ⟨K, some (g x.untyped), rest⟩ :=
        .step (next_complete (levelAhead_lt hfollows (.inr ⟨rfl, .inr rfl⟩)))
  noType := by
    intro rest _
    rw [hchars, List.append_assoc]
    exact hnoType _

theorem Legible.unary {g : Expr → Expr} (hx : Legible x) (sign : Char)
    (hsign : unaryOf? sign = some g) (hlevel : e.level = 14)
    (hchars : e.chars = sign :: x.fitChars 14) (huntyped : e.untyped = g x.untyped) :
    Legible e := by
  refine hx.prefixed [sign] (fun _ _ => next_unary hsign) (fun cs => ?_) hlevel hchars huntyped
  unfold unaryOf? at hsign
  split at hsign <;> first
    | cases hsign; done
    | exact startsText_sign (by simp)

theorem Legible.cast (hx : Legible x) (ht : t.IsCastTarget) : Legible (.cast x t) := by
  refine hx.prefixed (g := fun e => .cast e t) ('(' :: (t.text.toList ++ [')'])) (fun K cs => ?_)
    (fun cs => startsText_sign (by simp)) rfl ?_ rfl
  · rw [List.cons_append, List.append_assoc]
    exact next_cast ht
  · rw [Expr.chars_cast, List.cons_append, List.append_assoc]
    rfl

theorem first?_operator (op : BinaryOp) (cs : List Char) :
    Sign.first? (' ' :: (op.text.toList ++ ' ' :: cs)) = some (.operator op, cs) := by
  cases op <;> rfl

theorem startsText_operator (op : BinaryOp) (cs : List Char) :
    CType.startsText (' ' :: (op.text.toList ++ ' ' :: cs)) = false := by
  cases op <;> rfl

theorem Legible.binary (hl : Legible l) (hr : Legible r) : Legible (.binary op l r t) where
  run := by
    intro K rest haccepts hfollows
    have hprecedence : op.precedence + 1 ≤ 16 := by cases op <;> decide
    have hsign := first?_operator op (r.fitChars (op.precedence + 1) ++ rest)
    have hplace : Accepts (.operator (op.precedence + 1)
        (fun r => .binary op l.untyped r .void) :: K) (op.precedence + 1) := Nat.le_refl _
    rw [Expr.chars_binary]
    simp only [List.append_assoc, List.cons_append]
    -- what waits in `K` binds no more tightly than the operator, so `l` is left to it; behind `r`
    -- only signs of the same level or of a lower one can stand, and these complete it
    calc Runs ⟨K, none, l.fitChars op.precedence ++
            ' ' :: (op.text.toList ++ ' ' :: (r.fitChars (op.precedence + 1) ++ rest))⟩
          ⟨K, some l.untyped,
            ' ' :: (op.text.toList ++ ' ' :: (r.fitChars (op.precedence + 1) ++ rest))⟩ :=
        hl.fit (by omega) haccepts (.inr ⟨_, _, hsign, Nat.le_refl _⟩)
      Runs _ ⟨.operator (op.precedence + 1) (fun r => .binary op l.untyped r .void) :: K, none,
          r.fitChars (op.precedence + 1) ++ rest⟩ := .step (next_take hsign haccepts rfl)
      Runs _ ⟨.operator (op.precedence + 1) (fun r => .binary op l.untyped r .void) :: K,
          some r.untyped, rest⟩ :=
        hr.fit hprecedence hplace (hfollows.mono (Nat.le_succ _))
      Runs _ ⟨K, some (.binary op l.untyped r.untyped .void), rest⟩ :=
        .step (next_complete (levelAhead_lt hfollows (.inl rfl)))
  noType := by
    intro rest _
    rw [Expr.chars_binary, List.append_assoc]
    apply hl.noType_fit
    rw [List.cons_append, List.append_assoc, List.cons_append]
    exact startsText_operator op _

theorem Legible.index (hb : Legible b) (hi : Legible i) : Legible (.index b i t) where
  run := by
    intro K rest haccepts hfollows
    have hopen : Sign.first? ('[' :: (i.chars ++ ']' :: rest)) =
      some (.bracket, i.chars ++ ']' :: rest) := rfl
    have hclose : Sign.first? (']' :: rest) = some (.closeBracket, rest) := rfl
    rw [Expr.chars_index]
    simp only [List.append_assoc, List.cons_append, List.nil_append]
    calc Runs ⟨K, none, b.fitChars 15 ++ '[' :: (i.chars ++ ']' :: rest)⟩
          ⟨K, some b.untyped, '[' :: (i.chars ++ ']' :: rest)⟩ :=
        hb.fit (by decide) haccepts (.inr ⟨_, _, hopen, Nat.le_refl _⟩)
      Runs _ ⟨.position b.untyped :: K, none, i.chars ++ ']' :: rest⟩ :=
        .step (next_take hopen haccepts rfl)
      Runs _ ⟨.position b.untyped :: K, some i.untyped, ']' :: rest⟩ :=
        hi.run trivial (.inr ⟨_, _, hclose, Nat.zero_le _⟩)
      Runs _ ⟨K, some (.index b.untyped i.untyped .void), rest⟩ :=
        .step (next_take hclose trivial rfl)
  noType := by
    intro rest _
    rw [Expr.chars_index, List.append_assoc]
    apply hb.noType_fit
    exact startsText_sign (by simp)

/-- A sign with the name of a member is taken up together with the name. -/
theorem Legible.field (hx : Legible x) (sign : Sign) (signs : List Char)
    (hfirst : ∀ rest, Follows 15 rest →
      Sign.first? (signs ++ (f.toList ++ rest)) = some (sign, rest))
    (hsign : sign.place = 15 ∧ sign.level = 15)
    (htake : ∀ K, take? x.untyped K sign = some (K, some e.untyped))
    (hnoType : ∀ rest, CType.startsText (signs ++ rest) = false)
    (hlevel : e.level = 15) (hchars : e.chars = x.fitChars 15 ++ (signs ++ f.toList)) :
    Legible e where
  run := by
    intro K rest haccepts hfollows
    rw [hlevel] at haccepts hfollows
    rw [hchars, List.append_assoc, List.append_assoc]
    calc Runs ⟨K, none, x.fitChars 15 ++ (signs ++ (f.toList ++ rest))⟩
          ⟨K, some x.untyped, signs ++ (f.toList ++ rest)⟩ :=
        hx.fit (by decide) haccepts (.inr ⟨_, _, hfirst rest hfollows, hsign.1.le⟩)
      Runs _ ⟨K, some e.untyped, rest⟩ :=
        .step (next_take (hfirst rest hfollows) (haccepts.mono hsign.2.ge) (htake K))
  noType := by
    intro rest _
    rw [hchars, List.append_assoc, List.append_assoc]
    exact hx.noType_fit (hnoType _)

theorem Legible.arrow {s : CType} (hx : Legible x) (hf : IsIdentifier f) :
    Legible (.member (.dereference x s) f t) := by
  refine hx.field (f := f) (.arrow f) ['-', '>'] ?_ ⟨rfl, rfl⟩ (fun K => ?_)
    (fun rest => ?_) rfl Expr.chars_arrow
  · intro rest hrest
    obtain ⟨hname, hbehind⟩ := span_word hf.isWordChar (takeWhile_eq_nil_of_follows hrest)
    show some (Sign.arrow (String.ofList ((f.toList ++ rest).takeWhile Source.isWordChar)),
      (f.toList ++ rest).dropWhile Source.isWordChar) = _
    rw [hname, hbehind, String.ofList_toList]
  · cases K <;> rfl
  · exact startsText_sign (by simp)

theorem Legible.member (hb : Legible b) (hf : IsIdentifier f) (hnot : b.isDereference = false) :
    Legible (.member b f t) := by
  refine hb.field (f := f) (.member f) ['.'] ?_ ⟨rfl, rfl⟩ (fun K => ?_)
    (fun rest => ?_) rfl (Expr.chars_member hnot)
  · intro rest hrest
    obtain ⟨hname, hbehind⟩ := span_word hf.isWordChar (takeWhile_eq_nil_of_follows hrest)
    show some (Sign.member (String.ofList ((f.toList ++ rest).takeWhile Source.isWordChar)),
      (f.toList ++ rest).dropWhile Source.isWordChar) = _
    rw [hname, hbehind, String.ofList_toList]
  · cases K <;> rfl
  · exact startsText_sign (by simp)

theorem Legible.conditional (hc : Legible c) (ha : Legible a) (hb : Legible b) :
    Legible (.conditional c a b t) where
  run := by
    intro K rest haccepts hfollows
    have hquestion (cs : List Char) :
      Sign.first? (' ' :: '?' :: ' ' :: cs) = some (.question, cs) := rfl
    have hcolon (cs : List Char) : Sign.first? (' ' :: ':' :: ' ' :: cs) = some (.colon, cs) := rfl
    have hplace : Accepts (.operator 3
        (fun b => .conditional c.untyped a.untyped b .void) :: K) 3 := Nat.le_refl 3
    rw [Expr.chars_conditional]
    simp only [List.append_assoc, List.cons_append]
    -- a conditional may be the last operand of another, but not its test
    calc Runs ⟨K, none, c.fitChars 4 ++
            ' ' :: '?' :: ' ' :: (a.fitChars 4 ++ ' ' :: ':' :: ' ' :: (b.fitChars 3 ++ rest))⟩
          ⟨K, some c.untyped,
            ' ' :: '?' :: ' ' :: (a.fitChars 4 ++ ' ' :: ':' :: ' ' :: (b.fitChars 3 ++ rest))⟩ :=
        hc.fit (by decide) (haccepts.mono (Nat.le_succ 3)) (.inr ⟨_, _, hquestion _, Nat.le_refl 4⟩)
      Runs _ ⟨.test c.untyped :: K, none,
          a.fitChars 4 ++ ' ' :: ':' :: ' ' :: (b.fitChars 3 ++ rest)⟩ :=
        .step (next_take (hquestion _) haccepts rfl)
      Runs _ ⟨.test c.untyped :: K, some a.untyped, ' ' :: ':' :: ' ' :: (b.fitChars 3 ++ rest)⟩ :=
        ha.fit (by decide) trivial
          (.inr ⟨_, _, hcolon _, Nat.zero_le _⟩)
      Runs _ ⟨.operator 3 (fun b => .conditional c.untyped a.untyped b .void) :: K, none,
          b.fitChars 3 ++ rest⟩ :=
        .step (next_take (hcolon _) trivial rfl)
      Runs _ ⟨.operator 3 (fun b => .conditional c.untyped a.untyped b .void) :: K,
          some b.untyped, rest⟩ := hb.fit (by decide) hplace hfollows
      Runs _ ⟨K, some (.conditional c.untyped a.untyped b.untyped .void), rest⟩ :=
        .step (next_complete (levelAhead_lt hfollows (.inr ⟨rfl, .inl rfl⟩)))
  noType := by
    intro rest _
    rw [Expr.chars_conditional, List.append_assoc]
    apply hc.noType_fit
    rfl

end

end Reader

namespace Expr

theorem exists_of_isDereference {e : Expr} (h : e.isDereference) :
    ∃ p t, e = dereference p t := by
  cases e with
  | dereference p t => exact ⟨p, t, rfl⟩
  | _ => cases h

open Reader in
theorem Readable.legible {e : Expr} (h : e.Readable) : Legible e := by
  cases h with
  | symbol hn hconst => exact .symbol hn hconst
  | @bool b =>
    cases b
    · exact .word (w := ['F', 'A', 'L', 'S', 'E']) (by simp) (List.all_eq_true.mp rfl) rfl rfl rfl
    · exact .word (w := ['T', 'R', 'U', 'E']) (by simp) (List.all_eq_true.mp rfl) rfl rfl rfl
  | null => exact .word (w := ['N', 'U', 'L', 'L']) (by simp) (List.all_eq_true.mp rfl) rfl rfl rfl
  | int hv => exact .int hv
  | @unary op x t hx =>
    cases op with
    | not => exact hx.legible.unary '!' rfl rfl chars_unary rfl
    | neg => exact hx.legible.unary '-' rfl rfl chars_unary rfl
    | complement => exact hx.legible.unary '~' rfl rfl chars_unary rfl
  | addressOf hx => exact hx.legible.unary '&' rfl rfl chars_addressOf rfl
  | dereference hx => exact hx.legible.unary '*' rfl rfl chars_dereference rfl
  | binary hl hr => exact hl.legible.binary hr.legible
  | index hb hi => exact hb.legible.index hi.legible
  | conditional hc ha hb => exact hc.legible.conditional ha.legible hb.legible
  | cast hx ht => exact hx.legible.cast ht
  | @member b f t hb hf =>
    by_cases hderef : b.isDereference
    · obtain ⟨p, s, rfl⟩ := exists_of_isDereference hderef
      cases hb with
      | dereference hp => exact hp.legible.arrow hf
    · exact hb.legible.member hf (Bool.not_eq_true _ ▸ hderef)
termination_by sizeOf e

/-! Types of nodes do not show in the text. -/

theorem level_untyped (e : Expr) : e.untyped.level = e.level := by cases e <;> rfl

theorem fit_untyped {place : Nat} {e : Expr} {ps qs : List Piece} (h : ps = qs) :
    fit place e.untyped ps = fit place e qs := by
  rw [fit, fit, level_untyped, h]

theorem Readable.pieces_untyped {e : Expr} (h : e.Readable) :
    e.untyped.pieces .empty = e.pieces .empty := by
  cases h with
  | symbol | null | int => rfl
  | @bool b => cases b <;> rfl
  | unary hx | addressOf hx | dereference hx | cast hx =>
    simp only [untyped, pieces, fit_untyped hx.pieces_untyped]
  | binary hl hr =>
    simp only [untyped, pieces, fit_untyped hl.pieces_untyped, fit_untyped hr.pieces_untyped]
  | index hb hi =>
    simp only [untyped, pieces, fit_untyped hb.pieces_untyped, hi.pieces_untyped]
  | conditional hc ha hb =>
    simp only [untyped, pieces, fit_untyped hc.pieces_untyped, fit_untyped ha.pieces_untyped,
      fit_untyped hb.pieces_untyped]
  | @member b f t hb hf =>
    by_cases hderef : b.isDereference
    · obtain ⟨p, s, rfl⟩ := exists_of_isDereference hderef
      cases hb with
      | dereference hp => simp only [untyped, pieces, fit_untyped hp.pieces_untyped]
    · have hnot : b.isDereference = false := Bool.not_eq_true _ ▸ hderef
      have hnot' : b.untyped.isDereference = false := by rw [← hnot]; cases b <;> rfl
      rw [untyped, pieces_member hnot', pieces_member hnot, fit_untyped hb.pieces_untyped]
termination_by sizeOf e

/-- Readable expressions have the same text just when they are the same tree. -/
theorem text_eq_iff_untyped_eq {e f : Expr} (he : e.Readable) (hf : f.Readable) :
    e.text .empty = f.text .empty ↔ e.untyped = f.untyped := by
  have hread {x : Expr} (hx : x.Readable) :
      (⟨[], some x.untyped, []⟩ : Reader.State) ∈
        StateTransition.eval Reader.next ⟨[], none, x.chars⟩ := by
    have hrun : Reader.Runs ⟨[], none, x.chars ++ []⟩ ⟨[], some x.untyped, []⟩ :=
      hx.legible.run trivial (.inl rfl)
    rw [List.append_nil] at hrun
    exact StateTransition.mem_eval.mpr ⟨hrun, rfl⟩
  constructor
  · intro htext
    have hchars : e.chars = f.chars := by rw [← toList_text, htext, toList_text]
    have hsame := hread he
    rw [hchars] at hsame
    -- from one text the reader gets to one state only
    have hstate := Part.mem_unique hsame (hread hf)
    simpa using hstate
  · intro htree
    show Piece.join (e.pieces .empty) = Piece.join (f.pieces .empty)
    rw [← he.pieces_untyped, htree, hf.pieces_untyped]

/-- `p->next ? d : (unsigned int)*q` -/
def choice (d : Expr) : Expr :=
  conditional (member (dereference (symbol "p" .int) .int) "next" .int) d
    (cast (dereference (symbol "q" .int) .int) .uint) .int

theorem text_ne_of_grouping :
    let x := symbol "x" .int
    let y := symbol "y" .int
    let one := literal (.int 1) .int
    let toLeft := choice (binary .sub (binary .sub x y .int) one .int)
    let toRight := choice (binary .sub x (binary .sub y one .int) .int)
    toLeft.Readable ∧ toRight.Readable ∧ toLeft.text .empty ≠ toRight.text .empty := by
  intro x y one toLeft toRight
  have hsymbol {c : Char} (hc : Source.isWordStart c)
      (hconst : String.ofList [c] ∉ ["TRUE", "FALSE", "NULL"]) :
      (symbol (String.ofList [c]) .int).Readable :=
    .symbol ⟨c, [], String.toList_ofList, hc, by simp⟩ hconst
  have hx : x.Readable := hsymbol (c := 'x') (by decide +kernel) (by decide)
  have hy : y.Readable := hsymbol (c := 'y') (by decide +kernel) (by decide)
  have hone : one.Readable := .int (by decide)
  have hchoice {d : Expr} (hd : d.Readable) : (choice d).Readable := by
    refine .conditional (.member (.dereference (hsymbol (c := 'p') ?_ ?_)) ?_) hd
      (.cast (.dereference (hsymbol (c := 'q') ?_ ?_)) (.inr rfl))
    · decide +kernel
    · decide
    · exact ⟨'n', ['e', 'x', 't'], rfl, by decide +kernel, List.all_eq_true.mp rfl⟩
    · decide +kernel
    · decide
  have hleft : toLeft.Readable := hchoice (.binary (.binary hx hy) hone)
  have hright : toRight.Readable := hchoice (.binary hx (.binary hy hone))
  refine ⟨hleft, hright, fun htext => ?_⟩
  have htree := (text_eq_iff_untyped_eq hleft hright).mp htext
  simp [toLeft, toRight, choice, untyped, x] at htree

end Expr
end GotoCheck
