import Mathlib.Computability.StateTransition
import GotoCheck.Expr.Text
import GotoCheck.Proofs.Expr.TypeText

/-! A reader of printed expressions. It goes through the text once, one sign or word at each step,
and keeps what waits for the operand that is being read. A sign first completes all that binds more
tightly than what the sign makes. -/
namespace GotoCheck

namespace Reader

/-- What waits for an operand, the innermost first. -/
inductive Pending
  /-- An operator whose last operand has at least the level `place`. -/
  | operator (place : Nat) (complete : Expr → Expr)
  | group
  | position (base : Expr)
  | test (condition : Expr)

/-- What can stand behind an operand. -/
inductive Sign
  | operator (op : BinaryOp)
  | question
  | colon
  | close
  | bracket
  | closeBracket
  | member (field : String)
  | arrow (field : String)

namespace Sign

/-- The level of what the sign makes of the operand before it; none for a sign that ends one. -/
def level : Sign → Nat
  | operator op => op.precedence
  | question => 3
  | bracket | member _ | arrow _ => 15
  | colon | close | closeBracket => 0

/-- The least level that the operand before the sign has. -/
def place : Sign → Nat
  | question => 4
  | s => s.level

def ofWord? : String → Option Sign
  | "?" => some question
  | ":" => some colon
  | s => (BinaryOp.ofText? s).map operator

/-- The sign at the start of a text, and the text behind it. -/
def first? : List Char → Option (Sign × List Char)
  | ')' :: rest => some (close, rest)
  | '[' :: rest => some (bracket, rest)
  | ']' :: rest => some (closeBracket, rest)
  | '.' :: rest =>
    some (member (String.ofList (rest.takeWhile Source.isWordChar)),
      rest.dropWhile Source.isWordChar)
  | '-' :: '>' :: rest =>
    some (arrow (String.ofList (rest.takeWhile Source.isWordChar)),
      rest.dropWhile Source.isWordChar)
  | ' ' :: rest =>
    (ofWord? (String.ofList (rest.takeWhile (· != ' ')))).map fun s =>
      (s, (rest.dropWhile (· != ' ')).tail)
  | _ => none

end Sign

/-- What waits, the operand that was just read, and the text behind. -/
structure State where
  pending : List Pending
  value : Option Expr := none
  rest : List Char

/-- The operators of one character before an operand. -/
def unaryOf? : Char → Option (Expr → Expr)
  | '!' => some fun e => .unary .not e .void
  | '-' => some fun e => .unary .neg e .void
  | '~' => some fun e => .unary .complement e .void
  | '&' => some fun e => .addressOf e .void
  | '*' => some fun e => .dereference e .void
  | _ => none

/-- A numeral, a constant or the name of a symbol. -/
def ofWord (cs : List Char) : Expr :=
  if cs.all Char.isDigit then .literal (.int (Nat.ofDigitChars 10 cs 0)) .void
  else
    match String.ofList cs with
    | "TRUE" => .literal (.bool true) .void
    | "FALSE" => .literal (.bool false) .void
    | "NULL" => .literal .null .void
    | name => .symbol name .void

/-- Goes on where an operand begins. -/
def startOperand (pending : List Pending) : List Char → Option State
  | '(' :: rest =>
    if CType.startsText rest then
      (CType.ofText? (rest.takeWhile (· != ')'))).map fun t =>
        { pending := .operator 14 (fun e => .cast e t) :: pending
          rest := (rest.dropWhile (· != ')')).tail }
    else some { pending := .group :: pending, rest }
  | cs =>
    match cs.head?.bind unaryOf? with
    | some f => some { pending := .operator 14 f :: pending, rest := cs.tail }
    | none =>
      if cs.takeWhile Source.isWordChar = [] then none
      else some
        { pending
          value := some (ofWord (cs.takeWhile Source.isWordChar))
          rest := cs.dropWhile Source.isWordChar }

/-- Completes the innermost operator if what comes next, of a level `n`, cannot be part of its
operand. -/
def complete? (n : Nat) (e : Expr) : List Pending → Option (List Pending × Expr)
  | .operator place f :: pending => if n < place then some (pending, f e) else none
  | _ => none

/-- Takes up a sign behind the operand `e`. -/
def take? (e : Expr) : List Pending → Sign → Option (List Pending × Option Expr)
  | pending, .operator op =>
    some (.operator (op.precedence + 1) (fun r => .binary op e r .void) :: pending, none)
  | pending, .question => some (.test e :: pending, none)
  | .test c :: pending, .colon =>
    some (.operator 3 (fun b => .conditional c e b .void) :: pending, none)
  | .group :: pending, .close => some (pending, some e)
  | pending, .bracket => some (.position e :: pending, none)
  | .position b :: pending, .closeBracket => some (pending, some (.index b e .void))
  | pending, .member f => some (pending, some (.member e f .void))
  | pending, .arrow f => some (pending, some (.member (.dereference e .void) f .void))
  | _, _ => none

/-- The level of what a text makes of an operand before it. -/
def levelAhead (cs : List Char) : Nat := ((Sign.first? cs).map fun s => s.1.level).getD 0

def next (s : State) : Option State :=
  match s.value with
  | none => startOperand s.pending s.rest
  | some e =>
    match complete? (levelAhead s.rest) e s.pending with
    | some (pending, e) => some { pending, value := some e, rest := s.rest }
    | none =>
      (Sign.first? s.rest).bind fun (sign, rest) =>
        (take? e s.pending sign).map fun (pending, value) => { pending, value, rest }

/-! Signs. -/

/-- The text behind an operand of level `n` starts with a sign that takes such an operand, if it is
not at its end. -/
def Follows (n : Nat) (cs : List Char) : Prop :=
  cs = [] ∨ ∃ s rest, Sign.first? cs = some (s, rest) ∧ s.place ≤ n

theorem Follows.mono {m n : Nat} {cs : List Char} (h : Follows m cs) (hmn : m ≤ n) :
    Follows n cs := by
  rcases h with hnil | ⟨s, rest, hfirst, hplace⟩
  · exact .inl hnil
  · exact .inr ⟨s, rest, hfirst, hplace.trans hmn⟩

theorem isWordChar_signs : ∀ c ∈ [')', '[', ']', '.', '-', ' ', '(', '!', '~', '&', '*'],
    Source.isWordChar c = false := by
  intro c hc
  have hall : [')', '[', ']', '.', '-', ' ', '(', '!', '~', '&', '*'].all
      fun c => !Source.isWordChar c := by rfl
  rw [← Bool.not_eq_true']
  exact List.all_eq_true.mp hall c hc

theorem takeWhile_eq_nil_of_follows {n : Nat} {cs : List Char} (h : Follows n cs) :
    cs.takeWhile Source.isWordChar = [] := by
  rcases h with rfl | ⟨s, rest, hfirst, -⟩
  · rfl
  · unfold Sign.first? at hfirst
    split at hfirst <;> first
      | cases hfirst; done
      | rw [List.takeWhile_cons, isWordChar_signs _ (by simp)]; rfl

/-- Behind an operator's last operand the operator is complete. -/
theorem levelAhead_lt {n place : Nat} {cs : List Char} (h : Follows n cs)
    (hplace : place = n + 1 ∨ place = n ∧ (n = 3 ∨ n = 14)) : levelAhead cs < place := by
  rcases h with rfl | ⟨s, rest, hfirst, hs⟩
  · show 0 < place
    omega
  · have hahead : levelAhead cs = s.level := by rw [levelAhead, hfirst]; rfl
    rw [hahead]
    cases s with
    | operator op =>
      have hop : 4 ≤ op.precedence ∧ op.precedence ≤ 13 := by cases op <;> decide
      have hs : op.precedence ≤ n := hs
      show op.precedence < place
      omega
    | question => have hs : 4 ≤ n := hs; show 3 < place; omega
    | bracket | member _ | arrow _ => have hs : 15 ≤ n := hs; show 15 < place; omega
    | colon | close | closeBracket => show 0 < place; omega

/-! Steps. -/

/-- An operand of level `n` need not be in parentheses. -/
def Accepts : List Pending → Nat → Prop
  | .operator place _ :: _, n => place ≤ n
  | _, _ => True

variable {K : List Pending} {e : Expr} {cs rest : List Char}

theorem Accepts.mono {m n : Nat} (h : Accepts K m) (hmn : m ≤ n) : Accepts K n := by
  unfold Accepts at h ⊢
  split at h
  · exact h.trans hmn
  · trivial

theorem span_word {w : List Char} (hw : ∀ c ∈ w, Source.isWordChar c)
    (hrest : rest.takeWhile Source.isWordChar = []) :
    (w ++ rest).takeWhile Source.isWordChar = w ∧
      (w ++ rest).dropWhile Source.isWordChar = rest := by
  have hsplit := List.takeWhile_append_dropWhile (p := Source.isWordChar) (l := rest)
  rw [hrest, List.nil_append] at hsplit
  constructor
  · rw [List.takeWhile_append_of_pos hw, hrest, List.append_nil]
  · rw [List.dropWhile_append_of_pos hw, hsplit]

theorem unaryOf?_eq_none {c : Char} (h : Source.isWordChar c) : unaryOf? c = none := by
  unfold unaryOf?
  split <;> first
    | rfl
    | rw [isWordChar_signs _ (by simp)] at h; cases h

theorem next_word {w : List Char} (hw : w ≠ []) (hchars : ∀ c ∈ w, Source.isWordChar c)
    (hrest : rest.takeWhile Source.isWordChar = []) :
    next ⟨K, none, w ++ rest⟩ = some ⟨K, some (ofWord w), rest⟩ := by
  obtain ⟨c, w, rfl⟩ := List.exists_cons_of_ne_nil hw
  have hc : Source.isWordChar c := hchars c List.mem_cons_self
  obtain ⟨hword, hbehind⟩ := span_word hchars hrest
  have hunary : (c :: w ++ rest).head?.bind unaryOf? = none := unaryOf?_eq_none hc
  show startOperand K (c :: w ++ rest) = _
  unfold startOperand
  split
  · rename_i heq
    obtain ⟨rfl, -⟩ := List.cons.inj heq
    rw [isWordChar_signs _ (by simp)] at hc
    cases hc
  · simp only [hunary, hword, hbehind, List.cons_ne_nil, if_false]

theorem next_unary {c : Char} {f : Expr → Expr} (h : unaryOf? c = some f) :
    next ⟨K, none, c :: cs⟩ = some ⟨.operator 14 f :: K, none, cs⟩ := by
  show startOperand K (c :: cs) = _
  unfold startOperand
  split
  · rename_i heq
    obtain ⟨rfl, -⟩ := List.cons.inj heq
    cases h
  · simp only [List.head?_cons, Option.bind_some, h, List.tail_cons]

theorem next_group (h : CType.startsText cs = false) :
    next ⟨K, none, '(' :: cs⟩ = some ⟨.group :: K, none, cs⟩ := by
  show startOperand K ('(' :: cs) = _
  rw [startOperand, h]
  rfl

theorem next_cast {t : CType} (h : t.IsCastTarget) :
    next ⟨K, none, '(' :: (t.text.toList ++ ')' :: rest)⟩ =
      some ⟨.operator 14 (fun e => .cast e t) :: K, none, rest⟩ := by
  have hinside : ∀ c ∈ t.text.toList, (c != ')') = true := by
    intro c hc
    rw [bne_iff_ne]
    rintro rfl
    exact CType.close_notMem_text h hc
  have htext : (t.text.toList ++ ')' :: rest).takeWhile (· != ')') = t.text.toList := by
    rw [List.takeWhile_append_of_pos hinside, List.takeWhile_cons_of_neg (by decide),
      List.append_nil]
  have hbehind : (t.text.toList ++ ')' :: rest).dropWhile (· != ')') = ')' :: rest := by
    rw [List.dropWhile_append_of_pos hinside, List.dropWhile_cons_of_neg (by decide)]
  show startOperand K ('(' :: (t.text.toList ++ ')' :: rest)) = _
  rw [startOperand, if_pos (CType.startsText_text h rest), htext, hbehind, CType.ofText?_text h]
  rfl

theorem next_complete {place : Nat} {f : Expr → Expr} (h : levelAhead rest < place) :
    next ⟨.operator place f :: K, some e, rest⟩ = some ⟨K, some (f e), rest⟩ := by
  simp only [next, complete?, if_pos h]

theorem complete?_eq_none {n : Nat} (h : Accepts K n) : complete? n e K = none := by
  unfold complete?
  split
  · rename_i place f rest
    exact if_neg (Nat.not_lt.mpr h)
  · rfl

theorem next_take {s : Sign} {K' : List Pending} {v : Option Expr}
    (hfirst : Sign.first? cs = some (s, rest)) (haccepts : Accepts K s.level)
    (htake : take? e K s = some (K', v)) :
    next ⟨K, some e, cs⟩ = some ⟨K', v, rest⟩ := by
  have hahead : levelAhead cs = s.level := by rw [levelAhead, hfirst]; rfl
  have hcomplete : complete? (levelAhead cs) e K = none := by
    rw [hahead]
    exact complete?_eq_none haccepts
  simp only [next, hcomplete, hfirst, Option.bind_some, htake, Option.map_some]

end Reader
end GotoCheck
