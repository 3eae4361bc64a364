import Mathlib.Data.List.Basic
import GotoCheck.Proofs.Expr.Readable
import GotoCheck.Proofs.Source.Segments

/-! Printed lexemes as tokens. Each kind of lexeme is a token of its own before certain characters,
and a text reads as its lexemes if each of them is one before what follows it. -/
namespace GotoCheck.Source

/-! The tokens of a text without their lines. -/

/-- The texts of the tokens among some segments. -/
def textsOf (parts : List Segment) : List String :=
  (parts.filter Segment.isToken).map fun s => String.ofList s.chars

theorem map_text_tokensFrom (line : Nat) (parts : List Segment) :
    (tokensFrom line parts).map Token.text = textsOf parts := by
  induction parts generalizing line with
  | nil => rfl
  | cons s parts ih =>
    rw [tokensFrom, textsOf, List.filter_cons]
    split
    · rw [List.map_cons, ih, List.map_cons]
      rfl
    · rw [ih]
      rfl

/-- What is written are the tokens that are read. -/
def Reads (lineStart : Bool) (ps : List Piece) : Prop :=
  textsOf (segments lineStart (Expr.charsOf ps)) = ps.filterMap Piece.lexeme?

variable {lineStart : Bool} {ps : List Piece} {s : String} {c d : Char} {cs rest : List Char}

theorem reads_nil (lineStart : Bool) : Reads lineStart [] := by
  rw [Reads, Expr.charsOf_nil, segments]
  rfl

theorem reads_gap : Reads lineStart (.gap :: ps) ↔ Reads lineStart ps := by
  have hblank : Text.isBlank ' ' := by decide
  have hsegments : segments lineStart (' ' :: Expr.charsOf ps) =
      .skipped [' '] :: segments lineStart (Expr.charsOf ps) := by
    rw [segments_of_skip (skipExtent?_of_isBlank hblank)]
    simp
  show textsOf (segments lineStart (' ' :: Expr.charsOf ps)) = _ ↔ _
  rw [hsegments]
  rfl

/-- A lexeme is read as one if the token that starts with it ends with it. -/
theorem reads_lexeme (hs : s.toList = c :: cs)
    (hskip : skipExtent? lineStart c (cs ++ Expr.charsOf ps) = none) :
    Reads lineStart (.lexeme s :: ps) ↔
      tokenExtent c (cs ++ Expr.charsOf ps) = cs.length ∧ Reads false ps := by
  have hchars : Expr.charsOf (.lexeme s :: ps) = c :: (cs ++ Expr.charsOf ps) := by
    rw [Expr.charsOf_cons, Piece.text, hs]
    rfl
  have hle := tokenExtent_le c (cs ++ Expr.charsOf ps)
  rw [Reads, hchars, segments_of_token hskip]
  generalize tokenExtent c (cs ++ Expr.charsOf ps) = n at hle
  show String.ofList (c :: (cs ++ Expr.charsOf ps).take n) ::
      textsOf (segments false ((cs ++ Expr.charsOf ps).drop n)) =
    s :: ps.filterMap Piece.lexeme? ↔ _
  rw [List.cons.injEq]
  constructor
  · -- The token has the lexeme's text, and so its length.
    rintro ⟨htext, hrest⟩
    have htake : (cs ++ Expr.charsOf ps).take n = cs := by
      have h := congrArg String.toList htext
      rw [String.toList_ofList, hs] at h
      exact (List.cons.inj h).2
    have hn : n = cs.length := by
      have h := congrArg List.length htake
      rw [List.length_take, Nat.min_eq_left hle] at h
      exact h
    rw [hn, List.drop_left] at hrest
    exact ⟨hn, hrest⟩
  · rintro ⟨hn, hrest⟩
    rw [hn, List.take_left, List.drop_left, ← hs, String.ofList_toList]
    exact ⟨rfl, hrest⟩

/-! Where tokens start. -/

/-- No blank, and none of the marks that can start a part without tokens. -/
def StartsToken (c : Char) : Prop := Text.isBlank c = false ∧ c ∉ ['#', '\\', '/']

instance : DecidablePred StartsToken := fun _ => inferInstanceAs (Decidable (_ ∧ _))

theorem StartsToken.skip (h : StartsToken c) (rest : List Char) :
    skipExtent? lineStart c rest = none := by
  obtain ⟨hblank, hmark⟩ := h
  simp only [List.mem_cons, List.not_mem_nil, or_false, not_or] at hmark
  obtain ⟨hdirective, hcontinued, hcomment⟩ := hmark
  exact skipExtent?_eq_none_iff.mpr
    ⟨hblank, fun hc => absurd hc hdirective, fun hc => absurd hc hcontinued,
      fun hc => absurd hc hcomment⟩

/-- Two boundaries hold the code points between them; above both, later ones decide. -/
theorem within_pair (a b : Nat) (bounds : List Nat) (n : Nat) :
    Text.within (a :: b :: bounds) n =
      if n < a then false else if n < b then true else Text.within bounds n := by
  unfold Text.within
  by_cases ha : n < a
  · rw [List.takeWhile_cons_of_neg (by simpa using ha), if_pos ha]
    rfl
  by_cases hb : n < b
  · rw [List.takeWhile_cons_of_pos (by simpa using ha),
      List.takeWhile_cons_of_neg (by simpa using hb), if_neg ha, if_pos hb]
    rfl
  · rw [List.takeWhile_cons_of_pos (by simpa using ha),
      List.takeWhile_cons_of_pos (by simpa using hb), if_neg ha, if_neg hb, List.length_cons,
      List.length_cons, Nat.add_assoc, Nat.add_mod_right]

/-- All blanks there are. -/
def blanks : List Nat := [
  0x9, 0xa, 0xb, 0xc, 0xd, 0x20, 0x85, 0xa0, 0x1680, 0x2000, 0x2001, 0x2002, 0x2003, 0x2004, 0x2005,
  0x2006, 0x2007, 0x2008, 0x2009, 0x200a, 0x2028, 0x2029, 0x202f, 0x205f, 0x3000]

theorem mem_blanks (h : Text.isBlank c) : c.toNat ∈ blanks := by
  have hnil (n : Nat) : Text.within [] n = false := rfl
  -- The table of bounds turns into a disjunction of intervals, each of a few code points.
  unfold Text.isBlank Text.blankBounds at h
  generalize c.toNat = n at h
  simp only [within_pair, hnil, Bool.if_true_left, Bool.if_false_left, Bool.and_eq_true,
    Bool.or_eq_true, Bool.not_eq_true', decide_eq_true_eq, decide_eq_false_iff_not,
    Bool.false_eq_true, or_false] at h
  simp only [blanks, List.mem_cons, List.not_mem_nil, or_false]
  omega

theorem not_isWordChar_blanks : ∀ n ∈ blanks, ¬isWordChar (Char.ofNat n) := by
  decide +kernel

theorem startsToken_of_isWordChar (h : isWordChar c) : StartsToken c := by
  refine ⟨?_, fun hmem => ?_⟩
  · rw [← Bool.not_eq_true]
    intro hblank
    have hno := not_isWordChar_blanks c.toNat (mem_blanks hblank)
    rw [Char.ofNat_toNat] at hno
    exact hno h
  · have hmarks : ∀ m ∈ ['#', '\\', '/'], ¬isWordChar m :=
      List.any_eq_false.mp (by decide +kernel)
    exact hmarks c hmem h

/-! Words and numerals. -/

/-- Behind an operand: nothing, a space, or a mark that ends the operand or takes it up. -/
def BehindOperand (r : List Char) : Prop :=
  ∀ d, r.head? = some d → d ∈ [' ', ')', ']', '[', '.', '-']

theorem tokenExtent_word (hc : isWordStart c) (rest : List Char) :
    tokenExtent c rest = wordExtent c rest := by
  have hno : ∀ m ∈ ['"', '\'', '.'], ¬isWordStart m := List.any_eq_false.mp (by decide +kernel)
  have hne (m : Char) (hm : m ∈ ['"', '\'', '.']) : c ≠ m := by
    rintro rfl
    exact hno c hm hc
  have hquote : ¬isQuote c := by
    simp [isQuote, hne '"' (by decide), hne '\'' (by decide)]
  have hnumber : ¬startsNumber c rest := by
    simp [startsNumber, not_isDigit_of_isWordStart hc, hne '.' (by decide)]
  rw [tokenExtent, if_neg hquote, if_neg hnumber, if_pos hc]

theorem reads_identifier (hs : IsIdentifier s) (hps : BehindOperand (Expr.charsOf ps)) :
    Reads lineStart (.lexeme s :: ps) ↔ Reads false ps := by
  obtain ⟨c, cs, hchars, hc, hcs⟩ := hs
  have hstart := startsToken_of_isWordChar (isWordChar_of_isWordStart hc)
  have hbehind : ∀ d, (Expr.charsOf ps).head? = some d → isWordChar d = false := by
    have hmarks : ∀ d ∈ [' ', ')', ']', '[', '.', '-'], isWordChar d = false :=
      List.forall_iff_forall_mem.mp (by decide +kernel)
    exact fun d hd => hmarks d (hps d hd)
  -- A word like `L` goes on with a literal, but only before a quote.
  have hliteral : literalExtent (c :: cs) (Expr.charsOf ps) = 0 := by
    have hquotes : ∀ d ∈ [' ', ')', ']', '[', '.', '-'], ¬isQuote d := by simp [isQuote]
    unfold literalExtent
    split
    · rename_i quote rest heq
      exact if_neg fun h => hquotes quote (hps quote (by rw [heq]; rfl)) h.2
    · rfl
  have hextent : tokenExtent c (cs ++ Expr.charsOf ps) = cs.length := by
    rw [tokenExtent_word hc, wordExtent_append hcs hbehind, hliteral, Nat.add_zero]
  rw [reads_lexeme hchars (hstart.skip _)]
  exact and_iff_right hextent

theorem numberExtent_digits (hcs : ∀ c ∈ cs, c.isDigit) (rest : List Char) :
    numberExtent (cs ++ rest) = cs.length + numberExtent rest := by
  induction cs with
  | nil => rw [List.nil_append, List.length_nil, Nat.zero_add]
  | cons c cs ih =>
    obtain ⟨hc, hcs⟩ := List.forall_mem_cons.mp hcs
    have hmark : isExponentMark c = false := by
      have hletters : ∀ m ∈ ['e', 'E', 'p', 'P'], ¬m.isDigit := List.any_eq_false.mp (by decide)
      rw [← Bool.not_eq_true]
      intro hmem
      exact hletters c (by simpa [isExponentMark] using hmem) hc
    have hnumber : isNumberChar c := by simp [isNumberChar, Char.isAlphanum, hc]
    rw [List.cons_append, numberExtent_cons, hmark, Bool.false_and, if_neg Bool.false_ne_true,
      if_pos hnumber, ih hcs, List.length_cons]
    omega

/-- Behind an operand only a point goes on a number. -/
theorem numberExtent_behindOperand {r : List Char} (hr : BehindOperand r) :
    numberExtent r = 0 ↔ r.head? ≠ some '.' := by
  cases r with
  | nil => simp [numberExtent]
  | cons d r =>
    have hmarks : ∀ d ∈ [' ', ')', ']', '[', '.', '-'],
        (isNumberChar d ↔ d = '.') ∧ ¬isExponentMark d :=
      List.forall_iff_forall_mem.mp (by decide)
    obtain ⟨hnumber, hmark⟩ := hmarks d (hr d rfl)
    rw [numberExtent_cons, if_neg (by simp [hmark]), List.head?_cons, Ne, Option.some_inj,
      ← hnumber]
    split
    · simp_all
    · simp_all

theorem exists_toList_repr (n : Nat) :
    ∃ c cs, n.repr.toList = c :: cs ∧ c.isDigit ∧ ∀ d ∈ cs, d.isDigit := by
  have hdigits : ∀ c ∈ n.repr.toList, c.isDigit := fun _ => Text.isDigit_of_mem_repr
  cases hchars : n.repr.toList with
  | nil =>
    rw [Nat.toList_repr] at hchars
    exact absurd hchars Nat.toDigits_ne_nil
  | cons c cs =>
    rw [hchars] at hdigits
    exact ⟨c, cs, rfl, List.forall_mem_cons.mp hdigits⟩

theorem reads_numeral (n : Nat) (hps : BehindOperand (Expr.charsOf ps)) :
    Reads lineStart (.lexeme n.repr :: ps) ↔
      (Expr.charsOf ps).head? ≠ some '.' ∧ Reads false ps := by
  obtain ⟨c, cs, hchars, hc, hcs⟩ := exists_toList_repr n
  have hquote : ¬isQuote c := by
    have hquotes : ∀ m ∈ ['"', '\''], ¬m.isDigit := List.any_eq_false.mp (by decide)
    intro h
    exact hquotes c (by simpa [isQuote] using h) hc
  have hextent : tokenExtent c (cs ++ Expr.charsOf ps) =
      cs.length + numberExtent (Expr.charsOf ps) := by
    have hnumber : startsNumber c (cs ++ Expr.charsOf ps) := by simp [startsNumber, hc]
    rw [tokenExtent, if_neg hquote, if_pos hnumber, numberExtent_digits hcs]
  have hstart := startsToken_of_isWordChar (isWordChar_of_isDigit hc)
  rw [reads_lexeme hchars (hstart.skip _), hextent, ← numberExtent_behindOperand hps]
  simp

/-! Punctuators. -/

theorem exists_toList_punctuator {p : String} (hp : p ∈ punctuators) :
    ∃ x y t, p.toList = x :: y :: t := by
  have hlong : ∀ p ∈ punctuators, 2 ≤ p.toList.length := by decide
  have h := hlong p hp
  match htext : p.toList with
  | [] | [_] =>
    rw [htext] at h
    exact absurd h (by simp)
  | x :: y :: t => exact ⟨x, y, t, rfl⟩

theorem punctuatorExtent_eq_zero_iff : punctuatorExtent c rest = 0 ↔
    ∀ p ∈ punctuators, ¬p.toList <+: c :: rest := by
  have hlong : ∀ p ∈ punctuators, 2 ≤ p.length := by decide
  rw [punctuatorExtent_eq]
  cases hp : punctuators.find? (isPunctuatorOf (c :: rest)) with
  | none =>
    refine iff_of_true rfl fun p hmem hprefix => ?_
    exact List.find?_eq_none.mp hp p hmem (List.isPrefixOf_iff_prefix.mpr hprefix)
  | some p =>
    have hmem : p ∈ punctuators := List.mem_of_find?_eq_some hp
    have hprefix : p.toList <+: c :: rest :=
      List.isPrefixOf_iff_prefix.mp (List.find?_some (p := isPunctuatorOf (c :: rest)) hp)
    refine iff_of_false ?_ fun h => h p hmem hprefix
    have := hlong p hmem
    show p.length - 1 ≠ 0
    omega

/-- Two characters that start no punctuator are parted. -/
theorem punctuatorExtent_eq_zero
    (h : ∀ p ∈ punctuators, p.toList.head? = some c → p.toList[1]? ≠ some d) :
    punctuatorExtent c (d :: rest) = 0 := by
  rw [punctuatorExtent_eq_zero_iff]
  intro p hp hprefix
  obtain ⟨x, y, t, htext⟩ := exists_toList_punctuator hp
  have hpair := h p hp
  rw [htext] at hprefix hpair
  obtain ⟨hfirst, hrest⟩ := List.cons_prefix_cons.mp hprefix
  obtain ⟨hsecond, -⟩ := List.cons_prefix_cons.mp hrest
  exact hpair (congrArg some hfirst) (congrArg some hsecond)

/-- The characters of operators and brackets. -/
def marks : List Char := "()[]?:!~&*+-/%<>=^|".toList

theorem tokenExtent_mark (hc : c ∈ marks) (rest : List Char) :
    tokenExtent c rest = punctuatorExtent c rest := by
  have hmarks : ∀ m ∈ marks, isQuote m = false ∧ (m.isDigit = false ∧ m ≠ '.') ∧
      isWordStart m = false :=
    List.forall_iff_forall_mem.mp (by decide +kernel)
  obtain ⟨hquote, ⟨hdigit, hpoint⟩, hword⟩ := hmarks c hc
  simp [tokenExtent, hquote, startsNumber, hdigit, hpoint, hword]

theorem startsToken_of_mem_marks (hc : c ∈ marks) (hslash : c ≠ '/') : StartsToken c := by
  have hmarks : ∀ m ∈ marks, Text.isBlank m = false ∧ m ∉ ['#', '\\'] :=
    List.forall_iff_forall_mem.mp (by decide)
  obtain ⟨hblank, hmark⟩ := hmarks c hc
  exact ⟨hblank, by simp_all⟩

/-- Nothing goes on a bracket, a question mark or a colon. -/
theorem reads_bracket (hs : s.toList = [c]) (hc : c ∈ ['(', ')', '[', ']', '?', ':']) :
    Reads lineStart (.lexeme s :: ps) ↔ Reads false ps := by
  have hmarks : ∀ m ∈ ['(', ')', '[', ']', '?', ':'], m ∈ marks ∧ m ≠ '/' ∧
      ∀ p ∈ punctuators, p.toList.head? ≠ some m :=
    List.forall_iff_forall_mem.mp (by decide)
  obtain ⟨hmark, hslash, hnone⟩ := hmarks c hc
  have hextent : tokenExtent c ([] ++ Expr.charsOf ps) = 0 := by
    rw [tokenExtent_mark hmark, punctuatorExtent_eq_zero_iff]
    intro p hp hprefix
    apply hnone p hp
    obtain ⟨x, y, t, htext⟩ := exists_toList_punctuator hp
    rw [htext] at hprefix ⊢
    rw [(List.cons_prefix_cons.mp hprefix).1]
    rfl
  rw [reads_lexeme hs ((startsToken_of_mem_marks hmark hslash).skip _)]
  exact and_iff_right hextent

/-- A prefix operator is a token of its own before anything that an operand starts with, unless it
is a minus sign before another or an ampersand before another. -/
theorem reads_prefix (hs : s.toList = [c]) (hc : c ∈ ['!', '~', '-', '&', '*'])
    (hps : Expr.charsOf ps = d :: rest) (hd : d ∉ ['=', '>']) :
    Reads lineStart (.lexeme s :: ps) ↔ ¬(c = d ∧ c ∈ ['-', '&']) ∧ Reads false ps := by
  have hmarks : ∀ m ∈ ['!', '~', '-', '&', '*'], m ∈ marks ∧ m ≠ '/' :=
    List.forall_iff_forall_mem.mp (by decide)
  obtain ⟨hmark, hslash⟩ := hmarks c hc
  have hextent : tokenExtent c ([] ++ Expr.charsOf ps) = 0 ↔ ¬(c = d ∧ c ∈ ['-', '&']) := by
    rw [tokenExtent_mark hmark, List.nil_append, hps]
    constructor
    · rintro hzero ⟨rfl, hdouble⟩
      have hpunctuators : ∀ m ∈ ['-', '&'], String.ofList [m, m] ∈ punctuators :=
        List.forall_iff_forall_mem.mp (by decide)
      have hnone := punctuatorExtent_eq_zero_iff.mp hzero _ (hpunctuators c hdouble)
      exact hnone ⟨rest, by rw [String.toList_ofList]; rfl⟩
    · -- What else starts with one of these marks goes on with an equals sign or a closing angle.
      intro hapart
      refine punctuatorExtent_eq_zero fun p hp hfirst hsecond => ?_
      have hpairs : ∀ m ∈ ['!', '~', '-', '&', '*'], ∀ p ∈ punctuators, p.toList.head? = some m →
          p.toList[1]? ∈ [some '=', some '>'] ∨ p.toList[1]? = some m ∧ m ∈ ['-', '&'] :=
        List.forall_iff_forall_mem.mp (by decide)
      rcases hpairs c hc p hp hfirst with h | ⟨h, hdouble⟩
      · rw [hsecond] at h
        exact hd (by simpa using h)
      · rw [hsecond] at h
        exact hapart ⟨(Option.some.inj h).symm, hdouble⟩
  rw [reads_lexeme hs ((startsToken_of_mem_marks hmark hslash).skip _)]
  exact and_congr_left fun _ => hextent

theorem reads_arrow : Reads lineStart (.lexeme "->" :: ps) ↔ Reads false ps := by
  have hextent : tokenExtent '-' (['>'] ++ Expr.charsOf ps) = 1 := by
    rw [tokenExtent_mark (by decide)]
    rfl
  have hstart : StartsToken '-' := startsToken_of_mem_marks (by decide) (by decide)
  rw [reads_lexeme (c := '-') (s := "->") rfl (hstart.skip _)]
  exact and_iff_right hextent

theorem reads_point (hs : IsIdentifier s) : Reads lineStart (.lexeme "." :: .lexeme s :: ps) ↔
    Reads false (.lexeme s :: ps) := by
  obtain ⟨c, cs, hchars, hc, -⟩ := hs
  have hps : Expr.charsOf (.lexeme s :: ps) = c :: (cs ++ Expr.charsOf ps) := by
    rw [Expr.charsOf_cons, Piece.text, hchars]
    rfl
  have hextent : tokenExtent '.' ([] ++ Expr.charsOf (.lexeme s :: ps)) = 0 := by
    have hno : isWordStart '.' = false := by decide +kernel
    have hne : c ≠ '.' := by
      rintro rfl
      exact Bool.false_ne_true (hno.symm.trans hc)
    -- The only punctuator that starts with a point is the ellipsis.
    have hpoints : ∀ p ∈ punctuators, p.toList.head? = some '.' → p.toList[1]? = some '.' := by
      decide
    have hquote : isQuote '.' = false := by decide
    have hnumber : startsNumber '.' (c :: (cs ++ Expr.charsOf ps)) = false := by
      simp [startsNumber, not_isDigit_of_isWordStart hc]
    rw [List.nil_append, hps, tokenExtent, hquote, hnumber, hno]
    refine punctuatorExtent_eq_zero fun p hp hfirst hsecond => hne ?_
    rw [hpoints p hp hfirst] at hsecond
    exact (Option.some.inj hsecond).symm
  have hstart : StartsToken '.' := by decide
  rw [reads_lexeme (c := '.') (s := ".") rfl (hstart.skip _)]
  exact and_iff_right hextent

/-- A binary operator stands between spaces. -/
theorem reads_operator (op : BinaryOp) :
    Reads lineStart (.lexeme op.text :: .gap :: ps) ↔ Reads false ps := by
  obtain ⟨c, cs, hchars, hmark, hcomment, halone⟩ : ∃ c cs, op.text.toList = c :: cs ∧ c ∈ marks ∧
      (c = '/' → cs = []) ∧ punctuatorExtent c cs = cs.length := by
    cases op <;> exact ⟨_, _, rfl, by decide, by decide, by decide⟩
  have hspace : Expr.charsOf (.gap :: ps) = ' ' :: Expr.charsOf ps := rfl
  have hskip : skipExtent? lineStart c (cs ++ Expr.charsOf (.gap :: ps)) = none := by
    -- A division could start a comment, but a space follows it.
    by_cases hslash : c = '/'
    · rw [hslash, hcomment hslash, hspace]
      rfl
    · exact (startsToken_of_mem_marks hmark hslash).skip _
  have hextent : tokenExtent c (cs ++ Expr.charsOf (.gap :: ps)) = cs.length := by
    have hapart : Apart (' ' :: Expr.charsOf ps) := .inr rfl
    have h := punctuatorExtent_take_append c cs hapart
    rw [halone, List.take_length] at h
    rw [tokenExtent_mark hmark, hspace, h]
  rw [reads_lexeme hchars hskip, and_iff_right hextent, reads_gap]

end GotoCheck.Source
