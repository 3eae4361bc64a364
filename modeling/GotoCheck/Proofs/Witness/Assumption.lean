import Mathlib.Algebra.Group.Nat.Defs
import Mathlib.Data.List.TakeWhile
import GotoCheck.Proofs.Expr.Readable
import GotoCheck.Proofs.FixedPoint
import GotoCheck.Proofs.Witness.Shape

/-! Assumptions about constants. What an assumption says of a variable is the constant as
expressions print it; only a string is cut, before its first at sign, and closed again. Whether it
stands open is told by all its quotation marks, those of its contents included. -/
namespace GotoCheck

namespace Literal

/-- The constant of an assumption: a string goes up to its first at sign. -/
def upToAt : Literal → Literal
  | string s => string (String.ofList (s.toList.takeWhile (· != '@')))
  | v => v

/-- A string has an even number of quotation marks. -/
def QuotesPaired : Literal → Prop
  | string s => s.toList.count '"' % 2 = 0
  | _ => True

/-- What an assumption shows of a constant that is printed as `printed` up to its first at sign.
With an odd number of quotation marks in its contents, a string that was cut counts as closed and
stays open, and a whole one counts as open and is closed once more. -/
structure ShownAs (v : Literal) (printed shown : String) : Prop where
  paired : v.upToAt.QuotesPaired → shown = printed
  cut : ¬v.upToAt.QuotesPaired → v.upToAt ≠ v → shown ++ "\"" = printed
  whole : ¬v.upToAt.QuotesPaired → v.upToAt = v → shown = printed ++ "\""

theorem ShownAs.of_eq {v : Literal} {printed shown : String} (hv : v.upToAt.QuotesPaired)
    (h : shown = printed) : v.ShownAs printed shown where
  paired _ := h
  cut hodd := absurd hv hodd
  whole hodd := absurd hv hodd

theorem upToAt_string_eq_iff {s : String} : (string s).upToAt = string s ↔ '@' ∉ s.toList := by
  rw [upToAt, string.injEq, ← String.toList_inj, String.toList_ofList, List.takeWhile_eq_self_iff]
  simp only [bne_iff_ne]
  exact ⟨fun h hat => h '@' hat rfl, fun h c hc heq => h (heq ▸ hc)⟩

/-! Numbers. -/

/-- Only what numbers in decimal places are written with. -/
def IsFigures (cs : List Char) : Prop := ∀ c ∈ cs, c.isDigit ∨ c = '-' ∨ c = '.'

theorem IsFigures.append {cs ds : List Char} (hcs : IsFigures cs) (hds : IsFigures ds) :
    IsFigures (cs ++ ds) := by
  intro c hc
  rcases List.mem_append.mp hc with hc | hc
  · exact hcs c hc
  · exact hds c hc

theorem IsFigures.of_isDigit {cs : List Char} (h : ∀ c ∈ cs, c.isDigit) : IsFigures cs :=
  fun c hc => .inl (h c hc)

theorem isFigures_sign (v : Int) : IsFigures (if v < 0 then ['-'] else []) := by
  intro c hc
  split at hc
  · exact .inr (.inl (List.mem_singleton.mp hc))
  · cases hc

theorem isFigures_toDigits (n : Nat) : IsFigures (Nat.toDigits 10 n) :=
  .of_isDigit fun _ hc => Nat.isDigit_of_mem_toDigits (by decide) (by decide) hc

theorem isFigures_decimal (bits : Int) (width integerBits : Nat) :
    IsFigures (FixedPoint.decimal bits width integerBits).toList := by
  have hpoint : IsFigures ['.'] := fun c hc => .inr (.inr (List.mem_singleton.mp hc))
  have hf : FixedPoint.fractionBits width integerBits ≤ 120 := Nat.min_le_right _ _
  have hplaces := (FixedPoint.canonical_parts hf bits).isDigit_places
  rw [FixedPoint.decimal, String.toList_ofList, FixedPoint.decimalChars]
  exact ((isFigures_sign bits).append (isFigures_toDigits _)).append
    (hpoint.append (.of_isDigit hplaces))

theorem isFigures_repr (v : Int) : IsFigures v.repr.toList := by
  have hnat (n : Nat) : IsFigures n.repr.toList := by
    rw [Nat.toList_repr]
    exact isFigures_toDigits n
  cases v with
  | ofNat n => exact hnat n
  | negSucc n =>
    rw [Int.repr, String.toList_append]
    exact (isFigures_sign (-1)).append (hnat _)

/-- The characters of a constant. -/
def chars (type : CType) (v : Literal) : List Char := (Piece.join (v.pieces type)).toList

theorem chars_lexeme (text : String) : (Piece.join [.lexeme text]).toList = text.toList := by
  simp [Piece.join, Piece.text]

theorem isFigures_int (type : CType) (v : Int) : IsFigures ((int v).chars type) := by
  have hchars : (int v).chars type = (if v < 0 then ['-'] else []) ++ Nat.toDigits 10 v.natAbs := by
    rw [chars, pieces, Piece.join]
    split <;> simp [Piece.text]
  rw [hchars]
  exact (isFigures_sign v).append (isFigures_toDigits _)

theorem isFigures_fixed (type : CType) (bits : Int) : IsFigures ((fixed bits).chars type) := by
  cases type with
  | fixed width integerBits =>
    rw [chars, pieces, chars_lexeme]
    exact isFigures_decimal bits width integerBits
  | _ =>
    show IsFigures (Piece.join [.lexeme bits.repr]).toList
    rw [chars_lexeme]
    exact isFigures_repr bits

/-! Strings. -/

/-- A character of a string between its quotation marks. -/
def escaped : Char → List Char
  | '"' => ['\\', '"']
  | '\\' => ['\\', '\\']
  | '\n' => ['\\', 'n']
  | '\t' => ['\\', 't']
  | c => [c]

theorem toList_quoted (s : String) :
    (quoted s).toList = '"' :: (s.toList.flatMap escaped ++ ['"']) := by
  rw [quoted, String.toList_ofList]
  rfl

/-- Escaping neither makes nor loses a quotation mark or an at sign. -/
theorem escaped_marks (c : Char) :
    (escaped c).count '"' = [c].count '"' ∧ ('@' ∈ escaped c ↔ c = '@') := by
  unfold escaped
  split <;> simp_all [eq_comm]

theorem count_flatMap_escaped (cs : List Char) :
    (cs.flatMap escaped).count '"' = cs.count '"' := by
  induction cs with
  | nil => rfl
  | cons c cs ih =>
    rw [List.flatMap_cons, List.count_append, ih, (escaped_marks c).1, ← List.count_append]
    rfl

/-- What stands before the first at sign comes from what does in the string; the closing quotation
mark is left where the string has none. -/
theorem takeWhile_flatMap_escaped (cs : List Char) :
    (cs.flatMap escaped ++ ['"']).takeWhile (· != '@') =
      (cs.takeWhile (· != '@')).flatMap escaped ++ if '@' ∈ cs then [] else ['"'] := by
  induction cs with
  | nil => rfl
  | cons c cs ih =>
    rw [List.flatMap_cons, List.append_assoc]
    by_cases hc : c = '@'
    · subst hc
      rfl
    · have hnone : ∀ d ∈ escaped c, (d != '@') = true := by
        rintro d hd
        rw [bne_iff_ne]
        rintro rfl
        exact hc ((escaped_marks c).2.mp hd)
      rw [List.takeWhile_append_of_pos hnone, ih, List.takeWhile_cons_of_pos (by simpa using hc),
        List.flatMap_cons, List.append_assoc]
      simp [Ne.symm hc]

end Literal

namespace Assumption
open Literal

/-- A text that starts with a quotation mark is no number. -/
theorem dropFloatSuffix_quote (cs : List Char) : dropFloatSuffix ('"' :: cs) = '"' :: cs := by
  cases cs with
  | nil => rfl
  | cons c cs => exact if_neg fun h => Bool.false_ne_true h.2

theorem plainValue_figures {cs : List Char} (h : IsFigures cs) : plainValue cs = cs := by
  have hno : ∀ c ∈ ['@', '"', 'f', 'F'], c ∉ cs := by
    intro c hc hmem
    have hfigure : ∀ c ∈ ['@', '"', 'f', 'F'], ¬(c.isDigit ∨ c = '-' ∨ c = '.') := by simp
    exact hfigure c hc (h c hmem)
  have hcut : cs.takeWhile (· != '@') = cs := by
    refine List.takeWhile_eq_self_iff.mpr fun c hc => ?_
    rw [bne_iff_ne]
    rintro rfl
    exact hno '@' (by decide) hc
  have hsuffix : dropFloatSuffix cs = cs := by
    refine if_neg fun hlast => ?_
    rcases hlast.1 with hlast | hlast
    · exact hno 'f' (by decide) (List.mem_of_getLast? hlast)
    · exact hno 'F' (by decide) (List.mem_of_getLast? hlast)
  rw [plainValue, hcut, hsuffix, closeQuote, List.count_eq_zero.mpr (hno '"' (by decide))]
  rfl

/-- A string is cut before its first at sign, and then closed if all its quotation marks together
are odd in number. -/
theorem plainValue_quoted (s : String) :
    plainValue (quoted s).toList =
      closeQuote ('"' :: ((s.toList.takeWhile (· != '@')).flatMap escaped ++
        if '@' ∈ s.toList then [] else ['"'])) := by
  rw [toList_quoted, plainValue, List.takeWhile_cons_of_pos (by decide),
    takeWhile_flatMap_escaped, dropFloatSuffix_quote]

theorem shownAs_quoted (s : String) :
    (string s).ShownAs (quoted (String.ofList (s.toList.takeWhile (· != '@'))))
      (String.ofList (plainValue (quoted s).toList)) := by
  have hpaired : (string s).upToAt.QuotesPaired ↔
      ((s.toList.takeWhile (· != '@')).flatMap escaped).count '"' % 2 = 0 := by
    rw [count_flatMap_escaped]
    simp [upToAt, QuotesPaired]
  have hprinted := toList_quoted (String.ofList (s.toList.takeWhile (· != '@')))
  rw [String.toList_ofList] at hprinted
  rw [plainValue_quoted]
  generalize (s.toList.takeWhile (· != '@')).flatMap escaped = body at hpaired hprinted
  -- the mark that opens, those of the contents, and the mark that closes unless it was cut off
  have hcount (rest : List Char) : ('"' :: (body ++ rest)).count '"' =
      1 + body.count '"' + rest.count '"' := by
    rw [List.count_cons_self, List.count_append]
    omega
  constructor
  · intro hq
    rw [hpaired] at hq
    apply String.toList_inj.mp
    rw [hprinted, String.toList_ofList, closeQuote, hcount]
    split
    · rw [List.count_nil, if_pos (by omega)]
      simp
    · rw [List.count_singleton_self, if_neg (by omega)]
  · intro hq hat
    rw [hpaired] at hq
    rw [Ne, upToAt_string_eq_iff, not_not] at hat
    apply String.toList_inj.mp
    rw [hprinted, String.toList_append, String.toList_ofList, closeQuote, hcount, if_pos hat,
      List.count_nil, if_neg (by omega)]
    simp
  · intro hq hat
    rw [hpaired] at hq
    rw [upToAt_string_eq_iff] at hat
    apply String.toList_inj.mp
    rw [String.toList_append, hprinted, String.toList_ofList, closeQuote, hcount, if_neg hat,
      List.count_singleton_self, if_pos (by omega)]
    rfl

theorem plainValue_words : ∀ word ∈ ["TRUE", "FALSE", "NULL"],
    plainValue word.toList = word.toList := by
  decide

theorem shownAs_chars (type : CType) (v : Literal) :
    v.ShownAs (String.ofList (v.upToAt.chars type))
      (String.ofList (plainValue (v.chars type))) := by
  have hword {word : String} (hmem : word ∈ ["TRUE", "FALSE", "NULL"]) :
      plainValue (Piece.join [.lexeme word]).toList = (Piece.join [.lexeme word]).toList := by
    rw [chars_lexeme]
    exact plainValue_words word hmem
  cases v with
  | bool b =>
    refine .of_eq trivial (congrArg String.ofList ?_)
    cases b
    · exact hword (by decide)
    · exact hword (by decide)
  | int n => exact .of_eq trivial (congrArg _ (plainValue_figures (isFigures_int type n)))
  | fixed bits => exact .of_eq trivial (congrArg _ (plainValue_figures (isFigures_fixed type bits)))
  | string s =>
    have hchars (s : String) : (string s).chars type = (quoted s).toList := chars_lexeme (quoted s)
    rw [hchars, upToAt, hchars, String.ofList_toList]
    exact shownAs_quoted s
  | null => exact .of_eq trivial (congrArg _ (hword (by decide)))

end Assumption

namespace WitnessGenerator
open Literal

/-- Notes are made of the steps one by one, whatever files have been read. -/
theorem getElem?_notes (names : SymbolTable) (d : Directory) (c : SourceCache) (current : String)
    {shown : List (Step × Expr)} {i : Nat} {s : Step} {lhs : Expr} (h : shown[i]? = some (s, lhs)) :
    ∃ before tokens, (notes names d c current shown).2[i]? =
      some (.ofStep names before tokens s lhs) := by
  induction shown generalizing i c current with
  | nil => cases h
  | cons x rest ih =>
    cases i with
    | zero =>
      cases h
      exact ⟨current, _, rfl⟩
    | succ i => exact ih _ _ h

/-- Between the equals sign and the semicolon there is only what the assumption shows of the
constant. -/
theorem ofStep_literal {names : SymbolTable} {s : Step} {lhs : Expr} {v : Literal} {type : CType}
    {text : String} (hvalue : s.value = some (.literal v type))
    (h : Assumption.ofStep names s lhs = some text) :
    ∃ shown, text = String.ofList (Assumption.plainTarget (lhs.text names).toList) ++ " = " ++
        shown ++ ";" ∧
      v.ShownAs ((Expr.literal v.upToAt type).text names) shown := by
  have hchars (v : Literal) : (Expr.literal v type).text names = String.ofList (v.chars type) :=
    (String.ofList_toList).symm
  refine ⟨String.ofList (Assumption.plainValue (v.chars type)), ?_, ?_⟩
  · unfold Assumption.ofStep at h
    rw [hvalue] at h
    split at h
    · cases h
    simp only at h
    split at h
    · cases h
    · cases h
      apply String.toList_inj.mp
      simp only [String.toList_append, String.toList_ofList, hchars]
      rfl
  · rw [hchars]
    exact Assumption.shownAs_chars type v

/-- The assumption on an edge, if there is one, states that the variable of its step has the
constant of the model, whatever files the generator has read before: a string up to its first at
sign, and word for word if its quotation marks up to there are paired. -/
theorem assumption_states_value (g : WitnessGenerator) (d : Directory) (t : Trace) {i : Nat}
    {s : Step} {v : Literal} {type : CType}
    (hs : (t.steps.filter fun s => s.Qualifies)[i]? = some s)
    (hvalue : s.value = some (.literal v type)) :
    ∃ e n target, (g.generate d t).2.edges[i]? = some e ∧ s.lhs = some (.symbol n target) ∧
      ∀ text, e.notes.assumption = some text →
        ∃ shown, text = String.ofList (Assumption.plainTarget (g.names.displayName n).toList) ++
            " = " ++ shown ++ ";" ∧
          v.ShownAs ((Expr.literal v.upToAt type).text g.names) shown := by
  obtain ⟨n, target, hlhs, hshown⟩ := t.getElem?_shownAssignments hs
  obtain ⟨before, tokens, hnotes⟩ := getElem?_notes g.names d g.cache "" hshown
  refine ⟨_, n, target, Witness.edges_finish g.config hnotes, hlhs, fun text htext => ?_⟩
  have htarget : (Expr.symbol n target).text g.names = g.names.displayName n :=
    String.toList_inj.mp (chars_lexeme _)
  rw [← htarget]
  exact ofStep_literal hvalue htext

/-- A variable gets a string. -/
def stringStep (value : String) : Step :=
  let name := Expr.symbol "c::name" (.pointer .char)
  .assignment (.assign name (.ofString value)) 1 name (.ofString value)

def stringWitness (value : String) : Witness :=
  (({ names := .empty, config := {} } : WitnessGenerator).generate .empty ⟨[stringStep value]⟩).2

/-- A name in quotation marks before an address, an odd mark, and an odd mark before an address. -/
theorem assumption_of_quotedName :
    (∃ e, (stringWitness "\"Ann\"@home").edges[0]? = some e ∧
      e.notes.assumption = some "c::name = \"\\\"Ann\\\"\";") ∧
    (∃ e, (stringWitness "a\"b").edges[0]? = some e ∧
      e.notes.assumption = some "c::name = \"a\\\"b\"\";") ∧
    ∃ e, (stringWitness "a\"b@c").edges[0]? = some e ∧
      e.notes.assumption = some "c::name = \"a\\\"b;" := by
  have hassumed (value : String) (hqualifies : (stringStep value).Qualifies)
      (hsome : ((stringWitness value).edges[0]?.bind fun e => e.notes.assumption).isSome) :
      ∃ e, (stringWitness value).edges[0]? = some e ∧ ∃ shown,
        e.notes.assumption = some ("c::name = " ++ shown ++ ";") ∧
        (string value).ShownAs ((Expr.literal (string value).upToAt (.pointer .char)).text .empty)
          shown := by
    obtain ⟨e, n, target, he, hlhs, hstates⟩ := assumption_states_value
      { names := .empty, config := {} } .empty ⟨[stringStep value]⟩
      (i := 0) (s := stringStep value) (by simp [hqualifies]) rfl
    rw [stringWitness, he, Option.bind_some] at hsome
    obtain ⟨text, htext⟩ := Option.isSome_iff_exists.mp hsome
    cases hlhs
    obtain ⟨shown, rfl, hshown⟩ := hstates text htext
    exact ⟨e, he, shown, htext, hshown⟩
  refine ⟨?_, ?_, ?_⟩
  · have hpaired : (string "\"Ann\"@home").upToAt.QuotesPaired := by
      show List.count _ _ % 2 = 0
      decide +kernel
    obtain ⟨e, he, shown, htext, hshown⟩ := hassumed "\"Ann\"@home"
      (Step.shownTarget?_isSome_iff.mp (by decide +kernel)) (by decide +kernel)
    refine ⟨e, he, ?_⟩
    rw [htext, hshown.paired hpaired]
    decide +kernel
  · have hodd : ¬(string "a\"b").upToAt.QuotesPaired := by
      show ¬List.count _ _ % 2 = 0
      decide +kernel
    obtain ⟨e, he, shown, htext, hshown⟩ := hassumed "a\"b"
      (Step.shownTarget?_isSome_iff.mp (by decide +kernel)) (by decide +kernel)
    refine ⟨e, he, ?_⟩
    rw [htext, hshown.whole hodd (upToAt_string_eq_iff.mpr (by decide +kernel))]
    decide +kernel
  · have hodd : ¬(string "a\"b@c").upToAt.QuotesPaired := by
      show ¬List.count _ _ % 2 = 0
      decide +kernel
    obtain ⟨e, he, shown, htext, hshown⟩ := hassumed "a\"b@c"
      (Step.shownTarget?_isSome_iff.mp (by decide +kernel)) (by decide +kernel)
    have hcut : shown ++ "\"" = "\"a\\\"b" ++ "\"" := by
      rw [hshown.cut hodd (mt upToAt_string_eq_iff.mp (by decide +kernel))]
      decide +kernel
    have hlist := congrArg String.toList hcut
    rw [String.toList_append, String.toList_append] at hlist
    have hopen : shown = "\"a\\\"b" := String.toList_inj.mp (List.append_cancel_right hlist)
    refine ⟨e, he, ?_⟩
    rw [htext, hopen]
    decide +kernel

/-- The string is not the one that the variable has. -/
theorem atSign_cuts_string :
    (stringWitness "user@host").edges[0]?.map (fun e => e.notes.assumption) =
        some (some "c::name = \"user\";") ∧
      (Expr.ofString "user@host").text .empty = "\"user@host\"" := by
  decide +kernel

end WitnessGenerator
end GotoCheck
