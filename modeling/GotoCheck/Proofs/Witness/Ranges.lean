import GotoCheck.Proofs.Source.Snippet
import GotoCheck.Proofs.Witness.Shape

/-! Numbers of tokens. The tokens of a file stand in the order of its lines, so the table by lines
holds them in the order of the file, and those of one line have consecutive numbers. What a witness
notes about a line tells exactly which tokens these are. -/
namespace GotoCheck.Source
variable {n number : Nat} {t : Token} {tokens : List Token} {lines : List LineTokens}

/-- Tokens by lines that never decrease. -/
def InLineOrder (tokens : List Token) : Prop := tokens.Pairwise fun t u => t.line ≤ u.line

theorem inLineOrder_tokensFrom (line : Nat) (parts : List Segment) :
    InLineOrder (tokensFrom line parts) := by
  induction parts generalizing line with
  | nil => exact .nil
  | cons part later ih =>
    rw [tokensFrom]
    split
    · refine List.pairwise_cons.mpr ⟨fun t ht => ?_, ih _⟩
      exact Nat.le_trans (Nat.le_add_right _ _) (le_line_of_mem_tokensFrom ht)
    · exact ih _

theorem inLineOrder_tokenize (source : String) : InLineOrder (tokenize source) :=
  inLineOrder_tokensFrom 1 (segments true source.toList)

/-! The table in the order of the file. -/

section Table

/-- A token of the first line comes to stand before all others. -/
theorem flatMap_tokens_place (h : ∀ l ∈ lines, t.line ≤ l.line) :
    (place number t lines).flatMap LineTokens.tokens =
      (number, t.text) :: lines.flatMap LineTokens.tokens := by
  cases lines with
  | nil => rfl
  | cons l rest =>
    have hl := h l List.mem_cons_self
    rw [place]
    split
    · rfl
    · rw [if_pos (by omega)]
      rfl

theorem line_of_mem_foldr_place {numbered : List (Token × Nat)} {l : LineTokens}
    (h : l ∈ numbered.foldr (fun x lines => place x.2 x.1 lines) []) :
    ∃ x ∈ numbered, x.1.line = l.line := by
  induction numbered generalizing l with
  | nil => cases h
  | cons x rest ih =>
    rcases line_of_mem_place h with heq | ⟨m, hm, heq⟩
    · exact ⟨x, List.mem_cons_self, heq.symm⟩
    · obtain ⟨y, hy, hline⟩ := ih hm
      exact ⟨y, List.mem_cons_of_mem x hy, hline.trans heq⟩

theorem flatMap_tokens_foldr_place {numbered : List (Token × Nat)}
    (h : numbered.Pairwise fun x y => x.1.line ≤ y.1.line) :
    (numbered.foldr (fun x lines => place x.2 x.1 lines) []).flatMap LineTokens.tokens =
      numbered.map fun x => (x.2, x.1.text) := by
  induction numbered with
  | nil => rfl
  | cons x rest ih =>
    obtain ⟨hx, hrest⟩ := List.pairwise_cons.mp h
    rw [List.foldr_cons, flatMap_tokens_place, ih hrest, List.map_cons]
    intro l hl
    obtain ⟨y, hy, hline⟩ := line_of_mem_foldr_place hl
    exact hline ▸ hx y hy

/-- Line by line, the table holds the tokens in the order of the file. -/
theorem flatMap_tokens_byLine (h : InLineOrder tokens) :
    (byLine tokens).flatMap LineTokens.tokens =
      (tokens.zipIdx 1).map fun x => (x.2, x.1.text) := by
  apply flatMap_tokens_foldr_place
  rw [← List.pairwise_map (f := Prod.fst) (R := fun t u : Token => t.line ≤ u.line),
    List.zipIdx_map_fst]
  exact h

theorem ascending_byLine (tokens : List Token) : Ascending (byLine tokens) :=
  (ascending_byLine_and_tokensOn 0 (tokens.zipIdx 1)).1

theorem tokensOn_line {l : LineTokens} (h : Ascending lines) (hl : l ∈ lines) :
    tokensOn l.line lines = l.tokens := by
  induction lines with
  | nil => cases hl
  | cons m rest ih =>
    obtain ⟨hm, hrest⟩ := List.pairwise_cons.mp h
    rw [tokensOn_cons]
    rcases List.mem_cons.mp hl with rfl | hl
    · rw [if_pos rfl]
    · rw [if_neg (Nat.ne_of_lt (hm l hl)), ih hrest hl]

end Table

/-! The tokens of one line. -/

section Line

/-- The tokens of a file, parted into those before a line, those on it and those after it. -/
structure Parted (n : Nat) (tokens before on after : List Token) : Prop where
  eq_append : tokens = before ++ (on ++ after)
  before_lt : ∀ t ∈ before, t.line < n
  on_eq : ∀ t ∈ on, t.line = n
  lt_after : ∀ t ∈ after, n < t.line

theorem InLineOrder.exists_parted (h : InLineOrder tokens) (n : Nat) :
    ∃ before on after, Parted n tokens before on after := by
  induction tokens with
  | nil => exact ⟨[], [], [], rfl, nofun, nofun, nofun⟩
  | cons t rest ih =>
    obtain ⟨ht, hrest⟩ := List.pairwise_cons.mp h
    obtain ⟨before, on, after, heq, hbefore, hon, hafter⟩ := ih hrest
    rcases Nat.lt_trichotomy t.line n with hlt | hline | hgt
    · exact ⟨t :: before, on, after, congrArg _ heq, List.forall_mem_cons.mpr ⟨hlt, hbefore⟩, hon,
        hafter⟩
    · -- nothing that stands behind `t` is on a line before it
      have hnil : before = [] := by
        refine List.eq_nil_iff_forall_not_mem.mpr fun u hu => ?_
        have hge := ht u (heq ▸ List.mem_append_left _ hu)
        have hlt := hbefore u hu
        omega
      subst hnil
      exact ⟨[], t :: on, after, congrArg _ heq, nofun, List.forall_mem_cons.mpr ⟨hline, hon⟩,
        hafter⟩
    · exact ⟨[], [], t :: rest, rfl, nofun, nofun, List.forall_mem_cons.mpr
        ⟨hgt, fun u hu => Nat.lt_of_lt_of_le hgt (ht u hu)⟩⟩

namespace Parted
variable {before on after : List Token}

/-- The tokens of a line are numbered on from those before it. -/
theorem tokensOn_byLine (h : Parted n tokens before on after) : tokensOn n (byLine tokens) =
    (on.zipIdx (before.length + 1)).map fun x => (x.2, x.1.text) := by
  have hnone (part : List Token) (k : Nat) (hpart : ∀ t ∈ part, t.line ≠ n) :
      (part.zipIdx k).filter (fun x => x.1.line == n) = [] := by
    refine List.filter_eq_nil_iff.mpr fun x hx => ?_
    simpa using hpart x.1 (List.fst_mem_of_mem_zipIdx hx)
  have hall (k : Nat) : (on.zipIdx k).filter (fun x => x.1.line == n) = on.zipIdx k := by
    refine List.filter_eq_self.mpr fun x hx => ?_
    simpa using h.on_eq x.1 (List.fst_mem_of_mem_zipIdx hx)
  rw [Source.tokensOn_byLine, h.eq_append, List.zipIdx_append, List.zipIdx_append,
    List.filter_append, List.filter_append, hall,
    hnone before _ fun t ht => Nat.ne_of_lt (h.before_lt t ht),
    hnone after _ fun t ht => Nat.ne_of_gt (h.lt_after t ht), List.nil_append, List.append_nil,
    Nat.add_comm]

theorem numbers (h : Parted n tokens before on after) :
    (tokensOn n (byLine tokens)).map Prod.fst = List.range' (before.length + 1) on.length := by
  rw [h.tokensOn_byLine, List.map_map]
  exact List.zipIdx_map_snd (before.length + 1) on

theorem length_tokensOn (h : Parted n tokens before on after) :
    (tokensOn n (byLine tokens)).length = on.length := by
  rw [h.tokensOn_byLine, List.length_map, List.length_zipIdx]

/-- The numbers from the first to the last of a line are those of its tokens and no others. -/
theorem line_eq_iff (h : Parted n tokens before on after) {i : Nat} (ht : tokens[i]? = some t) :
    t.line = n ↔ before.length + 1 ≤ i + 1 ∧ i + 1 ≤ before.length + on.length := by
  rw [h.eq_append, List.getElem?_append] at ht
  split at ht
  · have := h.before_lt t (List.mem_of_getElem? ht)
    omega
  · rw [List.getElem?_append] at ht
    split at ht
    · have := h.on_eq t (List.mem_of_getElem? ht)
      omega
    · have := h.lt_after t (List.mem_of_getElem? ht)
      omega

theorem line_ne (h : Parted n tokens before [] after) (ht : t ∈ tokens) : t.line ≠ n := by
  rw [h.eq_append, List.nil_append] at ht
  rcases List.mem_append.mp ht with ht | ht
  · exact Nat.ne_of_lt (h.before_lt t ht)
  · exact Nat.ne_of_gt (h.lt_after t ht)

end Parted

/-- A line is in the table for its tokens. -/
theorem tokens_ne_nil_of_mem_byLine {l : LineTokens} (hl : l ∈ byLine tokens) : l.tokens ≠ [] := by
  obtain ⟨x, hx, hline⟩ := line_of_mem_foldr_place hl
  rw [← tokensOn_line (ascending_byLine tokens) hl, tokensOn_byLine]
  refine List.ne_nil_of_mem (List.mem_map_of_mem (List.mem_filter.mpr ⟨hx, ?_⟩))
  simpa using hline

theorem numbers_of_mem_byLine (h : InLineOrder tokens) {l : LineTokens} (hl : l ∈ byLine tokens) :
    ∃ first, l.tokens.map Prod.fst = List.range' first l.tokens.length := by
  obtain ⟨before, on, after, hparted⟩ := h.exists_parted l.line
  have hline := tokensOn_line (ascending_byLine tokens) hl
  have hnumbers := hparted.numbers
  rw [← hparted.length_tokensOn, hline] at hnumbers
  exact ⟨before.length + 1, hnumbers⟩

/-- Of consecutive numbers the first and the last are written. -/
theorem rangeText_of_consecutive {numbered : List (Nat × String)} {first last : Nat}
    (h : numbered.map Prod.fst = List.range' first numbered.length) (hnumbered : numbered ≠ [])
    (hlast : first + numbered.length = last + 1) : WitnessNotes.rangeText numbered =
      some (if first = last then first.repr else first.repr ++ "," ++ last.repr) := by
  match numbered with
  | [] => exact absurd rfl hnumbered
  | [x] =>
    have hx : x.1 = first := by simpa using h
    rw [if_pos (Nat.succ.inj hlast), ← hx]
    rfl
  | x :: y :: rest =>
    have hx : x.1 = first := (List.cons.inj h).1
    have hne : first ≠ last := by
      simp only [List.length_cons] at hlast
      omega
    have hend : ((y :: rest).getLast (List.cons_ne_nil y rest)).1 = last := by
      calc ((y :: rest).getLast (List.cons_ne_nil y rest)).1
          = ((x :: y :: rest).map Prod.fst).getLast (by simp) := by
            rw [List.getLast_map, List.getLast_cons_cons]
        _ = last := by
            simp only [h, List.getLast_range', hlast]
            rfl
    show some (x.1.repr ++ "," ++ _) = _
    rw [hx, hend, if_neg hne]

end Line

/-- There is no line before the first. -/
theorem tokensOn_zero (source : String) : tokensOn 0 (byLine (tokenize source)) = [] := by
  rw [tokensOn_byLine, List.map_eq_nil_iff, List.filter_eq_nil_iff]
  intro x hx
  have hline : 1 ≤ x.1.line := le_line_of_mem_tokensFrom (List.fst_mem_of_mem_zipIdx hx)
  simp only [beq_iff_eq]
  omega

end GotoCheck.Source

namespace GotoCheck
open Source

namespace WitnessNotes

/-- The texts of the tokens on a line of a source, in order. -/
def textsOn (source : String) (n : Nat) : List String :=
  ((tokenize source).filter fun t => t.line == n).map Token.text

/-- What an edge tells of the tokens on line `n`, where there are some: the numbers of the first and
of the last in the file, and a text that has the same tokens. -/
structure MarksTokens (source : String) (n first last : Nat) (a : WitnessNotes) : Prop where
  tokens : a.tokens = some (if first = last then first.repr else first.repr ++ "," ++ last.repr)
  ordered : 1 ≤ first ∧ first ≤ last ∧ last ≤ (tokenize source).length
  /-- The numbers from the first to the last are those of the tokens on the line. -/
  exact : ∀ i t, (tokenize source)[i]? = some t → (t.line = n ↔ first ≤ i + 1 ∧ i + 1 ≤ last)
  sourceCode : a.sourceCode = some (" ".intercalate (textsOn source n))
  texts : (tokenize (" ".intercalate (textsOn source n))).map Token.text = textsOn source n

/-- An edge marks the tokens on a line exactly, and says nothing of them if there are none. -/
def MarksLine (source : String) (n : Nat) (a : WitnessNotes) : Prop :=
  ((∀ t ∈ tokenize source, t.line ≠ n) ∧ a.tokens = none ∧ a.sourceCode = none) ∨
    ∃ first last, a.MarksTokens source n first last

theorem marksLine_ofStep (names : SymbolTable) (current source : String) (n : Nat) (s : Step)
    (lhs : Expr) :
    (ofStep names current (tokensOn n (byLine (tokenize source))) s lhs).MarksLine source n := by
  have htexts : (tokensOn n (byLine (tokenize source))).map Prod.snd = textsOn source n :=
    texts_tokensOn_byLine n (tokenize source)
  have hcut := texts_tokenize_intercalate source n
  rw [htexts] at hcut
  obtain ⟨before, on, after, hparted⟩ := (inLineOrder_tokenize source).exists_parted n
  have hlength := hparted.length_tokensOn
  cases on with
  | nil =>
    have hnone := List.length_eq_zero_iff.mp hlength
    exact .inl ⟨fun t => hparted.line_ne, congrArg rangeText hnone, congrArg codeText hnone⟩
  | cons u rest =>
    have hsome : tokensOn n (byLine (tokenize source)) ≠ [] :=
      List.ne_nil_of_length_eq_add_one hlength
    have hnumbers := hparted.numbers
    rw [← hlength] at hnumbers
    refine .inr ⟨before.length + 1, before.length + (u :: rest).length, ?_, ?_,
      fun i t => hparted.line_eq_iff, ?_, hcut⟩
    · refine rangeText_of_consecutive hnumbers hsome ?_
      rw [hlength]
      omega
    · rw [hparted.eq_append, List.length_append, List.length_append, List.length_cons]
      omega
    · rw [← htexts]
      exact if_neg (by simpa using hsome)

end WitnessNotes

namespace WitnessGenerator

theorem getElem?_freshNotes (names : SymbolTable) (d : Directory) (current : String)
    {shown : List (Step × Expr)} {i : Nat} {s : Step} {lhs : Expr} (h : shown[i]? = some (s, lhs)) :
    ∃ before, (freshNotes names d current shown)[i]? =
      some (.ofStep names before (SourceCache.readTokens d s.instruction.location) s lhs) := by
  induction shown generalizing i current with
  | nil => cases h
  | cons x rest ih =>
    cases i with
    | zero =>
      cases h
      exact ⟨current, rfl⟩
    | succ i => exact ih _ h

theorem edges_freshWitness (g : WitnessGenerator) (d : Directory) (t : Trace) {i : Nat}
    {a : WitnessNotes} (h : (freshNotes g.names d "" t.shownAssignments)[i]? = some a) :
    (g.freshWitness d t).edges[i]? = some ⟨i, i + 1, a⟩ := by
  exact Witness.edges_finish g.config h

end WitnessGenerator

/-- The tokens at a place in a file are those on its line. -/
theorem SourceCache.readTokens_of_read? {d : Directory} {place : Location} {bytes : List UInt8}
    (h : d.read? place.file = some bytes) : readTokens d place =
      tokensOn place.line (byLine (tokenize (String.ofList (Text.decode bytes)))) := by
  have hfile : place.file.isEmpty = false := by
    rw [String.isEmpty_eq_false_iff]
    intro hempty
    -- there is no file without a name
    rw [hempty] at h
    cases h
  by_cases hline : place.line = 0
  · rw [readTokens, if_pos (.inl hline), hline, tokensOn_zero]
  · rw [readTokens, if_neg (by simp [hline, hfile]), h]
    rfl

namespace WitnessGenerator

/-- Line by line the table holds all tokens, numbered in the order of the file, so that those of one
line have consecutive numbers. The edge of an assignment marks the tokens on its line exactly,
whatever the generator has made witnesses of before. -/
theorem token_ranges_exact (source : String) :
    Ascending (byLine (tokenize source)) ∧
    (byLine (tokenize source)).flatMap LineTokens.tokens =
      ((tokenize source).zipIdx 1).map (fun x => (x.2, x.1.text)) ∧
    (∀ l ∈ byLine (tokenize source), l.tokens ≠ [] ∧
      ∃ first, l.tokens.map Prod.fst = List.range' first l.tokens.length) ∧
    ∀ (names : SymbolTable) (config : WitnessConfig) (d : Directory) (traces : List Trace)
      (j i : Nat) (t : Trace) (s : Step) (bytes : List UInt8), traces[j]? = some t →
      (t.steps.filter fun s => s.Qualifies)[i]? = some s →
      d.read? s.instruction.location.file = some bytes →
      String.ofList (Text.decode bytes) = source →
      ∃ w e, (({ names, config } : WitnessGenerator).witnesses d traces)[j]? = some w ∧
        w.edges[i]? = some e ∧ e.notes.MarksLine source s.instruction.location.line := by
  have horder := inLineOrder_tokenize source
  refine ⟨ascending_byLine _, flatMap_tokens_byLine horder, fun l hl =>
    ⟨tokens_ne_nil_of_mem_byLine hl, numbers_of_mem_byLine horder hl⟩, ?_⟩
  intro names config d traces j i t s bytes ht hs hread hsource
  obtain ⟨lhs, hshown⟩ : ∃ lhs, t.shownAssignments[i]? = some (s, lhs) := by
    rw [← t.map_fst_shownAssignments, List.getElem?_map, Option.map_eq_some_iff] at hs
    obtain ⟨⟨s', lhs⟩, hx, rfl⟩ := hs
    exact ⟨lhs, hx⟩
  obtain ⟨before, hnotes⟩ := getElem?_freshNotes names d "" hshown
  rw [SourceCache.readTokens_of_read? hread, hsource] at hnotes
  refine ⟨_, _, ?_, edges_freshWitness { names, config } d t hnotes, ?_⟩
  · rw [witnesses_of_faithful SourceCache.faithful_empty, List.getElem?_map, ht]
    rfl
  · exact WitnessNotes.marksLine_ofStep names before source _ s lhs

/-- An assignment behind a comment that goes over a line feed. -/
def markedSource : String := "int x;\nvoid f() \x7b\n  /* one\n  line */ x = 1;\n\x7d\n"

def markedStep : Step :=
  let x := Expr.symbol "c::x" .int
  .assignment { Instruction.assign x (.ofInt 1 .int) with
    location := { file := "f.c", line := 4 } } 1 x (.ofInt 1 .int)

theorem tokens_of_markedStep : ∃ w e,
    (({ names := .empty, config := {} } : WitnessGenerator).witnesses
      (Directory.empty.write "f.c" markedSource.toUTF8.toList) [⟨[markedStep]⟩])[0]? = some w ∧
        w.edges[0]? = some e ∧ e.notes.tokens = some "9,12" ∧
        e.notes.sourceCode = some "x = 1 ;" := by
  have hqualifies : markedStep.Qualifies :=
    Step.shownTarget?_isSome_iff.mp (by decide +kernel)
  have hlines : (tokenize markedSource).map Token.line =
      [1, 1, 1, 2, 2, 2, 2, 2, 4, 4, 4, 4, 5] := by
    decide +kernel
  have htexts : WitnessNotes.textsOn markedSource 4 = ["x", "=", "1", ";"] := by decide +kernel
  obtain ⟨-, -, -, hmarks⟩ := token_ranges_exact markedSource
  obtain ⟨w, e, hw, he, hline⟩ := hmarks .empty {}
    (Directory.empty.write "f.c" markedSource.toUTF8.toList) [⟨[markedStep]⟩] 0 0 ⟨[markedStep]⟩
    markedStep markedSource.toUTF8.toList rfl (by simp [hqualifies]) (by decide +kernel)
    (by decide +kernel)
  refine ⟨w, e, hw, he, ?_⟩
  rcases hline with ⟨hnone, -, -⟩ | ⟨first, last, hmarks⟩
  · have hmem : 4 ∈ (tokenize markedSource).map Token.line := by rw [hlines]; decide
    obtain ⟨t, ht, hline⟩ := List.mem_map.mp hmem
    exact absurd hline (hnone t ht)
  · have hexact (i n : Nat) (h : ((tokenize markedSource).map Token.line)[i]? = some n) :
        n = 4 ↔ first ≤ i + 1 ∧ i + 1 ≤ last := by
      rw [List.getElem?_map, Option.map_eq_some_iff] at h
      obtain ⟨t, ht, rfl⟩ := h
      exact hmarks.exact i t ht
    rw [hlines] at hexact
    have hbefore := hexact 7 2 rfl
    have hfirst := hexact 8 4 rfl
    have hlast := hexact 11 4 rfl
    have hafter := hexact 12 5 rfl
    obtain ⟨rfl, rfl⟩ : first = 9 ∧ last = 12 := by omega
    have hsourceCode : e.notes.sourceCode =
        some (" ".intercalate (WitnessNotes.textsOn markedSource 4)) := hmarks.sourceCode
    rw [htexts] at hsourceCode
    exact ⟨hmarks.tokens, hsourceCode⟩

end WitnessGenerator
end GotoCheck
