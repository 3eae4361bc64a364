import GotoCheck.Proofs.Source.Extent

/-! Tokens in their text. Each stands between two places of the source, and only blanks, line
continuations, comments and directives stand outside of them. -/
namespace GotoCheck.Source
variable {s : String}

/-- The line of a place; the first line is 1. -/
def lineAt (p : s.Pos) : Nat := 1 + (s.sliceTo p).copy.toList.count '\n'

/-- The text from a place on. -/
def textFrom (p : s.Pos) : List Char := (s.sliceFrom p).copy.toList

/-- Where a token stands. -/
structure Span (s : String) where
  start : s.Pos
  stop : s.Pos
  start_lt_stop : start < stop

namespace Span

def text (x : Span s) : String := (s.slice x.start x.stop (Std.le_of_lt x.start_lt_stop)).copy

def token (x : Span s) : Token := ⟨x.text, lineAt x.start⟩

end Span

/-- No token stands before a place on its line. -/
def Fresh (spans : List (Span s)) (p : s.Pos) : Prop :=
  ∀ x ∈ spans, lineAt x.start = lineAt p → p ≤ x.start

/-- From one place to another there are only parts without tokens. -/
inductive Gap (spans : List (Span s)) : s.Pos → s.Pos → Prop
  | none {p : s.Pos} : Gap spans p p
  | skip {p q r : s.Pos} : p < q → Skips (Fresh spans p) (textFrom p) (textFrom q) →
      Gap spans q r → Gap spans p r

/-- From a place to the end of the text there are some tokens, in order, with gaps around them. -/
inductive Covers (spans : List (Span s)) : s.Pos → List (Span s) → Prop
  | done {p : s.Pos} : Gap spans p s.endPos → Covers spans p []
  | token {p : s.Pos} {x : Span s} {rest : List (Span s)} : Gap spans p x.start →
      Covers spans x.stop rest → Covers spans p (x :: rest)

theorem Gap.le {spans : List (Span s)} {p q : s.Pos} (h : Gap spans p q) : p ≤ q := by
  induction h with
  | none => exact Std.le_refl _
  | skip hlt _ _ ih => exact Std.le_trans (Std.le_of_lt hlt) ih

theorem Covers.le {spans rest : List (Span s)} {p : s.Pos} (h : Covers spans p rest) :
    ∀ x ∈ rest, p ≤ x.start := by
  induction h with
  | done => simp
  | @token p x rest hgap _ ih =>
    intro y hy
    rcases List.mem_cons.mp hy with rfl | hy
    · exact hgap.le
    · have hstop : x.start ≤ x.stop := Std.le_of_lt x.start_lt_stop
      exact Std.le_trans hgap.le (Std.le_trans hstop (ih y hy))

theorem Covers.pairwise {spans rest : List (Span s)} {p : s.Pos} (h : Covers spans p rest) :
    rest.Pairwise fun x y => x.stop ≤ y.start := by
  induction h with
  | done => exact .nil
  | token _ hrest ih => exact .cons hrest.le ih

theorem Covers.skip {spans rest : List (Span s)} {p q : s.Pos} (hlt : p < q)
    (hskip : Skips (Fresh spans p) (textFrom p) (textFrom q)) (h : Covers spans q rest) :
    Covers spans p rest := by
  cases h with
  | done hgap => exact .done (.skip hlt hskip hgap)
  | token hgap hrest => exact .token (.skip hlt hskip hgap) hrest

section Splits
variable {p q : s.Pos} {before part after : String}

theorem lineAt_of_splits (h : p.Splits before after) :
    lineAt p = 1 + before.toList.count '\n' := by
  rw [lineAt, h.copy_sliceTo_eq]

theorem textFrom_of_splits (h : p.Splits before after) : textFrom p = after.toList := by
  rw [textFrom, h.copy_sliceFrom_eq]

theorem exists_splits_behind (h : p.Splits before (part ++ after)) :
    ∃ q : s.Pos, q.Splits (before ++ part) after := by
  have heq : s = before ++ part ++ after := by rw [String.append_assoc, ← h.eq_append]
  exact ⟨_, String.Pos.splits_ofEqAppend heq⟩

theorem lt_of_splits (hp : p.Splits before (part ++ after)) (hq : q.Splits (before ++ part) after)
    (hpart : part ≠ "") : p < q :=
  (hp.lt_iff_exists_eq_append hq).mpr ⟨part, hpart, rfl, rfl⟩

/-- Going on over `part` passes the line feeds in it. -/
theorem lineAt_behind (hp : p.Splits before (part ++ after))
    (hq : q.Splits (before ++ part) after) : lineAt q = lineAt p + part.toList.count '\n' := by
  rw [lineAt_of_splits hp, lineAt_of_splits hq, String.toList_append, List.count_append]
  omega

end Splits

theorem lineAt_mono {p q : s.Pos} (h : p ≤ q) : lineAt p ≤ lineAt q := by
  obtain ⟨part, hq, -⟩ := (p.splits.le_iff_exists_eq_append q.splits).mp h
  rw [lineAt_of_splits p.splits, lineAt_of_splits q.splits, hq, String.toList_append,
    List.count_append]
  omega

/-- A part of a text that is a token by itself. -/
theorem Span.exists_of_splits {p q : s.Pos} {before part after : String}
    (hp : p.Splits before (part ++ after)) (hq : q.Splits (before ++ part) after)
    (hpart : part ≠ "") : ∃ x : Span s, x.start = p ∧ x.stop = q ∧ x.text = part := by
  refine ⟨⟨p, q, lt_of_splits hp hq hpart⟩, rfl, rfl, ?_⟩
  obtain ⟨_, htext⟩ := String.copy_slice_eq_iff_splits.mpr ⟨before, after, hp, hq⟩
  exact htext

theorem Span.text_ne_empty (x : Span s) : x.text ≠ "" := by
  intro hempty
  obtain ⟨before, after, hp, hq⟩ := String.copy_slice_eq_iff_splits.mp ⟨_, hempty⟩
  rw [String.empty_append] at hp
  exact Std.ne_of_lt x.start_lt_stop (hp.pos_eq_of_eq_right hq)

/-- Some tokens make up what is left of a text from a place on; `passed` stand before it. -/
def CoveredBy (passed : List (Span s)) (p : s.Pos) (tokens : List Token) : Prop :=
  ∃ spans : List (Span s), tokens = spans.map Span.token ∧
    (∀ x ∈ spans, '\n' ∉ x.text.toList) ∧ Covers (passed ++ spans) p spans

section Step
variable {passed : List (Span s)} {p q : s.Pos} {tokens : List Token}

theorem CoveredBy.skip {lineStart : Bool} {c : Char} {rest : List Char} {n : Nat}
    (hp : textFrom p = c :: rest) (hq : textFrom q = rest.drop n) (hlt : p < q)
    (hstart : lineStart → ∀ x ∈ passed, lineAt x.start < lineAt p)
    (hskip : skipExtent? lineStart c rest = some n) (h : CoveredBy passed q tokens) :
    CoveredBy passed p tokens := by
  obtain ⟨spans, htokens, hfeed, hcovers⟩ := h
  have hfresh : lineStart → Fresh (passed ++ spans) p := by
    intro hls x hx hline
    rcases List.mem_append.mp hx with hx | hx
    · have := hstart hls x hx
      omega
    · exact Std.le_trans (Std.le_of_lt hlt) (hcovers.le x hx)
  have hskips : Skips (Fresh (passed ++ spans) p) (textFrom p) (textFrom q) := by
    rw [hp, hq]
    exact skips_of_skipExtent? hfresh hskip
  exact ⟨spans, htokens, hfeed, hcovers.skip hlt hskips⟩

theorem CoveredBy.token {x : Span s} (hx : '\n' ∉ x.text.toList)
    (h : CoveredBy (passed ++ [x]) x.stop tokens) :
    CoveredBy passed x.start (x.token :: tokens) := by
  obtain ⟨spans, htokens, hfeed, hcovers⟩ := h
  rw [List.append_assoc, List.singleton_append] at hcovers
  refine ⟨x :: spans, by rw [htokens, List.map_cons], ?_, .token .none hcovers⟩
  intro y hy
  rcases List.mem_cons.mp hy with rfl | hy
  · exact hx
  · exact hfeed y hy

end Step

/-- The segments of what is left of a text from `p` on cover it. Tokens before `p` only matter to
directives: where `lineStart` holds, all of them stand on earlier lines. -/
theorem coveredBy_segments (lineStart : Bool) (cs : List Char) {p : s.Pos} {before : String}
    (hp : p.Splits before (String.ofList cs)) (passed : List (Span s))
    (hpassed : ∀ x ∈ passed, x.start ≤ p)
    (hstart : lineStart → ∀ x ∈ passed, lineAt x.start < lineAt p) :
    CoveredBy passed p (tokensFrom (lineAt p) (segments lineStart cs)) := by
  fun_induction segments lineStart cs generalizing p before passed with
  | case1 lineStart =>
    have hend : p = s.endPos := hp.eq_endPos_iff.mpr rfl
    rw [hend]
    exact ⟨[], rfl, by simp, .done .none⟩
  | case2 lineStart c rest n hskip =>
    rename_i skipped ih
    have htext : textFrom p = c :: rest := by rw [textFrom_of_splits hp, String.toList_ofList]
    have hcut : c :: rest = skipped ++ rest.drop n := by
      show c :: rest = (c :: rest.take n) ++ rest.drop n
      rw [List.cons_append, List.take_append_drop]
    rw [hcut, String.ofList_append] at hp
    obtain ⟨q, hq⟩ := exists_splits_behind hp
    have hlt : p < q := lt_of_splits hp hq (by simp [skipped])
    have hline : lineAt q = lineAt p + skipped.count '\n' := by
      rw [lineAt_behind hp hq, String.toList_ofList]
    have hpassed' : ∀ x ∈ passed, x.start ≤ q := fun x hx =>
      Std.le_trans (hpassed x hx) (Std.le_of_lt hlt)
    have hstart' : lineStart || skipped.contains '\n' →
        ∀ x ∈ passed, lineAt x.start < lineAt q := by
      intro h x hx
      rcases Bool.or_eq_true_iff.mp h with h | h
      · have := hstart h x hx
        omega
      · -- a line feed among the skipped characters leaves all tokens behind
        have hfeed : 0 < skipped.count '\n' := List.count_pos_iff.mpr (List.contains_iff_mem.mp h)
        have := lineAt_mono (hpassed x hx)
        omega
    have hrest := ih hq passed hpassed' hstart'
    have htokens : tokensFrom (lineAt p) (.skipped skipped ::
        segments (lineStart || skipped.contains '\n') (rest.drop n)) =
        tokensFrom (lineAt q) (segments (lineStart || skipped.contains '\n') (rest.drop n)) := by
      rw [hline]
      rfl
    rw [htokens]
    exact hrest.skip htext (by rw [textFrom_of_splits hq, String.toList_ofList]) hlt hstart hskip
  | case3 lineStart c rest hskip =>
    rename_i ih
    have hfeed := noFeed_token hskip
    have hcut : c :: rest = (c :: rest.take (tokenExtent c rest)) ++
        rest.drop (tokenExtent c rest) := by
      rw [List.cons_append, List.take_append_drop]
    generalize hpart : c :: rest.take (tokenExtent c rest) = part at hcut hfeed ⊢
    rw [hcut, String.ofList_append] at hp
    obtain ⟨q, hq⟩ := exists_splits_behind hp
    obtain ⟨x, rfl, rfl, htext⟩ := Span.exists_of_splits hp hq (by simp [← hpart])
    have hline : lineAt x.stop = lineAt x.start := by
      rw [lineAt_behind hp hq, String.toList_ofList, List.count_eq_zero_of_not_mem hfeed,
        Nat.add_zero]
    have hpassed' : ∀ y ∈ passed ++ [x], y.start ≤ x.stop := by
      intro y hy
      have hstop : x.start ≤ x.stop := Std.le_of_lt x.start_lt_stop
      rcases List.mem_append.mp hy with hy | hy
      · exact Std.le_trans (hpassed y hy) hstop
      · rw [List.mem_singleton.mp hy]
        exact hstop
    have hrest := ih hq (passed ++ [x]) hpassed' (fun h => absurd h (by decide))
    have htokens : tokensFrom (lineAt x.start) (.token part ::
        segments false (rest.drop (tokenExtent c rest))) =
        x.token ::
          tokensFrom (lineAt x.stop) (segments false (rest.drop (tokenExtent c rest))) := by
      have hcount : (Segment.token part).chars.count '\n' = 0 :=
        List.count_eq_zero_of_not_mem hfeed
      rw [tokensFrom, hcount, Nat.add_zero, hline, Span.token, htext]
      rfl
    rw [htokens]
    exact hrest.token (by rwa [htext, String.toList_ofList])

/-- The tokens of a source are parts of it, in order, each within a line. Between them, before the
first and behind the last there is nothing but blanks, line continuations, comments, and directives
that no token precedes on their line. -/
theorem tokenize_covers (source : String) : ∃ spans : List (Span source),
    tokenize source = spans.map Span.token ∧
    (∀ x ∈ spans, x.text ≠ "" ∧ '\n' ∉ x.text.toList) ∧
    (spans.Pairwise fun x y => x.stop ≤ y.start ∧ lineAt x.start ≤ lineAt y.start) ∧
    Covers spans source.startPos spans := by
  have hstart : source.startPos.Splits "" (String.ofList source.toList) := by
    rw [String.ofList_toList]
    exact source.splits_startPos
  have hline : lineAt source.startPos = 1 := by
    rw [lineAt_of_splits hstart]
    rfl
  obtain ⟨spans, htokens, hfeed, hcovers⟩ :=
    coveredBy_segments true source.toList hstart [] (by simp) (by simp)
  rw [hline] at htokens
  refine ⟨spans, htokens, fun x hx => ⟨x.text_ne_empty, hfeed x hx⟩, ?_, hcovers⟩
  refine hcovers.pairwise.imp fun {x y} hxy => ⟨hxy, ?_⟩
  exact lineAt_mono (Std.le_trans (Std.le_of_lt x.start_lt_stop) hxy)

end GotoCheck.Source
