import GotoCheck.Proofs.Source.Lines
import GotoCheck.Proofs.Source.Segments
import GotoCheck.Witness.Generator

/-! Snippets. The tokens of one line, written with single spaces between them, are cut into the same
tokens again: no space is needed to keep two of them apart that were apart before, and no line that
held tokens becomes a directive. -/
namespace GotoCheck.Source

/-- The tokens on line `n` of a text that goes on with `cs` on `line`. -/
def tokensOnLine (n line : Nat) (lineStart : Bool) (cs : List Char) : List Token :=
  (tokensFrom line (segments lineStart cs)).filter fun t => t.line == n

/-- The texts of some tokens with spaces between them. -/
def spaced (tokens : List Token) : List Char :=
  [' '].intercalate (tokens.map fun t => t.text.toList)

section TokensOnLine
variable {n line : Nat}

theorem tokensOnLine_of_lt {lineStart : Bool} {cs : List Char} (h : n < line) :
    tokensOnLine n line lineStart cs = [] := by
  refine List.filter_eq_nil_iff.mpr fun t ht => ?_
  have hline := le_line_of_mem_tokensFrom ht
  simp only [beq_iff_eq]
  omega

/-- Where a line ends no more tokens of it follow. -/
theorem tokensOnLine_of_atLineEnd {lineStart : Bool} {cs : List Char} (h : AtLineEnd cs) :
    tokensOnLine line line lineStart cs = [] := by
  rcases h with rfl | h
  · rw [tokensOnLine, segments]
    rfl
  · obtain ⟨after, rfl⟩ := List.head?_eq_some_iff.mp h
    have hpassed : tokensOnLine line line lineStart ('\n' :: after) =
        tokensOnLine line (line + 1) true after := by
      rw [tokensOnLine, tokensFrom_feed]
      rfl
    rw [hpassed]
    exact tokensOnLine_of_lt (Nat.lt_succ_self line)

end TokensOnLine

/-- The texts of some tokens, each behind a space. -/
def trailing (tokens : List Token) : List Char := tokens.flatMap fun t => ' ' :: t.text.toList

theorem apart_trailing (tokens : List Token) : Apart (trailing tokens) := by
  cases tokens with
  | nil => exact .inl rfl
  | cons t rest => exact .inr rfl

theorem spaced_cons (t : Token) (rest : List Token) :
    spaced (t :: rest) = t.text.toList ++ trailing rest := by
  induction rest generalizing t with
  | nil => simp [spaced, trailing]
  | cons u rest ih =>
    calc spaced (t :: u :: rest)
        = t.text.toList ++ ' ' :: spaced (u :: rest) := by simp [spaced]
      _ = t.text.toList ++ trailing (u :: rest) := by rw [ih u]; rfl

theorem tokensFrom_trailing (line : Nat) (tokens : List Token) :
    tokensFrom line (segments false (trailing tokens)) =
      tokensFrom line (segments false (spaced tokens)) := by
  cases tokens with
  | nil => rfl
  | cons t rest =>
    have hblank : Text.isBlank ' ' := by decide
    have htrailing : trailing (t :: rest) = ' ' :: spaced (t :: rest) := by
      rw [spaced_cons]
      rfl
    rw [htrailing, tokensFrom_blank line hblank (by decide)]

/-- A token and spaced tokens behind it are cut apart again. -/
theorem tokensFrom_token_trailing {lineStart : Bool} {c : Char} {rest : List Char} (line : Nat)
    {tokens : List Token} (h : skipExtent? lineStart c rest = none)
    (hend : tokens = [] ∨ ¬AtLineEnd (rest.drop (tokenExtent c rest))) :
    tokensFrom line
        (segments lineStart (c :: (rest.take (tokenExtent c rest) ++ trailing tokens))) =
      ⟨String.ofList (c :: rest.take (tokenExtent c rest)), line⟩ ::
        tokensFrom line (segments false (spaced tokens)) := by
  have hr : Apart (trailing tokens) := apart_trailing tokens
  have hlast : trailing tokens = [] ∨ ¬AtLineEnd (rest.drop (tokenExtent c rest)) :=
    hend.imp_left fun h => by rw [h]; rfl
  have hskip := skipExtent?_take_append (tokenExtent c rest) hr h
  have hextent := tokenExtent_take_append hr hlast
  have hlength : (rest.take (tokenExtent c rest)).length = tokenExtent c rest :=
    List.length_take_of_le (tokenExtent_le c rest)
  rw [segments_of_token hskip, hextent, List.take_left' hlength, List.drop_left' hlength,
    tokensFrom_token (noFeed_token h), tokensFrom_trailing]

section Cut
variable {lineStart : Bool} {c : Char} {rest : List Char}

theorem tokensOnLine_of_skip {n line k : Nat} (h : skipExtent? lineStart c rest = some k) :
    tokensOnLine n line lineStart (c :: rest) =
      tokensOnLine n (line + (c :: rest.take k).count '\n')
        (lineStart || (c :: rest.take k).contains '\n') (rest.drop k) := by
  rw [tokensOnLine, segments_of_skip h, tokensFrom_skipped]
  rfl

theorem tokensOnLine_of_token {n line : Nat} (h : skipExtent? lineStart c rest = none) :
    tokensOnLine n line lineStart (c :: rest) =
      if line = n then ⟨String.ofList (c :: rest.take (tokenExtent c rest)), line⟩ ::
        tokensOnLine n line false (rest.drop (tokenExtent c rest))
      else tokensOnLine n line false (rest.drop (tokenExtent c rest)) := by
  rw [tokensOnLine, segments_of_token h, tokensFrom_token (noFeed_token h), List.filter_cons]
  simp only [beq_iff_eq]
  rfl

end Cut

/-- The tokens on line `n`, spaced, are cut into themselves. What is known of the line's start is
needed on the first line only: later lines are reached over a line feed. -/
theorem tokensFrom_spaced (n m line : Nat) (lineStart : Bool) (cs : List Char) :
    tokensFrom m (segments (if n = line then lineStart else true)
        (spaced (tokensOnLine n line lineStart cs))) =
      (tokensOnLine n line lineStart cs).map fun t => { t with line := m } := by
  have hnone (flag : Bool) : tokensFrom m (segments flag (spaced [])) = [] := by
    rw [spaced, List.map_nil, List.intercalate_nil, segments]
    rfl
  fun_induction segments lineStart cs generalizing line with
  | case1 lineStart =>
    have hempty : tokensOnLine n line lineStart [] = [] := by
      rw [tokensOnLine, segments]
      rfl
    rw [hempty, hnone]
    rfl
  | case2 lineStart c rest k hskip =>
    rename_i part ih
    have hpassed : tokensOnLine n line lineStart (c :: rest) =
        tokensOnLine n (line + part.count '\n') (lineStart || part.contains '\n')
          (rest.drop k) := tokensOnLine_of_skip hskip
    have hrest := ih (line + part.count '\n')
    rw [hpassed]
    by_cases hfeed : part.count '\n' = 0
    · -- the same line goes on, with what is known of its start
      have hcontains : part.contains '\n' = false := by
        simpa using List.count_eq_zero.mp hfeed
      rw [hfeed, hcontains, Bool.or_false] at hrest ⊢
      exact hrest
    · have hcontains : part.contains '\n' = true := by
        exact List.contains_iff_mem.mpr (List.count_pos_iff.mp (Nat.pos_of_ne_zero hfeed))
      by_cases hn : n = line
      · have hlt : n < line + part.count '\n' := by omega
        rw [tokensOnLine_of_lt hlt, hnone]
        rfl
      · rw [hcontains, Bool.or_true, ite_self] at hrest
        rw [hcontains, Bool.or_true, if_neg hn]
        exact hrest
  | case3 lineStart c rest hskip =>
    rename_i ih
    rw [tokensOnLine_of_token hskip]
    by_cases hn : line = n
    · subst hn
      rw [if_pos rfl, if_pos rfl, spaced_cons, String.toList_ofList, List.cons_append]
      have hend : tokensOnLine line line false (rest.drop (tokenExtent c rest)) = [] ∨
          ¬AtLineEnd (rest.drop (tokenExtent c rest)) := by
        by_cases h : AtLineEnd (rest.drop (tokenExtent c rest))
        · exact .inl (tokensOnLine_of_atLineEnd h)
        · exact .inr h
      have hrest := ih line
      rw [if_pos rfl] at hrest
      rw [tokensFrom_token_trailing m hskip hend, hrest, List.map_cons]
    · have hrest := ih line
      rw [if_neg hn, if_neg (Ne.symm hn)]
      rwa [if_neg (Ne.symm hn)] at hrest

/-- The texts of the tokens on a line, with spaces between them, are cut into these tokens. -/
theorem texts_tokenize_intercalate (source : String) (n : Nat) :
    (tokenize (" ".intercalate ((tokensOn n (byLine (tokenize source))).map Prod.snd))).map
        Token.text =
      (tokensOn n (byLine (tokenize source))).map Prod.snd := by
  have htexts := texts_tokensOn_byLine n (tokenize source)
  have hspaced : (" ".intercalate ((tokensOn n (byLine (tokenize source))).map Prod.snd)).toList =
      spaced (tokensOnLine n 1 true source.toList) := by
    rw [htexts, String.toList_intercalate, List.map_map]
    rfl
  have hcut := tokensFrom_spaced n 1 1 true source.toList
  rw [ite_self] at hcut
  calc (tokenize _).map Token.text
      = (tokensFrom 1 (segments true (spaced (tokensOnLine n 1 true source.toList)))).map
          Token.text := by rw [tokenize, hspaced]
    _ = (tokensOnLine n 1 true source.toList).map Token.text := by
        rw [hcut, List.map_map]
        rfl
    _ = (tokensOn n (byLine (tokenize source))).map Prod.snd := htexts.symm

/-- The source code that a witness shows of a line has the tokens of that line. -/
theorem tokenize_codeText (source : String) (n : Nat)
    (h : tokensOn n (byLine (tokenize source)) ≠ []) :
    ∃ code, WitnessNotes.codeText (tokensOn n (byLine (tokenize source))) = some code ∧
      (tokenize code).map Token.text = (tokensOn n (byLine (tokenize source))).map Prod.snd :=
  ⟨_, if_neg (by simpa using h), texts_tokenize_intercalate source n⟩

/-- A line that starts behind a comment and ends in a literal that nothing closes. On it stand a
slash before a star, a `#` and an exponent without a sign. -/
def openLiteral : String := "#if x\n/* a\n */p = q/ *r # L\"a  b\" 1e 'c\\\n"

theorem code_of_openLiteral :
    tokensOn 3 (byLine (tokenize openLiteral)) ≠ [] ∧
      (tokenize "p = q / * r # L\"a  b\" 1e 'c\\").map Token.text =
        ["p", "=", "q", "/", "*", "r", "#", "L\"a  b\"", "1e", "'c\\"] := by
  have htokens : tokensOn 3 (byLine (tokenize openLiteral)) = [(1, "p"), (2, "="), (3, "q"),
      (4, "/"), (5, "*"), (6, "r"), (7, "#"), (8, "L\"a  b\""), (9, "1e"), (10, "'c\\")] := by
    decide +kernel
  have hsome : tokensOn 3 (byLine (tokenize openLiteral)) ≠ [] := by
    rw [htokens]
    exact List.cons_ne_nil _ _
  obtain ⟨code, hcode, htexts⟩ := tokenize_codeText openLiteral 3 hsome
  rw [htokens] at hcode htexts
  have hwritten : code = "p = q / * r # L\"a  b\" 1e 'c\\" := by
    apply Option.some.inj
    rw [← hcode]
    decide
  rw [hwritten] at htexts
  exact ⟨hsome, htexts⟩

end GotoCheck.Source
