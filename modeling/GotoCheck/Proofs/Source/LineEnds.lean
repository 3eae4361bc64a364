import GotoCheck.Proofs.Source.Directive
import GotoCheck.Proofs.Source.Returned

/-! Line ends. A carriage return before a line feed is a blank, so it changes no token; but it parts
a backslash from the end of its line, which then is not continued. -/
namespace GotoCheck.Source

section Continuation
variable {lineStart : Bool} {rest : List Char}

theorem skipExtent?_backslash (h : rest.head? ≠ some '\n') :
    skipExtent? lineStart '\\' rest = none := by
  have hblank : Text.isBlank '\\' = false := by decide
  exact skipExtent?_eq_none_iff.mpr ⟨hblank, by simp, fun _ => h, by simp⟩

theorem tokenExtent_backslash : tokenExtent '\\' rest = 0 := by
  have hquote : ¬isQuote '\\' := by decide
  have hnumber : ¬startsNumber '\\' rest := by
    have hdigit : '\\'.isDigit = false := by decide
    simp [startsNumber, hdigit]
  have hword : ¬isWordStart '\\' := by decide +kernel
  have hnone : punctuators.find? (isPunctuatorOf ('\\' :: rest)) = none := by
    have hstart : ∀ p ∈ punctuators, p.toList.head? ≠ some '\\' := by decide
    cases hp : punctuators.find? (isPunctuatorOf ('\\' :: rest)) with
    | none => rfl
    | some p =>
      have hhead := hstart p (List.mem_of_find?_eq_some hp)
      rw [toList_of_find?_punctuators hp] at hhead
      exact absurd rfl hhead
  rw [tokenExtent, if_neg hquote, if_neg hnumber, if_neg hword, punctuatorExtent_eq, hnone]
  rfl

theorem tokensFrom_returned_continuation (line : Nat) (after : List Char) :
    tokensFrom line (segments lineStart (returned ('\\' :: '\n' :: after))) =
      ⟨"\\", line⟩ :: tokensFrom (line + 1) (segments true (returned after)) := by
  have hskip : skipExtent? lineStart '\\' (returned ('\n' :: after)) = none :=
    skipExtent?_backslash head?_returned_ne_feed
  rw [returned_cons (by decide), segments_of_token hskip, tokenExtent_backslash, List.take_zero,
    List.drop_zero, tokensFrom_token (by decide), tokensFrom_returned_feed]

end Continuation

namespace Segment
variable {part : List Char}

/-- A line continuation that stands in no directive, comment or literal. -/
def isContinuation : Segment → Bool
  | skipped part => part = ['\\', '\n']
  | token _ => false

/-- What a segment becomes when its lines end in returns: the backslash of a continuation shows. -/
def unspliced (s : Segment) : List Segment :=
  if s.isContinuation then [token ['\\'], skipped ['\n']] else [s]

theorem unspliced_token : (token part).unspliced = [token part] := rfl

theorem unspliced_skipped (h : part ≠ ['\\', '\n']) :
    (skipped part).unspliced = [skipped part] :=
  if_neg (by simpa [isContinuation] using h)

theorem ne_continuation {c : Char} {rest : List Char} {n : Nat}
    (h : ¬(c = '\\' ∧ rest.head? = some '\n')) : c :: rest.take n ≠ ['\\', '\n'] := by
  intro hpart
  obtain ⟨hc, htake⟩ := List.cons.inj hpart
  have hhead : (rest.take n).head? = some '\n' := by rw [htake]; rfl
  rw [List.head?_take] at hhead
  split at hhead
  · cases hhead
  · exact h ⟨hc, hhead⟩

theorem countP_flatMap_unspliced (parts : List Segment) :
    (parts.flatMap unspliced).countP isToken =
      parts.countP isToken + parts.countP isContinuation := by
  induction parts with
  | nil => rfl
  | cons s parts ih =>
    have hs : s.unspliced.countP isToken = [s].countP isToken + [s].countP isContinuation := by
      cases s with
      | token part => rfl
      | skipped part =>
        by_cases h : part = ['\\', '\n']
        · subst h
          rfl
        · rw [unspliced_skipped h]
          simp [isToken, isContinuation, h]
    have hcons (p : Segment → Bool) : (s :: parts).countP p = [s].countP p + parts.countP p := by
      rw [← List.countP_append, List.singleton_append]
    rw [List.flatMap_cons, List.countP_append, ih, hs, hcons, hcons]
    omega

theorem flatMap_unspliced_of_forall {parts : List Segment}
    (h : ∀ s ∈ parts, ¬s.isContinuation) : parts.flatMap unspliced = parts := by
  induction parts with
  | nil => rfl
  | cons s parts ih =>
    obtain ⟨hs, hparts⟩ := List.forall_mem_cons.mp h
    rw [List.flatMap_cons, ih hparts, unspliced, if_neg hs]
    rfl

end Segment

/-- Carriage returns let line continuations show as tokens, and change nothing else. -/
theorem tokensFrom_returned (line : Nat) (lineStart : Bool) (cs : List Char)
    (hliterals : ∀ text, .token text ∈ segments lineStart cs → LiteralClosed text)
    (hdirectives : ∀ part, .skipped ('#' :: part) ∈ segments lineStart cs →
      ¬['\\', '\n'] <:+: part) :
    tokensFrom line (segments lineStart (returned cs)) =
      tokensFrom line ((segments lineStart cs).flatMap Segment.unspliced) := by
  fun_induction segments lineStart cs generalizing line with
  | case1 lineStart =>
    rw [returned, List.flatMap_nil, segments]
    rfl
  | case2 lineStart c rest n hskip =>
    rename_i part ih
    have hrest := ih (line + part.count '\n')
      (fun text ht => hliterals text (List.mem_cons_of_mem _ ht))
      (fun part' hp => hdirectives part' (List.mem_cons_of_mem _ hp))
    rw [List.flatMap_cons]
    by_cases hfeed : c = '\n'
    · -- the return is a blank of its own, before the line feed
      subst hfeed
      have hblank : Text.isBlank '\n' := by decide
      obtain rfl : 0 = n := by simpa [skipExtent?_of_isBlank hblank] using hskip
      have hcontains : (lineStart || part.contains '\n') = true := by simp [part]
      rw [hcontains] at hrest ⊢
      rw [tokensFrom_returned_feed]
      exact hrest
    by_cases hcontinuation : c = '\\' ∧ rest.head? = some '\n'
    · -- the return parts the backslash from its line feed, so a token starts here
      obtain ⟨rfl, hhead⟩ := hcontinuation
      obtain ⟨after, rfl⟩ := List.head?_eq_some_iff.mp hhead
      obtain rfl : 1 = n := by simpa [skipExtent?] using hskip
      have hcontains : (lineStart || part.contains '\n') = true := by simp [part]
      rw [hcontains] at hrest ⊢
      rw [tokensFrom_returned_continuation]
      exact congrArg _ hrest
    · have hdirective : c = '#' → ¬['\\', '\n'] <:+: rest.take n := by
        rintro rfl
        exact hdirectives _ List.mem_cons_self
      obtain ⟨m, hskip', hreach⟩ :=
        exists_skipExtent?_returned hfeed hskip hcontinuation hdirective
      rw [returned_cons hfeed, tokensFrom_returned_of_skip line hskip' hreach,
        Segment.unspliced_skipped (Segment.ne_continuation hcontinuation), List.singleton_append,
        tokensFrom_skipped]
      exact hrest
  | case3 lineStart c rest hskip =>
    rename_i ih
    have hrest := ih line (fun text ht => hliterals text (List.mem_cons_of_mem _ ht))
      (fun part hp => hdirectives part (List.mem_cons_of_mem _ hp))
    rw [tokensFrom_returned_of_token line hskip (hliterals _ List.mem_cons_self), hrest,
      List.flatMap_cons, Segment.unspliced_token, List.singleton_append,
      tokensFrom_token (noFeed_token hskip)]

/-- Where literals are closed and no directive is continued, the tokens are the same with carriage
returns at the line ends exactly when no line is continued between them. -/
theorem tokenize_returned_iff {s : String}
    (hliterals : ∀ t ∈ tokenize s, LiteralClosed t.text.toList)
    (hdirectives : ∀ part, .skipped ('#' :: part) ∈ segments true s.toList →
      ¬['\\', '\n'] <:+: part) :
    tokenize (.ofList (returned s.toList)) = tokenize s ↔
      ∀ part ∈ segments true s.toList, ¬part.isContinuation := by
  have hclosed : ∀ text, .token text ∈ segments true s.toList → LiteralClosed text := by
    intro text htext
    obtain ⟨t, ht, rfl⟩ := exists_mem_tokensFrom 1 htext
    exact hliterals t ht
  have hreturned := tokensFrom_returned 1 true s.toList hclosed hdirectives
  rw [tokenize, tokenize, String.toList_ofList, hreturned]
  constructor
  · intro h
    -- each continuation is one token more
    have hlength := congrArg List.length h
    rw [length_tokensFrom, length_tokensFrom, Segment.countP_flatMap_unspliced] at hlength
    exact List.countP_eq_zero.mp (by omega)
  · intro h
    rw [Segment.flatMap_unspliced_of_forall h]

/-- Literals with quotes and backslashes, comments over a line end and before one with a backslash,
and directives of one line. -/
def closedSource : String := "#if X // a\nx /* \n*/ = u8\"\\\"\"; // y\\\n#\n'\\''"

theorem tokenize_returned_closedSource :
    (∀ t ∈ tokenize closedSource, LiteralClosed t.text.toList) ∧
      (∀ part, .skipped ('#' :: part) ∈ segments true closedSource.toList →
        ¬['\\', '\n'] <:+: part) ∧
      tokenize (.ofList (returned closedSource.toList)) = tokenize closedSource := by
  have htokens : tokenize closedSource =
      [⟨"x", 2⟩, ⟨"=", 3⟩, ⟨"u8\"\\\"\"", 3⟩, ⟨";", 3⟩, ⟨"'\\''", 5⟩] := by decide +kernel
  have hliterals : ∀ t ∈ tokenize closedSource, LiteralClosed t.text.toList := by
    rw [htokens]
    simp only [List.forall_mem_cons]
    refine ⟨literalClosed_of_noQuote (by decide), literalClosed_of_noQuote (by decide),
      ?_, literalClosed_of_noQuote (by decide), ?_, by simp⟩
    · exact @literalClosed_literal '"' ['u', '8'] ['\\', '"'] (by decide) (by decide)
        (.escape (by decide) .nil)
    · exact @literalClosed_literal '\'' [] ['\\', '\''] (by decide) (by decide)
        (.escape (by decide) .nil)
  have hdirectives : ∀ part, .skipped ('#' :: part) ∈ segments true closedSource.toList →
      ¬['\\', '\n'] <:+: part := by
    have hmarked : ∀ x ∈ segments true closedSource.toList, x.chars.head? = some '#' →
        '\\' ∉ x.chars := by
      decide +kernel
    intro part hpart hin
    exact hmarked _ hpart rfl (List.mem_cons_of_mem _ (hin.subset List.mem_cons_self))
  have hspliced : ∀ part ∈ segments true closedSource.toList, ¬part.isContinuation := by
    decide +kernel
  exact ⟨hliterals, hdirectives, (tokenize_returned_iff hliterals hdirectives).mpr hspliced⟩

/-- Behind a carriage return a directive ends with its line, also where a backslash stands there. -/
theorem tokenize_returned_directive {d : String} (hmark : d.toList.head? = some '#')
    (hfeed : '\n' ∉ d.toList) (hclosed : CommentsClosed d.toList) (source : String) :
    tokenize (.ofList (returned (d ++ "\n" ++ source).toList)) =
      (tokenize (.ofList (returned source.toList))).map Token.below := by
  obtain ⟨rest, hd⟩ := List.head?_eq_some_iff.mp hmark
  rw [hd] at hfeed hclosed
  have hrest : '\n' ∉ rest ++ ['\r'] := by
    simpa using fun h => hfeed (List.mem_cons_of_mem _ h)
  have hlast : ¬['\\'] <:+ rest ++ ['\r'] := by
    rintro ⟨front, hfront⟩
    have hend := (List.append_inj' hfront rfl).2
    cases hend
  have hcomments := ((commentsClosed_cons_iff (by decide)).mp hclosed).concat
    (show '\r' ≠ '*' by decide)
  have hextent := hcomments.directiveExtent_eq hrest hlast (returned source.toList)
  have htext : returned (d ++ "\n" ++ source).toList =
      '#' :: ((rest ++ ['\r']) ++ '\n' :: returned source.toList) := by
    have hline : (d ++ "\n" ++ source).toList = ('#' :: rest) ++ '\n' :: source.toList := by
      simp [hd]
    rw [hline, returned_append, returned_eq_self hfeed, returned_feed]
    simp
  rw [tokenize, String.toList_ofList, htext, tokensFrom_directive, hextent, List.take_left,
    List.drop_left, List.count_eq_zero_of_not_mem hrest, tokensFrom_feed, tokensFrom_succ,
    tokenize, String.toList_ofList]

/-- A macro over two lines. -/
def longMacro : String := "#define M(x) \\" ++ "\n" ++ "  (x + 1)\nint a;"

/-- With carriage returns its second line is none of the directive. -/
theorem returned_longMacro :
    '\r' ∉ longMacro.toList ∧ (∀ t ∈ tokenize longMacro, LiteralClosed t.text.toList) ∧
      tokenize (.ofList (returned longMacro.toList)) ≠ tokenize longMacro := by
  have htokens : tokenize longMacro = [⟨"int", 3⟩, ⟨"a", 3⟩, ⟨";", 3⟩] := by decide +kernel
  have hclosed : CommentsClosed "#define M(x) \\".toList := by
    repeat refine .char (by decide) ?_
    exact .nil
  have hreturned : tokenize (.ofList (returned longMacro.toList)) =
      (tokenize (.ofList (returned "  (x + 1)\nint a;".toList))).map Token.below :=
    tokenize_returned_directive (by decide) (by decide) hclosed _
  have hbehind : tokenize (.ofList (returned "  (x + 1)\nint a;".toList)) = [⟨"(", 1⟩, ⟨"x", 1⟩,
      ⟨"+", 1⟩, ⟨"1", 1⟩, ⟨")", 1⟩, ⟨"int", 2⟩, ⟨"a", 2⟩, ⟨";", 2⟩] := by decide +kernel
  refine ⟨by decide, ?_, ?_⟩
  · rw [htokens]
    simp only [List.forall_mem_cons]
    exact ⟨literalClosed_of_noQuote (by decide), literalClosed_of_noQuote (by decide),
      literalClosed_of_noQuote (by decide), by simp⟩
  · rw [hreturned, hbehind, htokens]
    intro h
    have hlength := congrArg List.length h
    contradiction

end GotoCheck.Source
