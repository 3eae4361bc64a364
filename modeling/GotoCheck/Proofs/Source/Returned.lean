import Mathlib.Data.List.Find
import GotoCheck.Proofs.Source.Segments

/-! Texts with carriage returns before their line feeds. Each part of a text reaches as far as
without them: a token over the same characters, and what is skipped perhaps over the return at the
end of its line. -/
namespace GotoCheck.Source

/-- A text with a carriage return before each line feed. -/
def returned (cs : List Char) : List Char :=
  cs.flatMap fun c => if c = '\n' then ['\r', '\n'] else [c]

section Returned
variable {c d : Char} {cs : List Char}

theorem returned_feed (cs : List Char) : returned ('\n' :: cs) = '\r' :: '\n' :: returned cs := rfl

theorem returned_cons (hc : c ≠ '\n') : returned (c :: cs) = c :: returned cs := by
  simp [returned, hc]

theorem returned_append (cs ds : List Char) : returned (cs ++ ds) = returned cs ++ returned ds :=
  List.flatMap_append

theorem returned_eq_self (h : '\n' ∉ cs) : returned cs = cs := by
  induction cs with
  | nil => rfl
  | cons c cs ih =>
    obtain ⟨hc, hcs⟩ := not_or.mp (mt List.mem_cons.mpr h)
    rw [returned_cons (Ne.symm hc), ih hcs]

theorem count_returned (cs : List Char) : (returned cs).count '\n' = cs.count '\n' := by
  induction cs with
  | nil => rfl
  | cons c cs ih =>
    by_cases hc : c = '\n'
    · subst hc
      rw [returned_feed, List.count_cons_of_ne (by decide), List.count_cons_self,
        List.count_cons_self, ih]
    · rw [returned_cons hc, List.count_cons_of_ne hc, List.count_cons_of_ne hc, ih]

theorem contains_returned (cs : List Char) :
    (returned cs).contains '\n' = cs.contains '\n' := by
  rw [Bool.eq_iff_iff, List.contains_iff_mem, List.contains_iff_mem, ← List.count_pos_iff,
    count_returned, List.count_pos_iff]

theorem head?_returned_ne_feed : (returned cs).head? ≠ some '\n' := by
  cases cs with
  | nil => simp [returned]
  | cons c cs =>
    by_cases hc : c = '\n'
    · subst hc
      simp [returned_feed]
    · simp [returned_cons hc, hc]

/-- The first character of a text, if that is none of a line end, is still the first. -/
theorem head?_returned (hfeed : d ≠ '\n') (hreturn : d ≠ '\r') :
    (returned cs).head? = some d ↔ cs.head? = some d := by
  cases cs with
  | nil => rfl
  | cons c cs =>
    by_cases hc : c = '\n'
    · subst hc
      simp [returned_feed, Ne.symm hfeed, Ne.symm hreturn]
    · simp [returned_cons hc]

/-- Two characters that do not start a text do not start it with returns. -/
theorem not_pair_returned {e : Char} (hfeed : e ≠ '\n') (hreturn : e ≠ '\r')
    (h : ∀ after, c = d → cs = e :: after → False) :
    ¬(c = d ∧ (returned cs).head? = some e) := by
  rintro ⟨hc, hhead⟩
  obtain ⟨after, hafter⟩ := List.head?_eq_some_iff.mp ((head?_returned hfeed hreturn).mp hhead)
  exact h after hc hafter

theorem any_head?_returned {p : Char → Bool} (hfeed : p '\n' = false) (hreturn : p '\r' = false) :
    (returned cs).head?.any p = cs.head?.any p := by
  cases cs with
  | nil => rfl
  | cons c cs =>
    by_cases hc : c = '\n'
    · subst hc
      simp [returned_feed, hfeed, hreturn]
    · simp [returned_cons hc]

/-- A text without line ends starts both texts or none. -/
theorem prefix_returned_iff {p : List Char} (hfeed : '\n' ∉ p) (hreturn : '\r' ∉ p) :
    p <+: returned cs ↔ p <+: cs := by
  induction p generalizing cs with
  | nil => simp
  | cons d p ih =>
    obtain ⟨hd, hp⟩ := not_or.mp (mt List.mem_cons.mpr hfeed)
    obtain ⟨hd', hp'⟩ := not_or.mp (mt List.mem_cons.mpr hreturn)
    cases cs with
    | nil => rfl
    | cons c cs =>
      by_cases hc : c = '\n'
      · subst hc
        simp [returned_feed, List.cons_prefix_cons, Ne.symm hd, Ne.symm hd']
      · rw [returned_cons hc, List.cons_prefix_cons, List.cons_prefix_cons, ih hp hp']

end Returned

/-- A part reaches `n` characters into a text and `m` into the text with carriage returns: over the
same ones, and perhaps over the return at the end of its line. -/
def ReachesAlike (n m : Nat) (rest : List Char) : Prop :=
  m = (returned (rest.take n)).length ∨
    (rest.drop n).head? = some '\n' ∧ m = (returned (rest.take n)).length + 1

section ReachesAlike
variable {n m : Nat} {c : Char} {rest : List Char}

theorem ReachesAlike.zero (rest : List Char) : ReachesAlike 0 0 rest := .inl rfl

theorem ReachesAlike.atFeed (rest : List Char) : ReachesAlike 0 1 ('\n' :: rest) := .inr ⟨rfl, rfl⟩

theorem ReachesAlike.cons (h : ReachesAlike n m rest) (hc : c ≠ '\n') :
    ReachesAlike (n + 1) (m + 1) (c :: rest) := by
  have hlength : (returned ((c :: rest).take (n + 1))).length =
      (returned (rest.take n)).length + 1 := by
    rw [List.take_succ_cons, returned_cons hc, List.length_cons]
  rcases h with rfl | ⟨hend, rfl⟩
  · exact .inl hlength.symm
  · exact .inr ⟨hend, by rw [hlength]⟩

theorem ReachesAlike.feed (h : ReachesAlike n m rest) :
    ReachesAlike (n + 1) (m + 2) ('\n' :: rest) := by
  have hlength : (returned (('\n' :: rest).take (n + 1))).length =
      (returned (rest.take n)).length + 2 := by
    rw [List.take_succ_cons, returned_feed, List.length_cons, List.length_cons]
  rcases h with rfl | ⟨hend, rfl⟩
  · exact .inl hlength.symm
  · exact .inr ⟨hend, by rw [hlength]⟩

theorem reachesAlike_line (rest : List Char) :
    ReachesAlike (lineExtent rest) (lineExtent (returned rest)) rest := by
  induction rest with
  | nil => exact .zero []
  | cons c rest ih =>
    by_cases hc : c = '\n'
    · subst hc
      exact .atFeed rest
    · rw [returned_cons hc, lineExtent_cons hc, lineExtent_cons hc]
      exact ih.cons hc

theorem reachesAlike_comment (rest : List Char) :
    ReachesAlike (commentExtent rest) (commentExtent (returned rest)) rest := by
  fun_induction commentExtent rest with
  | case1 => exact .zero []
  | case2 after => exact ((ReachesAlike.zero after).cons (by decide)).cons (by decide)
  | case3 c rest hclose ih =>
    by_cases hc : c = '\n'
    · subst hc
      rw [returned_feed, commentExtent_cons (by simp), commentExtent_cons (by simp)]
      exact ih.feed
    · have hclose := not_pair_returned (by decide) (by decide) hclose
      rw [returned_cons hc, commentExtent_cons hclose]
      exact ih.cons hc

/-- Directives too, if they are not continued. -/
theorem reachesAlike_directive (inComment : Bool) (rest : List Char)
    (hcontinued : ¬['\\', '\n'] <:+: rest.take (directiveExtent inComment rest)) :
    ReachesAlike (directiveExtent inComment rest) (directiveExtent inComment (returned rest))
      rest := by
  fun_induction directiveExtent inComment rest with
  | case1 inComment => exact .zero []
  | case2 rest ih =>
    exact ((ih (mt List.infix_cons (mt List.infix_cons hcontinued))).cons (by decide)).cons
      (by decide)
  | case3 c rest hclose ih =>
    have ih := ih (mt List.infix_cons hcontinued)
    by_cases hc : c = '\n'
    · subst hc
      rw [returned_feed, directiveExtent_inside (by simp), directiveExtent_inside (by simp)]
      exact ih.feed
    · have hclose := not_pair_returned (by decide) (by decide) hclose
      rw [returned_cons hc, directiveExtent_inside hclose]
      exact ih.cons hc
  | case4 rest => exact .atFeed rest
  | case5 rest ih =>
    -- a return would end the directive here, while the line feed alone continues it
    exact absurd ⟨[], _, rfl⟩ hcontinued
  | case6 rest ih =>
    exact ((ih (mt List.infix_cons (mt List.infix_cons hcontinued))).cons (by decide)).cons
      (by decide)
  | case7 c rest hfeed _ hcomment ih =>
    have hend : ¬(c = '\\' ∧ (returned rest).head? = some '\n') := fun h =>
      head?_returned_ne_feed h.2
    have hopen := not_pair_returned (by decide) (by decide) hcomment
    rw [returned_cons hfeed, directiveExtent_cons hfeed hend hopen]
    exact (ih (mt List.infix_cons hcontinued)).cons hfeed

/-- Where something is skipped, it is skipped in both texts, but for continuations. -/
theorem exists_skipExtent?_returned {lineStart : Bool} (hc : c ≠ '\n')
    (hskip : skipExtent? lineStart c rest = some n)
    (hcontinuation : ¬(c = '\\' ∧ rest.head? = some '\n'))
    (hdirective : c = '#' → ¬['\\', '\n'] <:+: rest.take n) :
    ∃ m, skipExtent? lineStart c (returned rest) = some m ∧ ReachesAlike n m rest := by
  unfold skipExtent? at hskip
  split at hskip
  · exact absurd ⟨rfl, rfl⟩ hcontinuation
  · cases hskip
    exact ⟨_, rfl, (reachesAlike_line _).cons (by decide)⟩
  · cases hskip
    exact ⟨_, rfl, (reachesAlike_comment _).cons (by decide)⟩
  · split at hskip
    · rename_i hstart
      cases hskip
      refine ⟨directiveExtent false (returned rest), ?_, reachesAlike_directive false _
        (hdirective rfl)⟩
      simp [skipExtent?, hstart]
    · cases hskip
  · split at hskip
    · rename_i hblank
      cases hskip
      exact ⟨0, skipExtent?_of_isBlank hblank, .zero rest⟩
    · cases hskip

/-- A part that is skipped in both texts leaves the same of them. -/
theorem tokensFrom_returned_of_skip {lineStart : Bool} (line : Nat)
    (hskip : skipExtent? lineStart c (returned rest) = some m) (hreach : ReachesAlike n m rest) :
    tokensFrom line (segments lineStart (c :: returned rest)) =
      tokensFrom (line + (c :: rest.take n).count '\n')
        (segments (lineStart || (c :: rest.take n).contains '\n') (returned (rest.drop n))) := by
  have hcut : returned rest = returned (rest.take n) ++ returned (rest.drop n) := by
    rw [← returned_append, List.take_append_drop]
  rw [segments_of_skip hskip, tokensFrom_skipped, List.count_cons, List.count_cons,
    List.contains_cons, List.contains_cons]
  rcases hreach with rfl | ⟨hend, rfl⟩
  · rw [hcut, List.take_left, List.drop_left, count_returned, contains_returned]
  · -- the return behind the part is a blank before the end of the line
    obtain ⟨after, hafter⟩ := List.head?_eq_some_iff.mp hend
    rw [hafter, returned_feed] at hcut
    have htake : (returned rest).take ((returned (rest.take n)).length + 1) =
        returned (rest.take n) ++ ['\r'] := by
      rw [hcut, List.take_length_add_append]
      rfl
    have hdrop : (returned rest).drop ((returned (rest.take n)).length + 1) =
        '\n' :: returned after := by
      rw [hcut, List.drop_length_add_append]
      rfl
    have hblank : Text.isBlank '\r' := by decide
    rw [htake, hdrop, hafter, returned_feed, tokensFrom_blank _ hblank (by decide),
      List.count_append, count_returned, ← contains_returned (rest.take n)]
    simp

end ReachesAlike

/-- A literal, perhaps behind its encoding, ends in the quote that opens it. -/
def LiteralClosed (text : List Char) : Prop :=
  ∀ quote rest, text.dropWhile (!isQuote ·) = quote :: rest →
    ∃ body, rest = body ++ [quote] ∧ Quotable quote body

section Token
variable {c quote : Char} {word body text rest : List Char}

theorem literalClosed_of_noQuote (h : text.any isQuote = false) : LiteralClosed text := by
  intro quote rest hrest
  have hnone : text.dropWhile (!isQuote ·) = [] := List.dropWhile_eq_nil_iff.mpr (by simpa using h)
  rw [hnone] at hrest
  cases hrest

theorem dropWhile_literal (hword : word.any isQuote = false) (hquote : isQuote quote) :
    (word ++ quote :: rest).dropWhile (!isQuote ·) = quote :: rest := by
  rw [List.dropWhile_append_of_pos (by simpa using hword), List.dropWhile_cons_of_neg (by simpa)]

theorem literalClosed_literal (hword : word.any isQuote = false) (hquote : isQuote quote)
    (hbody : Quotable quote body) : LiteralClosed (word ++ quote :: (body ++ [quote])) := by
  intro q rest hrest
  rw [dropWhile_literal hword hquote] at hrest
  cases hrest
  exact ⟨body, rfl, hbody⟩

theorem startsNumber_returned : startsNumber c (returned rest) = startsNumber c rest := by
  rw [startsNumber, startsNumber, any_head?_returned (by decide) (by decide)]

theorem numberExtent_returned_eq_zero (hc : ¬isNumberChar c) :
    numberExtent (returned (c :: rest)) = 0 := by
  by_cases hfeed : c = '\n'
  · subst hfeed
    exact numberExtent_eq_zero (by decide)
  · rw [returned_cons hfeed]
    exact numberExtent_eq_zero hc

theorem numberExtent_returned (rest : List Char) :
    numberExtent (returned rest) = numberExtent rest := by
  fun_induction numberExtent rest with
  | case1 => rfl
  | case2 c hc =>
    rw [returned_cons (noFeed_of_isNumberChar hc).symm]
    exact if_pos hc
  | case3 c hc => exact numberExtent_returned_eq_zero hc
  | case4 c d rest h ih =>
    obtain ⟨hmark, hsign⟩ := Bool.and_eq_true_iff.mp h
    have hc : c ≠ '\n' := (noFeed_of_isNumberChar (isNumberChar_of_isExponentMark hmark)).symm
    have hd : d ≠ '\n' := by
      rintro rfl
      exact absurd hsign (by decide)
    rw [returned_cons hc, returned_cons hd, numberExtent_cons, List.head?_cons, Option.any_some,
      if_pos h, List.tail_cons, ih]
  | case5 c d rest h hc ih =>
    have hsign : (returned (d :: rest)).head?.any isSign = isSign d :=
      any_head?_returned (by decide) (by decide)
    rw [returned_cons (noFeed_of_isNumberChar hc).symm, numberExtent_cons, hsign, if_neg h,
      if_pos hc, ih]
  | case6 c d rest _ hc => exact numberExtent_returned_eq_zero hc

theorem LiteralClosed.quotedExtent_returned (hword : word.any isQuote = false)
    (hquote : isQuote c) (h : LiteralClosed (word ++ c :: rest.take (quotedExtent c rest))) :
    quotedExtent c (returned rest) = quotedExtent c rest := by
  obtain ⟨body, hbody, hquotable⟩ := h c _ (dropWhile_literal hword hquote)
  have hrest : rest = body ++ c :: rest.drop (quotedExtent c rest) := by
    rw [← List.singleton_append, ← List.append_assoc, ← hbody, List.take_append_drop]
  have hfeed : c ≠ '\n' := by
    rintro rfl
    exact absurd hquote (by decide)
  rw [hrest, returned_append, returned_eq_self hquotable.noFeed, returned_cons hfeed,
    quotedExtent_of_quotable hquote hquotable, quotedExtent_of_quotable hquote hquotable]

theorem noQuote_of_mem_encodings : ∀ word ∈ encodings, word.any isQuote = false := by decide

theorem literalExtent_returned {behind : List Char}
    (h : LiteralClosed (word ++ behind.take (literalExtent word behind))) :
    literalExtent word (returned behind) = literalExtent word behind := by
  cases behind with
  | nil => rfl
  | cons quote rest =>
    by_cases hliteral : encodings.contains word ∧ isQuote quote
    · have hextent (cs : List Char) :
          literalExtent word (quote :: cs) = quotedExtent quote cs + 1 := if_pos hliteral
      have hword := noQuote_of_mem_encodings word (List.contains_iff_mem.mp hliteral.1)
      have hquote : quote ≠ '\n' := by
        rintro rfl
        exact absurd hliteral.2 (by decide)
      rw [hextent, List.take_succ_cons] at h
      rw [returned_cons hquote, hextent, hextent, h.quotedExtent_returned hword hliteral.2]
    · have hextent (cs : List Char) : literalExtent word (quote :: cs) = 0 := if_neg hliteral
      by_cases hquote : quote = '\n'
      · subst hquote
        have hreturn : ¬(encodings.contains word ∧ isQuote '\r') := fun h =>
          absurd h.2 (by decide)
        rw [returned_feed, hextent]
        exact if_neg hreturn
      · rw [returned_cons hquote, hextent, hextent]

theorem wordExtent_returned (h : LiteralClosed (c :: rest.take (wordExtent c rest))) :
    wordExtent c (returned rest) = wordExtent c rest := by
  obtain ⟨tail, behind, rfl, htail, hbehind, hextent⟩ := wordExtent_eq c rest
  have hfeed : '\n' ∉ tail := fun h => absurd (htail _ h) (by simp [isWordChar_feed])
  -- the word ends where it did, before a return if that stands there now
  have hnext : ∀ d, (returned behind).head? = some d → isWordChar d = false := by
    intro d hd
    by_cases hreturn : d = '\r'
    · rw [hreturn]
      decide +kernel
    · have hline : d ≠ '\n' := fun h => head?_returned_ne_feed (h ▸ hd)
      exact hbehind d ((head?_returned hline hreturn).mp hd)
  rw [hextent, List.take_length_add_append, ← List.cons_append] at h
  rw [hextent, returned_append, returned_eq_self hfeed, wordExtent_append htail hnext,
    literalExtent_returned h]

theorem isPunctuatorOf_returned {p : String} (hc : c ≠ '\n') (hp : p ∈ punctuators) :
    isPunctuatorOf (c :: returned rest) p = isPunctuatorOf (c :: rest) p := by
  have hplain : ∀ q ∈ punctuators, '\n' ∉ q.toList ∧ '\r' ∉ q.toList := by decide
  rw [← returned_cons hc, isPunctuatorOf, isPunctuatorOf, Bool.eq_iff_iff,
    List.isPrefixOf_iff_prefix, List.isPrefixOf_iff_prefix,
    prefix_returned_iff (hplain p hp).1 (hplain p hp).2]

theorem punctuatorExtent_returned (hc : c ≠ '\n') :
    punctuatorExtent c (returned rest) = punctuatorExtent c rest := by
  rw [punctuatorExtent_eq, punctuatorExtent_eq,
    List.find?_congr fun p hp => isPunctuatorOf_returned hc hp]

/-- A token reaches as far in both texts, if it is no literal that the end of its line cuts off. -/
theorem tokenExtent_returned (hc : c ≠ '\n')
    (h : LiteralClosed (c :: rest.take (tokenExtent c rest))) :
    tokenExtent c (returned rest) = tokenExtent c rest := by
  unfold tokenExtent at h ⊢
  rw [startsNumber_returned]
  split at h
  · rename_i hquote
    rw [if_pos hquote, if_pos hquote]
    have hbare : LiteralClosed ([] ++ c :: rest.take (quotedExtent c rest)) := h
    exact hbare.quotedExtent_returned (by simp) hquote
  · rename_i hquote
    rw [if_neg hquote, if_neg hquote]
    split at h
    · rename_i hnumber
      rw [if_pos hnumber, if_pos hnumber, numberExtent_returned]
    · rename_i hnumber
      rw [if_neg hnumber, if_neg hnumber]
      split at h
      · rename_i hword
        rw [if_pos hword, if_pos hword, wordExtent_returned h]
      · rename_i hword
        rw [if_neg hword, if_neg hword, punctuatorExtent_returned hc]

end Token

section Segments
variable {lineStart : Bool} {c : Char} {rest : List Char}

theorem tokensFrom_returned_feed (line : Nat) (rest : List Char) :
    tokensFrom line (segments lineStart (returned ('\n' :: rest))) =
      tokensFrom (line + 1) (segments true (returned rest)) := by
  have hreturn : Text.isBlank '\r' := by decide
  rw [returned_feed, tokensFrom_blank line hreturn (by decide), tokensFrom_feed]

theorem skipExtent?_returned_eq_none (h : skipExtent? lineStart c rest = none) :
    skipExtent? lineStart c (returned rest) = none := by
  obtain ⟨hblank, hdirective, -, hcomment⟩ := skipExtent?_eq_none_iff.mp h
  refine skipExtent?_eq_none_iff.mpr ⟨hblank, hdirective, fun _ => head?_returned_ne_feed, ?_⟩
  intro hslash
  rw [ne_eq, ne_eq, head?_returned (by decide) (by decide),
    head?_returned (by decide) (by decide)]
  exact hcomment hslash

theorem tokensFrom_returned_of_token (line : Nat) (hskip : skipExtent? lineStart c rest = none)
    (h : LiteralClosed (c :: rest.take (tokenExtent c rest))) :
    tokensFrom line (segments lineStart (returned (c :: rest))) =
      ⟨String.ofList (c :: rest.take (tokenExtent c rest)), line⟩ ::
        tokensFrom line (segments false (returned (rest.drop (tokenExtent c rest)))) := by
  have hfeed := noFeed_token hskip
  obtain ⟨hc, hpart⟩ := not_or.mp (mt List.mem_cons.mpr hfeed)
  have hextent := tokenExtent_returned (Ne.symm hc) h
  have hcut : returned rest = rest.take (tokenExtent c rest) ++
      returned (rest.drop (tokenExtent c rest)) := by
    rw [← returned_eq_self hpart, ← returned_append, List.take_append_drop]
  have hlength : (rest.take (tokenExtent c rest)).length = tokenExtent c rest :=
    List.length_take_of_le (tokenExtent_le c rest)
  rw [returned_cons (Ne.symm hc), segments_of_token (skipExtent?_returned_eq_none hskip), hextent,
    hcut, List.take_left' hlength, List.drop_left' hlength, tokensFrom_token hfeed]

end Segments

end GotoCheck.Source
