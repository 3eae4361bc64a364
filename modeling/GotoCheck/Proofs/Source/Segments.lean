import GotoCheck.Proofs.Source.Extent

/-! One segment at a time: what follows a part that is skipped and what follows a token. -/
namespace GotoCheck.Source
variable {lineStart : Bool} {c : Char} {rest : List Char}

theorem segments_of_skip {n : Nat} (h : skipExtent? lineStart c rest = some n) :
    segments lineStart (c :: rest) = .skipped (c :: rest.take n) ::
      segments (lineStart || (c :: rest.take n).contains '\n') (rest.drop n) := by
  rw [segments]
  split
  · rename_i m hm
    rw [h] at hm
    cases hm
    rfl
  · rename_i hm
    rw [h] at hm
    cases hm

theorem segments_of_token (h : skipExtent? lineStart c rest = none) :
    segments lineStart (c :: rest) = .token (c :: rest.take (tokenExtent c rest)) ::
      segments false (rest.drop (tokenExtent c rest)) := by
  rw [segments]
  split
  · rename_i m hm
    rw [h] at hm
    cases hm
  · rfl

theorem tokensFrom_skipped (line : Nat) (part : List Char) (later : List Segment) :
    tokensFrom line (.skipped part :: later) = tokensFrom (line + part.count '\n') later := rfl

theorem tokensFrom_token {line : Nat} {part : List Char} (h : '\n' ∉ part) (later : List Segment) :
    tokensFrom line (.token part :: later) =
      ⟨String.ofList part, line⟩ :: tokensFrom line later := by
  have hcount : (Segment.token part).chars.count '\n' = 0 := List.count_eq_zero_of_not_mem h
  rw [tokensFrom, hcount, Nat.add_zero]
  rfl

theorem le_line_of_mem_tokensFrom {line : Nat} {later : List Segment} {t : Token}
    (h : t ∈ tokensFrom line later) : line ≤ t.line := by
  induction later generalizing line with
  | nil => cases h
  | cons x later ih =>
    rw [tokensFrom] at h
    split at h
    · rcases List.mem_cons.mp h with rfl | h
      · exact Nat.le_refl _
      · exact Nat.le_trans (Nat.le_add_right _ _) (ih h)
    · exact Nat.le_trans (Nat.le_add_right _ _) (ih h)

theorem skipExtent?_of_isBlank (h : Text.isBlank c) : skipExtent? lineStart c rest = some 0 := by
  unfold skipExtent?
  split
  · exact absurd h (by decide)
  · exact absurd h (by decide)
  · exact absurd h (by decide)
  · exact absurd h (by decide)
  · rw [if_pos h]

theorem tokensFrom_blank (line : Nat) (hblank : Text.isBlank c) (hfeed : c ≠ '\n') :
    tokensFrom line (segments lineStart (c :: rest)) =
      tokensFrom line (segments lineStart rest) := by
  have hc : '\n' ∉ [c] := fun h => hfeed (List.mem_singleton.mp h).symm
  rw [segments_of_skip (skipExtent?_of_isBlank hblank), tokensFrom_skipped, List.take_zero,
    List.drop_zero, List.count_eq_zero_of_not_mem hc, Nat.add_zero]
  simp [hfeed.symm]

theorem tokensFrom_feed (line : Nat) : tokensFrom line (segments lineStart ('\n' :: rest)) =
    tokensFrom (line + 1) (segments true rest) := by
  have hblank : Text.isBlank '\n' := by decide
  rw [segments_of_skip (skipExtent?_of_isBlank hblank), tokensFrom_skipped]
  simp

theorem length_tokensFrom (line : Nat) (parts : List Segment) :
    (tokensFrom line parts).length = parts.countP Segment.isToken := by
  induction parts generalizing line with
  | nil => rfl
  | cons s parts ih =>
    rw [tokensFrom, List.countP_cons]
    split
    · rw [List.length_cons, ih]
    · rw [ih, Nat.add_zero]

theorem exists_mem_tokensFrom {text : List Char} {parts : List Segment} (line : Nat)
    (h : .token text ∈ parts) : ∃ t ∈ tokensFrom line parts, t.text.toList = text := by
  induction parts generalizing line with
  | nil => cases h
  | cons s parts ih =>
    rw [tokensFrom]
    rcases List.mem_cons.mp h with rfl | h
    · exact ⟨_, List.mem_cons_self, String.toList_ofList⟩
    · obtain ⟨t, ht, htext⟩ := ih (line + s.chars.count '\n') h
      split
      · exact ⟨t, List.mem_cons_of_mem _ ht, htext⟩
      · exact ⟨t, ht, htext⟩

/-- The token as it stands one line further down. -/
def Token.below (t : Token) : Token := { t with line := t.line + 1 }

theorem tokensFrom_succ (line : Nat) (parts : List Segment) :
    tokensFrom (line + 1) parts = (tokensFrom line parts).map Token.below := by
  induction parts generalizing line with
  | nil => rfl
  | cons part parts ih =>
    have hrest := ih (line + part.chars.count '\n')
    rw [Nat.add_right_comm] at hrest
    rw [tokensFrom, tokensFrom, hrest]
    split
    · rfl
    · rfl

end GotoCheck.Source
