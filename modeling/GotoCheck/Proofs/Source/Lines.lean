import GotoCheck.Source.Token

/-! Tokens by lines. The table holds each line once, in ascending order, and under it the tokens
that start there, in the order of the file. -/
namespace GotoCheck.Source

/-- Lines ascend and none comes twice. -/
def Ascending (lines : List LineTokens) : Prop := lines.Pairwise fun l m => l.line < m.line

section Place
variable {number n : Nat} {t : Token} {lines : List LineTokens}

theorem line_of_mem_place {l : LineTokens} (h : l ∈ place number t lines) :
    l.line = t.line ∨ ∃ m ∈ lines, m.line = l.line := by
  induction lines with
  | nil =>
    rw [place, List.mem_singleton] at h
    exact .inl (by rw [h])
  | cons m rest ih =>
    rw [place] at h
    split at h
    · rcases List.mem_cons.mp h with rfl | h
      · exact .inl rfl
      · exact .inr ⟨l, h, rfl⟩
    · split at h
      · rcases List.mem_cons.mp h with rfl | h
        · exact .inr ⟨m, List.mem_cons_self, rfl⟩
        · exact .inr ⟨l, List.mem_cons_of_mem m h, rfl⟩
      · rcases List.mem_cons.mp h with rfl | h
        · exact .inr ⟨l, List.mem_cons_self, rfl⟩
        · refine (ih h).imp_right fun hm => ?_
          obtain ⟨k, hk, hline⟩ := hm
          exact ⟨k, List.mem_cons_of_mem m hk, hline⟩

theorem Ascending.place (h : Ascending lines) : Ascending (place number t lines) := by
  induction lines with
  | nil => exact List.pairwise_singleton _ _
  | cons m rest ih =>
    obtain ⟨hm, hrest⟩ := List.pairwise_cons.mp h
    rw [Source.place]
    split
    · rename_i hlt
      refine List.pairwise_cons.mpr ⟨?_, h⟩
      intro l hl
      rcases List.mem_cons.mp hl with rfl | hl
      · exact hlt
      · exact Nat.lt_trans hlt (hm l hl)
    · split
      · exact List.pairwise_cons.mpr ⟨hm, hrest⟩
      · rename_i hge hne
        refine List.pairwise_cons.mpr ⟨?_, ih hrest⟩
        intro l hl
        rcases line_of_mem_place hl with heq | ⟨k, hk, heq⟩
        · omega
        · have := hm k hk
          omega

theorem tokensOn_cons (l : LineTokens) :
    tokensOn n (l :: lines) = if l.line = n then l.tokens else tokensOn n lines := by
  unfold tokensOn
  by_cases hl : l.line = n
  · rw [List.find?_cons_of_pos (by simp [hl]), if_pos hl]
    rfl
  · rw [List.find?_cons_of_neg (by simp [hl]), if_neg hl]

/-- On lines further down there is nothing of a line. -/
theorem tokensOn_of_lt (h : ∀ l ∈ lines, n < l.line) : tokensOn n lines = [] := by
  induction lines with
  | nil => rfl
  | cons l rest ih =>
    have hl := h l List.mem_cons_self
    rw [tokensOn_cons, if_neg (by omega), ih fun m hm => h m (List.mem_cons_of_mem l hm)]

theorem tokensOn_place (h : Ascending lines) : tokensOn n (place number t lines) =
    if t.line = n then (number, t.text) :: tokensOn n lines else tokensOn n lines := by
  induction lines with
  | nil =>
    rw [place, tokensOn_cons]
    rfl
  | cons l rest ih =>
    obtain ⟨hl, hrest⟩ := List.pairwise_cons.mp h
    rw [place]
    split
    · rename_i hlt
      rw [tokensOn_cons]
      split
      · -- a new line stands before all others, so nothing is on it yet
        rename_i heq
        have heq : t.line = n := heq
        have hnew : tokensOn n (l :: rest) = [] := by
          apply tokensOn_of_lt
          intro m hm
          rcases List.mem_cons.mp hm with rfl | hm
          · omega
          · have := hl m hm
            omega
        rw [hnew]
      · rfl
    · split
      · rename_i heq
        rw [tokensOn_cons, tokensOn_cons, heq]
        split <;> rfl
      · rename_i hge hne
        rw [tokensOn_cons, tokensOn_cons, ih hrest]
        by_cases hline : t.line = n
        · rw [if_pos hline, if_pos hline, if_neg (by omega), if_neg (by omega)]
        · rw [if_neg hline, if_neg hline]

end Place

theorem ascending_byLine_and_tokensOn (n : Nat) (numbered : List (Token × Nat)) :
    Ascending (numbered.foldr (fun x lines => place x.2 x.1 lines) []) ∧
      tokensOn n (numbered.foldr (fun x lines => place x.2 x.1 lines) []) =
        (numbered.filter fun x => x.1.line == n).map fun x => (x.2, x.1.text) := by
  induction numbered with
  | nil => exact ⟨.nil, rfl⟩
  | cons x rest ih =>
    obtain ⟨hascending, htokens⟩ := ih
    refine ⟨hascending.place, ?_⟩
    rw [List.foldr_cons, tokensOn_place hascending, htokens, List.filter_cons]
    by_cases hx : x.1.line = n
    · simp [hx]
    · simp [hx]

theorem tokensOn_byLine (n : Nat) (tokens : List Token) : tokensOn n (byLine tokens) =
    ((tokens.zipIdx 1).filter fun x => x.1.line == n).map fun x => (x.2, x.1.text) :=
  (ascending_byLine_and_tokensOn n (tokens.zipIdx 1)).2

theorem texts_tokensOn_byLine (n : Nat) (tokens : List Token) :
    (tokensOn n (byLine tokens)).map Prod.snd =
      (tokens.filter fun t => t.line == n).map Token.text := by
  have htokens : tokens = (tokens.zipIdx 1).map Prod.fst := (List.zipIdx_map_fst 1 tokens).symm
  calc (tokensOn n (byLine tokens)).map Prod.snd
      = ((tokens.zipIdx 1).filter fun x => x.1.line == n).map fun x => x.1.text := by
        rw [tokensOn_byLine, List.map_map]
        rfl
    _ = (((tokens.zipIdx 1).map Prod.fst).filter fun t => t.line == n).map Token.text := by
        rw [List.filter_map, List.map_map]
        rfl
    _ = (tokens.filter fun t => t.line == n).map Token.text := by rw [← htokens]

end GotoCheck.Source
