import GotoCheck.Proofs.Source.Gap

/-! Tokens by themselves. A token stays on its line, and it reads the same when a space stands
behind it, unless it is a literal that the end of its line has cut off. -/
namespace GotoCheck.Source

/-- Behind a token: nothing, or a space that parts it from the next one. -/
def Apart (r : List Char) : Prop := r = [] ∨ r.head? = some ' '

section Apart
variable {r : List Char}

/-- Cutting a text off and setting the rest apart brings no new character behind its first. -/
theorem Apart.head?_take_append (hr : Apart r) (n : Nat) (cs : List Char) :
    (cs.take n ++ r).head? = cs.head? ∨ (cs.take n ++ r).head? = none ∨
      (cs.take n ++ r).head? = some ' ' := by
  rw [List.head?_append, List.head?_take]
  by_cases hn : n = 0
  · rw [if_pos hn, Option.none_or]
    rcases hr with rfl | hr
    · exact .inr (.inl rfl)
    · exact .inr (.inr hr)
  · rw [if_neg hn]
    cases cs with
    | cons c cs => exact .inl rfl
    | nil =>
      rcases hr with rfl | hr
      · exact .inl rfl
      · exact .inr (.inr hr)

/-- What starts a text and holds no space lies before the part that a space sets off. -/
theorem Apart.prefix_of_append (hr : Apart r) {p cs : List Char} (hp : ' ' ∉ p)
    (h : p <+: cs ++ r) : p <+: cs := by
  rcases hr with rfl | hr
  · rwa [List.append_nil] at h
  · obtain ⟨r, rfl⟩ := List.head?_eq_some_iff.mp hr
    have hspaced : cs ++ [' '] <+: cs ++ ' ' :: r := ⟨r, by simp⟩
    rcases List.prefix_or_prefix_of_prefix h hspaced with h | h
    · rcases List.prefix_concat_iff.mp h with rfl | h
      · exact absurd (by simp) hp
      · exact h
    · exact absurd (h.subset (by simp)) hp

end Apart

/-! Literals. -/

theorem quotedExtent_cons {quote c : Char} {rest : List Char} (hfeed : c ≠ '\n') (hc : c ≠ '\\') :
    quotedExtent quote (c :: rest) = if c = quote then 1 else quotedExtent quote rest + 1 := by
  rw [quotedExtent.eq_6]
  all_goals grind

theorem quotedExtent_escape {quote d : Char} {rest : List Char} (hd : d ≠ '\n') :
    quotedExtent quote ('\\' :: d :: rest) = quotedExtent quote rest + 2 := by
  rw [quotedExtent.eq_5]
  all_goals grind

/-- What stands between the quotes of a literal. -/
inductive Quotable (quote : Char) : List Char → Prop
  | nil : Quotable quote []
  | char {c : Char} {rest : List Char} : c ≠ quote → c ≠ '\\' → c ≠ '\n' → Quotable quote rest →
      Quotable quote (c :: rest)
  | escape {c : Char} {rest : List Char} : c ≠ '\n' → Quotable quote rest →
      Quotable quote ('\\' :: c :: rest)

theorem Quotable.noFeed {quote : Char} {body : List Char} (h : Quotable quote body) :
    '\n' ∉ body := by
  induction h with
  | nil => simp
  | char _ _ hfeed _ ih => simp [Ne.symm hfeed, ih]
  | escape hfeed _ ih => simp [Ne.symm hfeed, ih]

theorem quotedExtent_of_quotable {quote : Char} {body : List Char} (hquote : isQuote quote)
    (h : Quotable quote body) (after : List Char) :
    quotedExtent quote (body ++ quote :: after) = body.length + 1 := by
  induction h with
  | nil =>
    have hfeed : quote ≠ '\n' := by
      rintro rfl
      exact absurd hquote (by decide)
    have hescape : quote ≠ '\\' := by
      rintro rfl
      exact absurd hquote (by decide)
    rw [List.nil_append, quotedExtent_cons hfeed hescape, if_pos rfl]
    rfl
  | char hne hescape hfeed _ ih =>
    rw [List.cons_append, quotedExtent_cons hfeed hescape, if_neg hne, ih]
    rfl
  | escape hfeed _ ih =>
    rw [List.cons_append, List.cons_append, quotedExtent_escape hfeed, ih]
    rfl

theorem ne_backslash {c : Char} {rest : List Char} (hlast : c = '\\' → rest = [] → False)
    (hescape : ∀ d t, c = '\\' → rest = d :: t → False) : c ≠ '\\' := by
  intro hc
  cases rest with
  | nil => exact hlast hc rfl
  | cons d t => exact hescape d t hc rfl

/-- A literal that is closed reads the same before anything; one that is not, only at the end. -/
theorem quotedExtent_take_append (quote : Char) (rest : List Char) {r : List Char}
    (hr : r = [] ∨ ¬AtLineEnd (rest.drop (quotedExtent quote rest))) :
    quotedExtent quote (rest.take (quotedExtent quote rest) ++ r) = quotedExtent quote rest := by
  fun_induction quotedExtent quote rest with
  | case1 | case3 =>
    -- the text ended before the literal did
    have hr : r = [] := hr.resolve_right fun h => h (.inl rfl)
    rw [hr]
    rfl
  | case2 | case4 =>
    -- so did the line
    have hr : r = [] := hr.resolve_right fun h => h (.inr rfl)
    rw [hr]
    rfl
  | case5 d rest hd ih =>
    have hd : d ≠ '\n' := fun h => hd h
    have hrest := ih hr
    show quotedExtent quote ('\\' :: d :: (rest.take (quotedExtent quote rest) ++ r)) = _
    rw [quotedExtent_escape hd, hrest]
  | case6 rest hfeed hlast _ hescape =>
    have hc : quote ≠ '\\' := ne_backslash hlast hescape
    show quotedExtent quote (quote :: ([] ++ r)) = 1
    rw [quotedExtent_cons hfeed hc, if_pos rfl]
  | case7 c rest hfeed hlast _ hescape hquote ih =>
    have hc : c ≠ '\\' := ne_backslash hlast hescape
    have hrest := ih hr
    show quotedExtent quote (c :: (rest.take (quotedExtent quote rest) ++ r)) = _
    rw [quotedExtent_cons hfeed hc, if_neg hquote, hrest]

theorem noFeed_quoted (quote : Char) (rest : List Char) :
    '\n' ∉ rest.take (quotedExtent quote rest) := by
  fun_induction quotedExtent quote rest with
  | case5 d rest hd ih =>
    have hd : '\n' ≠ d := fun h => hd h.symm
    simp [hd, ih]
  | case6 rest hfeed =>
    have hfeed : '\n' ≠ quote := fun h => hfeed h.symm
    simp [hfeed]
  | case7 c rest hfeed _ _ _ _ ih =>
    have hfeed : '\n' ≠ c := fun h => hfeed h.symm
    simp [hfeed, ih]
  | _ => simp

theorem quotedExtent_le (quote : Char) (rest : List Char) :
    quotedExtent quote rest ≤ rest.length := by
  fun_induction quotedExtent quote rest <;> simp only [List.length_cons, List.length_nil] <;> omega

/-! Numbers. -/

theorem noFeed_of_isNumberChar {c : Char} (h : isNumberChar c) : '\n' ≠ c := by
  rintro rfl
  exact absurd h (by decide)

theorem noFeed_number (rest : List Char) : '\n' ∉ rest.take (numberExtent rest) := by
  fun_induction numberExtent rest with
  | case1 => simp
  | case2 c hc => simpa using noFeed_of_isNumberChar hc
  | case3 => simp
  | case4 c d rest h ih =>
    obtain ⟨hmark, hsign⟩ := Bool.and_eq_true_iff.mp h
    have hc : '\n' ≠ c := by
      rintro rfl
      exact absurd hmark (by decide)
    have hd : '\n' ≠ d := by
      rintro rfl
      exact absurd hsign (by decide)
    simp [hc, hd, ih]
  | case5 c d rest h hc ih =>
    rw [List.take_succ_cons, List.mem_cons, not_or]
    exact ⟨noFeed_of_isNumberChar hc, ih⟩
  | case6 => simp

theorem numberExtent_le (rest : List Char) : numberExtent rest ≤ rest.length := by
  fun_induction numberExtent rest <;> simp only [List.length_cons, List.length_nil] at * <;> omega

theorem numberExtent_cons (c : Char) (rest : List Char) : numberExtent (c :: rest) =
    if isExponentMark c && rest.head?.any isSign then numberExtent rest.tail + 2
    else if isNumberChar c then numberExtent rest + 1 else 0 := by
  cases rest with
  | nil => simp [numberExtent]
  | cons d rest => simp [numberExtent]

theorem isNumberChar_of_isExponentMark {c : Char} (h : isExponentMark c) : isNumberChar c := by
  have hmarks : ['e', 'E', 'p', 'P'].all isNumberChar := by decide
  exact List.all_eq_true.mp hmarks c (by simpa [isExponentMark] using h)

theorem numberExtent_eq_zero {c : Char} {rest : List Char} (hc : ¬isNumberChar c) :
    numberExtent (c :: rest) = 0 := by
  have hmark : ¬isExponentMark c := mt isNumberChar_of_isExponentMark hc
  simp [numberExtent_cons, hmark, hc]

theorem numberExtent_of_apart {r : List Char} (hr : Apart r) : numberExtent r = 0 := by
  rcases hr with rfl | hr
  · rfl
  · obtain ⟨r, rfl⟩ := List.head?_eq_some_iff.mp hr
    exact numberExtent_eq_zero (by decide)

theorem numberExtent_take_append (rest : List Char) {r : List Char} (hr : Apart r) :
    numberExtent (rest.take (numberExtent rest) ++ r) = numberExtent rest := by
  have hnone : numberExtent r = 0 := numberExtent_of_apart hr
  fun_induction numberExtent rest with
  | case1 => exact hnone
  | case2 c hc =>
    have hsign : r.head?.any isSign = false := by
      rcases hr with rfl | hr
      · rfl
      · rw [hr]
        decide
    show numberExtent (c :: r) = 1
    simp [numberExtent_cons, hsign, hc, hnone]
  | case3 => exact hnone
  | case4 c d rest h ih =>
    show numberExtent (c :: d :: (rest.take (numberExtent rest) ++ r)) = _
    rw [numberExtent_cons, List.head?_cons, Option.any_some, if_pos h, List.tail_cons, ih]
  | case5 c d rest h hc ih =>
    -- the sign that an exponent mark would take is not there now either
    have hsign : ¬(isExponentMark c &&
        ((d :: rest).take (numberExtent (d :: rest)) ++ r).head?.any isSign) := by
      rcases hr.head?_take_append (numberExtent (d :: rest)) (d :: rest) with hd | hd | hd
      · rw [hd]
        exact h
      · rw [hd]
        simp
      · rw [hd]
        simp [show isSign ' ' = false by decide]
    show numberExtent (c :: ((d :: rest).take (numberExtent (d :: rest)) ++ r)) = _
    rw [numberExtent_cons, if_neg hsign, if_pos hc, ih]
  | case6 => exact hnone

/-! Words. -/

theorem isWordChar_feed : isWordChar '\n' = false := by decide +kernel

theorem isWordChar_space : isWordChar ' ' = false := by decide +kernel

/-- The literal behind a word that tells its encoding. -/
def literalExtent (word : List Char) : List Char → Nat
  | quote :: rest =>
    if encodings.contains word ∧ isQuote quote then quotedExtent quote rest + 1 else 0
  | [] => 0

theorem wordExtent_append {c : Char} {tail behind : List Char} (htail : ∀ d ∈ tail, isWordChar d)
    (hbehind : ∀ d, behind.head? = some d → isWordChar d = false) :
    wordExtent c (tail ++ behind) = tail.length + literalExtent (c :: tail) behind := by
  have hnil : behind.takeWhile isWordChar = [] := by
    cases behind with
    | nil => rfl
    | cons d behind => rw [List.takeWhile_cons_of_neg (by simp [hbehind d rfl])]
  have hword : (tail ++ behind).takeWhile isWordChar = tail := by
    rw [List.takeWhile_append_of_pos htail, hnil, List.append_nil]
  unfold wordExtent
  rw [hword]
  dsimp only
  rw [List.drop_left]
  cases behind with
  | nil => rfl
  | cons quote rest => simp only [literalExtent, List.contains_iff_mem]

theorem wordExtent_eq (c : Char) (rest : List Char) :
    ∃ tail behind, rest = tail ++ behind ∧ (∀ d ∈ tail, isWordChar d) ∧
      (∀ d, behind.head? = some d → isWordChar d = false) ∧
      wordExtent c rest = tail.length + literalExtent (c :: tail) behind := by
  have htail : ∀ d ∈ rest.takeWhile isWordChar, isWordChar d :=
    fun d hd => List.mem_takeWhile_imp hd
  have hbehind : ∀ d, (rest.dropWhile isWordChar).head? = some d → isWordChar d = false := by
    intro d hd
    have h := List.head?_dropWhile_not isWordChar rest
    rw [hd] at h
    exact h
  have hrest := List.takeWhile_append_dropWhile (p := isWordChar) (l := rest)
  refine ⟨_, _, hrest.symm, htail, hbehind, ?_⟩
  have h := wordExtent_append (c := c) htail hbehind
  rwa [hrest] at h

theorem noFeed_word (c : Char) (rest : List Char) : '\n' ∉ rest.take (wordExtent c rest) := by
  obtain ⟨tail, behind, rfl, htail, -, hextent⟩ := wordExtent_eq c rest
  have hword : '\n' ∉ tail := fun h => absurd (htail _ h) (by simp [isWordChar_feed])
  have hliteral : '\n' ∉ behind.take (literalExtent (c :: tail) behind) := by
    unfold literalExtent
    split
    · rename_i quote rest
      split
      · rename_i h
        have hquote : '\n' ≠ quote := by
          rintro rfl
          exact absurd h.2 (by decide)
        simp [hquote, noFeed_quoted]
      · simp
    · simp
  rw [hextent, List.take_length_add_append, List.mem_append, not_or]
  exact ⟨hword, hliteral⟩

theorem literalExtent_le (word behind : List Char) :
    literalExtent word behind ≤ behind.length := by
  unfold literalExtent
  split
  · rename_i quote rest
    have := quotedExtent_le quote rest
    split <;> simp only [List.length_cons] <;> omega
  · exact Nat.le_refl 0

theorem wordExtent_le (c : Char) (rest : List Char) : wordExtent c rest ≤ rest.length := by
  obtain ⟨tail, behind, rfl, -, -, hextent⟩ := wordExtent_eq c rest
  have := literalExtent_le (c :: tail) behind
  rw [hextent, List.length_append]
  omega

theorem literalExtent_of_apart {r : List Char} (hr : Apart r) (word : List Char) :
    literalExtent word r = 0 := by
  rcases hr with rfl | hr
  · rfl
  · obtain ⟨r, rfl⟩ := List.head?_eq_some_iff.mp hr
    have hquote : isQuote ' ' = false := by decide
    simp [literalExtent, hquote]

theorem literalExtent_take_append (word behind : List Char) {r : List Char} (hr : Apart r)
    (hend : r = [] ∨ ¬AtLineEnd (behind.drop (literalExtent word behind))) :
    literalExtent word (behind.take (literalExtent word behind) ++ r) =
      literalExtent word behind := by
  have hnone : literalExtent word r = 0 := literalExtent_of_apart hr word
  cases behind with
  | nil => exact hnone
  | cons quote rest =>
    by_cases h : encodings.contains word ∧ isQuote quote
    · have hextent : literalExtent word (quote :: rest) = quotedExtent quote rest + 1 := if_pos h
      rw [hextent] at hend ⊢
      have hquoted := quotedExtent_take_append quote rest hend
      calc literalExtent word (quote :: (rest.take (quotedExtent quote rest) ++ r))
          = quotedExtent quote (rest.take (quotedExtent quote rest) ++ r) + 1 := if_pos h
        _ = quotedExtent quote rest + 1 := by rw [hquoted]
    · have hextent : literalExtent word (quote :: rest) = 0 := if_neg h
      rw [hextent]
      exact hnone

theorem wordExtent_take_append (c : Char) (rest : List Char) {r : List Char} (hr : Apart r)
    (hend : r = [] ∨ ¬AtLineEnd (rest.drop (wordExtent c rest))) :
    wordExtent c (rest.take (wordExtent c rest) ++ r) = wordExtent c rest := by
  obtain ⟨tail, behind, rfl, htail, hbehind, hextent⟩ := wordExtent_eq c rest
  rw [hextent, List.drop_length_add_append] at hend
  have hliteral := literalExtent_take_append (c :: tail) behind hr hend
  have hnext : ∀ d, (behind.take (literalExtent (c :: tail) behind) ++ r).head? = some d →
      isWordChar d = false := by
    intro d hd
    rcases hr.head?_take_append (literalExtent (c :: tail) behind) behind with h | h | h
    · exact hbehind d (h ▸ hd)
    · rw [h] at hd
      cases hd
    · rw [h] at hd
      cases hd
      exact isWordChar_space
  rw [hextent, List.take_length_add_append, List.append_assoc, wordExtent_append htail hnext,
    hliteral]

/-! Punctuators. -/

theorem punctuators_plain :
    ∀ p ∈ punctuators, 0 < p.length ∧ ' ' ∉ p.toList ∧ '\n' ∉ p.toList := by
  decide

def isPunctuatorOf (cs : List Char) (p : String) : Bool := p.toList.isPrefixOf cs

theorem punctuatorExtent_eq (c : Char) (rest : List Char) : punctuatorExtent c rest =
    ((punctuators.find? (isPunctuatorOf (c :: rest))).map fun p => p.length - 1).getD 0 := by
  unfold punctuatorExtent isPunctuatorOf
  cases punctuators.find? _ <;> rfl

theorem toList_of_find?_punctuators {c : Char} {rest : List Char} {p : String}
    (hp : punctuators.find? (isPunctuatorOf (c :: rest)) = some p) :
    p.toList = c :: rest.take (p.length - 1) := by
  have hpos : 0 < p.length := (punctuators_plain p (List.mem_of_find?_eq_some hp)).1
  have hprefix : p.toList <+: c :: rest :=
    List.isPrefixOf_iff_prefix.mp (List.find?_some (p := isPunctuatorOf (c :: rest)) hp)
  calc p.toList = (c :: rest).take p.toList.length := List.prefix_iff_eq_take.mp hprefix
    _ = (c :: rest).take (p.length - 1 + 1) := by rw [String.length_toList, Nat.sub_add_cancel hpos]
    _ = c :: rest.take (p.length - 1) := rfl

theorem noFeed_punctuator (c : Char) (rest : List Char) :
    '\n' ∉ rest.take (punctuatorExtent c rest) := by
  rw [punctuatorExtent_eq]
  cases hp : punctuators.find? (isPunctuatorOf (c :: rest)) with
  | none => simp
  | some p =>
    have hplain : '\n' ∉ p.toList := (punctuators_plain p (List.mem_of_find?_eq_some hp)).2.2
    rw [toList_of_find?_punctuators hp] at hplain
    exact fun h => hplain (List.mem_cons_of_mem c h)

theorem punctuatorExtent_le (c : Char) (rest : List Char) :
    punctuatorExtent c rest ≤ rest.length := by
  rw [punctuatorExtent_eq]
  cases hp : punctuators.find? (isPunctuatorOf (c :: rest)) with
  | none => exact Nat.zero_le _
  | some p =>
    have hlength := congrArg List.length (toList_of_find?_punctuators hp)
    rw [String.length_toList, List.length_cons, List.length_take] at hlength
    show p.length - 1 ≤ rest.length
    omega

/-- A longer punctuator would hold the space, or have been found before. -/
theorem punctuatorExtent_take_append (c : Char) (rest : List Char) {r : List Char}
    (hr : Apart r) :
    punctuatorExtent c (rest.take (punctuatorExtent c rest) ++ r) = punctuatorExtent c rest := by
  have hearlier (n : Nat) : ∀ q ∈ punctuators, isPunctuatorOf (c :: (rest.take n ++ r)) q →
      isPunctuatorOf (c :: rest) q := by
    intro q hq h
    have hspace : ' ' ∉ q.toList := (punctuators_plain q hq).2.1
    have hcut : q.toList <+: c :: rest.take n :=
      hr.prefix_of_append hspace (List.isPrefixOf_iff_prefix.mp h)
    have hwhole : c :: rest.take n <+: c :: rest :=
      (List.prefix_cons_inj c).mpr (List.take_prefix n rest)
    exact List.isPrefixOf_iff_prefix.mpr (hcut.trans hwhole)
  rw [punctuatorExtent_eq, punctuatorExtent_eq c rest]
  cases hp : punctuators.find? (isPunctuatorOf (c :: rest)) with
  | none =>
    have hnone : punctuators.find? (isPunctuatorOf (c :: (rest.take 0 ++ r))) = none := by
      rw [List.find?_eq_none] at hp ⊢
      exact fun q hq h => hp q hq (hearlier 0 q hq h)
    simp only [Option.map_none, Option.getD_none, hnone]
  | some p =>
    obtain ⟨-, before, after, hsplit, hfirst⟩ := List.find?_eq_some_iff_append.mp hp
    have htext := toList_of_find?_punctuators hp
    have hfound : punctuators.find? (isPunctuatorOf (c :: (rest.take (p.length - 1) ++ r))) =
        some p := by
      refine List.find?_eq_some_iff_append.mpr ⟨?_, before, after, hsplit, ?_⟩
      · refine List.isPrefixOf_iff_prefix.mpr ?_
        rw [htext]
        exact ⟨r, rfl⟩
      · intro q hq
        have hmem : q ∈ punctuators := by
          rw [hsplit]
          exact List.mem_append_left _ hq
        have hnot := hfirst q hq
        rw [Bool.not_eq_true', ← Bool.not_eq_true] at hnot ⊢
        exact fun h => hnot (hearlier _ q hmem h)
    simp only [Option.map_some, Option.getD_some, hfound]

/-! Tokens of all kinds. -/

theorem noFeed_token {lineStart : Bool} {c : Char} {rest : List Char}
    (h : skipExtent? lineStart c rest = none) : '\n' ∉ c :: rest.take (tokenExtent c rest) := by
  have hc : '\n' ≠ c := by
    rintro rfl
    exact absurd (skipExtent?_eq_none_iff.mp h).1 (by decide)
  have hrest : '\n' ∉ rest.take (tokenExtent c rest) := by
    unfold tokenExtent
    split
    · exact noFeed_quoted c rest
    · split
      · exact noFeed_number rest
      · split
        · exact noFeed_word c rest
        · exact noFeed_punctuator c rest
  rw [List.mem_cons, not_or]
  exact ⟨hc, hrest⟩

theorem tokenExtent_le (c : Char) (rest : List Char) : tokenExtent c rest ≤ rest.length := by
  unfold tokenExtent
  split
  · exact quotedExtent_le c rest
  · split
    · exact numberExtent_le rest
    · split
      · exact wordExtent_le c rest
      · exact punctuatorExtent_le c rest

/-- A token still starts where it did when it is cut out of its text. -/
theorem skipExtent?_take_append {lineStart : Bool} {c : Char} {rest r : List Char} (n : Nat)
    (hr : Apart r) (h : skipExtent? lineStart c rest = none) :
    skipExtent? lineStart c (rest.take n ++ r) = none := by
  rw [skipExtent?_eq_none_iff] at h ⊢
  obtain ⟨hblank, hdirective, hcontinued, hcomment⟩ := h
  have hnext (d : Char) (hd : d ≠ ' ') (hne : rest.head? ≠ some d) :
      (rest.take n ++ r).head? ≠ some d := by
    intro heq
    rcases hr.head?_take_append n rest with h | h | h
    · exact hne (h ▸ heq)
    · rw [h] at heq
      cases heq
    · rw [h] at heq
      exact hd (Option.some.inj heq).symm
  refine ⟨hblank, hdirective, fun hc => ?_, fun hc => ⟨?_, ?_⟩⟩
  · exact hnext '\n' (by decide) (hcontinued hc)
  · exact hnext '/' (by decide) (hcomment hc).1
  · exact hnext '*' (by decide) (hcomment hc).2

theorem startsNumber_take_append_of_not {c : Char} {rest r : List Char} (n : Nat)
    (hr : Apart r) (h : startsNumber c rest = false) :
    startsNumber c (rest.take n ++ r) = false := by
  simp only [startsNumber, Bool.or_eq_false_iff, Bool.and_eq_false_iff] at h ⊢
  refine ⟨h.1, h.2.imp_right fun hdigit => ?_⟩
  rcases hr.head?_take_append n rest with hd | hd | hd
  · rw [hd]
    exact hdigit
  · rw [hd]
    rfl
  · rw [hd]
    decide

theorem startsNumber_take_append {c : Char} {rest r : List Char} (h : startsNumber c rest) :
    startsNumber c (rest.take (numberExtent rest) ++ r) := by
  simp only [startsNumber, Bool.or_eq_true, Bool.and_eq_true] at h ⊢
  refine h.imp_right fun h => ⟨h.1, ?_⟩
  cases rest with
  | nil => exact absurd h.2 (by simp)
  | cons d rest =>
    -- the digit behind the point is taken, so it is still there
    have hd : isNumberChar d := by
      have hdigit : d.isDigit := by simpa using h.2
      simp [isNumberChar, Char.isAlphanum, hdigit]
    have hpos : numberExtent (d :: rest) ≠ 0 := by
      rw [numberExtent_cons, if_pos hd]
      split <;> omega
    obtain ⟨n, hn⟩ := Nat.exists_eq_succ_of_ne_zero hpos
    rw [hn]
    exact h.2

/-- Cut out of its text, a token reaches as far as before: to the end, or to the space behind it. A
literal that the end of its line cuts off must come last. -/
theorem tokenExtent_take_append {c : Char} {rest r : List Char} (hr : Apart r)
    (hend : r = [] ∨ ¬AtLineEnd (rest.drop (tokenExtent c rest))) :
    tokenExtent c (rest.take (tokenExtent c rest) ++ r) = tokenExtent c rest := by
  by_cases hquote : isQuote c
  · have hextent (cs : List Char) : tokenExtent c cs = quotedExtent c cs := if_pos hquote
    rw [hextent] at hend ⊢
    rw [hextent, quotedExtent_take_append c rest hend]
  by_cases hnumber : startsNumber c rest
  · have hextent {cs : List Char} (h : startsNumber c cs) : tokenExtent c cs = numberExtent cs := by
      rw [tokenExtent, if_neg hquote, if_pos h]
    rw [hextent hnumber, hextent (startsNumber_take_append hnumber),
      numberExtent_take_append rest hr]
  have hcut (n : Nat) : startsNumber c (rest.take n ++ r) = false :=
    startsNumber_take_append_of_not n hr (Bool.not_eq_true _ ▸ hnumber)
  have hextent {cs : List Char} (h : startsNumber c cs = false) :
      tokenExtent c cs = if isWordStart c then wordExtent c cs else punctuatorExtent c cs := by
    rw [tokenExtent, if_neg hquote, if_neg (by simp [h])]
  have hwhole : tokenExtent c rest = _ := hextent (Bool.not_eq_true _ ▸ hnumber)
  rw [hextent (hcut _)]
  rw [hwhole] at hend ⊢
  by_cases hword : isWordStart c
  · rw [if_pos hword] at hend ⊢
    rw [if_pos hword, wordExtent_take_append c rest hr hend]
  · rw [if_neg hword] at hend ⊢
    rw [if_neg hword, punctuatorExtent_take_append c rest hr]

end GotoCheck.Source
