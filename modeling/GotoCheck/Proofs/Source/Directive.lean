import GotoCheck.Proofs.Source.Segments

/-! Directives of one line. A comment that opens in a directive leads it on, over the end of its
line, and one opens wherever `/*` stands, in a literal and behind `//` too. -/
namespace GotoCheck.Source

/-- Comments that open in a text close in it. -/
inductive CommentsClosed : List Char → Prop
  | nil : CommentsClosed []
  | char {c : Char} {rest : List Char} : ¬(c = '/' ∧ rest.head? = some '*') →
      CommentsClosed rest → CommentsClosed (c :: rest)
  | comment {body rest : List Char} : ¬['*', '/'] <:+: body ++ ['*'] → CommentsClosed rest →
      CommentsClosed ('/' :: '*' :: (body ++ '*' :: '/' :: rest))

theorem directiveExtent_comment {body : List Char} (hbody : ¬['*', '/'] <:+: body ++ ['*'])
    (after : List Char) : directiveExtent true (body ++ '*' :: '/' :: after) =
      body.length + (directiveExtent false after + 2) := by
  induction body with
  | nil =>
    rw [List.nil_append, directiveExtent.eq_2, List.length_nil, Nat.zero_add]
  | cons c body ih =>
    have hclose : ¬(c = '*' ∧ (body ++ '*' :: '/' :: after).head? = some '/') := by
      rintro ⟨rfl, hhead⟩
      cases body with
      | nil => simp at hhead
      | cons d body =>
        obtain rfl : d = '/' := by simpa using hhead
        exact hbody ⟨[], body ++ ['*'], rfl⟩
    have hrest : ¬['*', '/'] <:+: body ++ ['*'] := fun h => hbody (List.infix_cons h)
    rw [List.cons_append, directiveExtent_inside hclose, ih hrest, List.length_cons]
    omega

/-- Where its comments are closed a directive ends with its line. -/
theorem CommentsClosed.directiveExtent_eq {rest : List Char} (h : CommentsClosed rest)
    (hfeed : '\n' ∉ rest) (hlast : ¬['\\'] <:+ rest) (after : List Char) :
    directiveExtent false (rest ++ '\n' :: after) = rest.length := by
  induction h with
  | nil => rfl
  | @char c rest hcomment _ ih =>
    obtain ⟨hc, hrest⟩ := not_or.mp (mt List.mem_cons.mpr hfeed)
    have hcontinued : ¬(c = '\\' ∧ (rest ++ '\n' :: after).head? = some '\n') := by
      rintro ⟨rfl, hhead⟩
      cases rest with
      | nil => exact hlast List.suffix_rfl
      | cons d rest =>
        obtain rfl : d = '\n' := by simpa using hhead
        exact hrest List.mem_cons_self
    have hopen : ¬(c = '/' ∧ (rest ++ '\n' :: after).head? = some '*') := by
      rintro ⟨rfl, hhead⟩
      cases rest with
      | nil => simp at hhead
      | cons d rest => exact hcomment ⟨rfl, hhead⟩
    have hends : ¬['\\'] <:+ rest := fun h => hlast (h.trans (List.suffix_cons c rest))
    rw [List.cons_append, directiveExtent_cons (Ne.symm hc) hcontinued hopen, ih hrest hends]
    rfl
  | @comment body rest hbody _ ih =>
    have hsuffix : rest <:+ '/' :: '*' :: (body ++ '*' :: '/' :: rest) :=
      ⟨'/' :: '*' :: (body ++ ['*', '/']), by simp⟩
    have hrest : '\n' ∉ rest := fun h => hfeed (hsuffix.subset h)
    have hends : ¬['\\'] <:+ rest := fun h => hlast (h.trans hsuffix)
    rw [List.cons_append, List.cons_append, List.append_assoc, directiveExtent.eq_6,
      List.cons_append, List.cons_append, directiveExtent_comment hbody, ih hrest hends]
    simp only [List.length_cons, List.length_append]

/-- What closes a comment stands on one side of a line feed. -/
theorem exists_of_close_append {body behind rest : List Char}
    (h : rest ++ ['\n', 'x'] = body ++ '*' :: '/' :: behind) :
    ∃ rest', rest = body ++ '*' :: '/' :: rest' ∧ behind = rest' ++ ['\n', 'x'] := by
  rcases List.append_eq_append_iff.mp h with ⟨part, -, hpart⟩ | ⟨part, hrest, hpart⟩
  · cases part with
    | nil => simp at hpart
    | cons c part => cases part <;> simp at hpart
  · cases part with
    | nil => simp at hpart
    | cons c part =>
      cases part with
      | nil => simp at hpart
      | cons d part =>
        simp only [List.cons_append, List.cons.injEq] at hpart
        obtain ⟨rfl, rfl, rfl⟩ := hpart
        exact ⟨part, hrest, rfl⟩

/-- A directive that ends before a character in the next line has its comments closed. -/
theorem commentsClosed_of_endsDirective {rest after : List Char}
    (h : EndsDirective (rest ++ ['\n', 'x']) after) (hafter : after ≠ []) (hfeed : '\n' ∉ rest)
    (hlast : ¬['\\'] <:+ rest) : CommentsClosed rest := by
  generalize hcs : rest ++ ['\n', 'x'] = cs at h
  induction h generalizing rest with
  | text => exact absurd rfl hafter
  | feed =>
    cases rest with
    | nil => exact .nil
    | cons c rest =>
      obtain ⟨rfl, -⟩ := List.cons.inj hcs
      exact absurd List.mem_cons_self hfeed
  | continued =>
    cases rest with
    | nil => simp at hcs
    | cons c rest =>
      cases rest with
      | nil =>
        obtain ⟨rfl, -⟩ := List.cons.inj hcs
        exact absurd List.suffix_rfl hlast
      | cons d rest =>
        simp only [List.cons_append, List.cons.injEq] at hcs
        exact absurd (by simp [hcs.2.1]) hfeed
  | @comment behind behind' after hcomment hdirective ih =>
    cases rest with
    | nil => simp at hcs
    | cons c rest =>
      cases rest with
      | nil => simp at hcs
      | cons d rest =>
        simp only [List.cons_append, List.cons.injEq] at hcs
        obtain ⟨rfl, rfl, rfl⟩ := hcs
        -- a comment that the line leaves open takes the `x` with it
        generalize hbehind : rest ++ ['\n', 'x'] = behind at hcomment
        cases hcomment with
        | @closed body _ hbody =>
          obtain ⟨rest', rfl, rfl⟩ := exists_of_close_append hbehind
          have hsuffix : rest' <:+ '/' :: '*' :: (body ++ '*' :: '/' :: rest') :=
            ⟨'/' :: '*' :: (body ++ ['*', '/']), by simp⟩
          exact .comment hbody (ih hafter (fun h => hfeed (hsuffix.subset h))
            (fun h => hlast (h.trans hsuffix)) rfl)
        | unclosed =>
          cases hdirective with
          | text => exact absurd rfl hafter
  | @char c rest' after hc _ hcomment _ ih =>
    cases rest with
    | nil => exact .nil
    | cons c rest =>
      simp only [List.cons_append, List.cons.injEq] at hcs
      obtain ⟨rfl, rfl⟩ := hcs
      refine .char (fun h => hcomment ⟨h.1, ?_⟩) (ih hafter ?_ ?_ rfl)
      · rw [List.head?_append, h.2]
        rfl
      · exact fun h => hfeed (List.mem_cons_of_mem c h)
      · exact fun h => hlast (h.trans (List.suffix_cons c rest))

/-- What is left of a text behind a directive that starts it. -/
theorem tokensFrom_directive (line : Nat) (rest : List Char) :
    tokensFrom line (segments true ('#' :: rest)) =
      tokensFrom (line + (rest.take (directiveExtent false rest)).count '\n')
        (segments true (rest.drop (directiveExtent false rest))) := by
  have hskip : skipExtent? true '#' rest = some (directiveExtent false rest) := by
    simp [skipExtent?]
  rw [segments_of_skip hskip, tokensFrom_skipped, Bool.true_or]
  simp

theorem commentsClosed_cons_iff {c : Char} {rest : List Char} (hc : c ≠ '/') :
    CommentsClosed (c :: rest) ↔ CommentsClosed rest := by
  constructor
  · intro h
    cases h with
    | char _ hrest => exact hrest
    | comment => exact absurd rfl hc
  · exact fun h => .char (fun hmark => hc hmark.1) h

theorem CommentsClosed.concat {rest : List Char} {c : Char} (h : CommentsClosed rest)
    (hc : c ≠ '*') : CommentsClosed (rest ++ [c]) := by
  induction h with
  | nil => exact .char (by simp) .nil
  | @char d rest hopen _ ih =>
    refine .char ?_ ih
    rintro ⟨rfl, hhead⟩
    cases rest with
    | nil => exact hc (by simpa using hhead)
    | cons e rest => exact hopen ⟨rfl, hhead⟩
  | @comment body rest hbody _ ih =>
    have htext : '/' :: '*' :: (body ++ '*' :: '/' :: rest) ++ [c] =
        '/' :: '*' :: (body ++ '*' :: '/' :: (rest ++ [c])) := by simp
    rw [htext]
    exact .comment hbody ih

/-- A directive of one line hides nothing but itself exactly when its comments are closed. -/
theorem tokenize_behind_directive_iff {d : String} (hmark : d.toList.head? = some '#')
    (hfeed : '\n' ∉ d.toList) (hlast : ¬['\\'] <:+ d.toList) :
    (∀ source, tokenize (d ++ "\n" ++ source) = (tokenize source).map Token.below) ↔
      CommentsClosed d.toList := by
  obtain ⟨rest, hd⟩ := List.head?_eq_some_iff.mp hmark
  rw [hd] at hfeed hlast ⊢
  have hrest : '\n' ∉ rest := fun h => hfeed (List.mem_cons_of_mem _ h)
  have hends : ¬['\\'] <:+ rest := fun h => hlast (h.trans (List.suffix_cons _ _))
  have htext (source : String) : (d ++ "\n" ++ source).toList =
      '#' :: (rest ++ '\n' :: source.toList) := by
    simp [hd]
  rw [commentsClosed_cons_iff (by decide)]
  constructor
  · intro h
    have hcut := leavesDirective_extent false (rest ++ ['\n', 'x'])
    refine commentsClosed_of_endsDirective hcut (fun hnone => ?_) hrest hends
    -- a directive that took the `x` in the next line would leave no token
    have hx := h "x"
    have htokens : tokenize "x" = [⟨"x", 1⟩] := by decide +kernel
    have hsource : "x".toList = ['x'] := rfl
    rw [htokens, tokenize, htext, tokensFrom_directive, hsource, hnone, segments] at hx
    cases hx
  · intro h source
    have hextent := h.directiveExtent_eq hrest hends source.toList
    rw [tokenize, htext, tokensFrom_directive, hextent, List.take_left, List.drop_left,
      List.count_eq_zero_of_not_mem hrest, tokensFrom_feed, tokensFrom_succ]
    rfl

/-- Comment marks in a literal and a literal in a comment. -/
def commentedDirective : String := "#if X /*\"*/ \"//\""

theorem tokenize_behind_commentedDirective :
    commentedDirective.toList.head? = some '#' ∧ '\n' ∉ commentedDirective.toList ∧
      ¬['\\'] <:+ commentedDirective.toList ∧
      ∀ source, tokenize (commentedDirective ++ "\n" ++ source) =
        (tokenize source).map Token.below := by
  have htext : commentedDirective.toList =
      "#if X ".toList ++ '/' :: '*' :: (['"'] ++ '*' :: '/' :: " \"//\"".toList) := by decide
  have hmark : commentedDirective.toList.head? = some '#' := by decide
  have hfeed : '\n' ∉ commentedDirective.toList := by decide
  have hlast : ¬['\\'] <:+ commentedDirective.toList := by decide
  have hclosed : CommentsClosed commentedDirective.toList := by
    have hliteral : CommentsClosed [' ', '"', '/', '/', '"'] := by
      repeat refine .char (by decide) ?_
      exact .nil
    have hcomment : CommentsClosed ('/' :: '*' :: (['"'] ++ '*' :: '/' :: " \"//\"".toList)) :=
      .comment (by decide) hliteral
    rw [htext]
    repeat refine .char (by decide) ?_
    exact hcomment
  exact ⟨hmark, hfeed, hlast, (tokenize_behind_directive_iff hmark hfeed hlast).mpr hclosed⟩

/-- The only `/*` of the line stands in a closed literal. It opens a comment, which takes the next
line. -/
theorem literal_hides_next_line :
    "#define SOURCES \"src/*.c\"".toList =
        "#define SOURCES ".toList ++ '"' :: ("src/*.c".toList ++ ['"']) ∧
      '/' ∉ "#define SOURCES ".toList ∧ isQuote '"' ∧ Quotable '"' "src/*.c".toList ∧
      tokenize ("#define SOURCES \"src/*.c\"" ++ "\n" ++ "int x;") ≠
        (tokenize "int x;").map Token.below := by
  have hquotable : Quotable '"' ['s', 'r', 'c', '/', '*', '.', 'c'] := by
    repeat refine .char (by decide) (by decide) (by decide) ?_
    exact .nil
  have hhidden : tokenize ("#define SOURCES \"src/*.c\"" ++ "\n" ++ "int x;") = [] := by
    decide +kernel
  have htokens : tokenize "int x;" = [⟨"int", 1⟩, ⟨"x", 1⟩, ⟨";", 1⟩] := by decide +kernel
  refine ⟨by decide, by decide, by decide, hquotable, ?_⟩
  rw [hhidden, htokens]
  intro h
  cases h

end GotoCheck.Source
