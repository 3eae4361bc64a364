import Mathlib.Data.List.TakeWhile
import GotoCheck.Proofs.General
import GotoCheck.Source.Token

/-! What a source text holds between its tokens, said without counting characters: each relation
leads from a text to what is left of it behind one skipped part. -/
namespace GotoCheck.Source

/-- Behind the mark that opens a comment. It ends with the first `*/`, or else with the text. -/
inductive EndsComment : List Char → List Char → Prop
  | closed {body after : List Char} : ¬ ['*', '/'] <:+: body ++ ['*'] →
      EndsComment (body ++ '*' :: '/' :: after) after
  | unclosed {body : List Char} : ¬ ['*', '/'] <:+: body → EndsComment body []

/-- Behind the mark of a directive. It ends before the first line feed that neither follows a
backslash nor stands in a comment. -/
inductive EndsDirective : List Char → List Char → Prop
  | text : EndsDirective [] []
  | feed {after : List Char} : EndsDirective ('\n' :: after) ('\n' :: after)
  | continued {rest after : List Char} : EndsDirective rest after →
      EndsDirective ('\\' :: '\n' :: rest) after
  | comment {rest behind after : List Char} : EndsComment rest behind →
      EndsDirective behind after → EndsDirective ('/' :: '*' :: rest) after
  | char {c : Char} {rest after : List Char} : c ≠ '\n' → ¬(c = '\\' ∧ rest.head? = some '\n') →
      ¬(c = '/' ∧ rest.head? = some '*') → EndsDirective rest after →
      EndsDirective (c :: rest) after

/-- The end of a line, or of the text. -/
def AtLineEnd (cs : List Char) : Prop := cs = [] ∨ cs.head? = some '\n'

/-- One part without a token; `fresh` says that no token stands before it on its line. -/
inductive Skips (fresh : Prop) : List Char → List Char → Prop
  | blank {c : Char} {after : List Char} : Text.isBlank c → Skips fresh (c :: after) after
  | continued {after : List Char} : Skips fresh ('\\' :: '\n' :: after) after
  | lineComment {body after : List Char} : '\n' ∉ body → AtLineEnd after →
      Skips fresh ('/' :: '/' :: (body ++ after)) after
  | comment {rest after : List Char} : EndsComment rest after →
      Skips fresh ('/' :: '*' :: rest) after
  | directive {rest after : List Char} : fresh → EndsDirective rest after →
      Skips fresh ('#' :: rest) after

theorem EndsComment.cons {c : Char} {rest after : List Char}
    (hc : ¬(c = '*' ∧ rest.head? = some '/')) (h : EndsComment rest after) :
    EndsComment (c :: rest) after := by
  cases h with
  | @closed body after hbody =>
    refine @EndsComment.closed (c :: body) after fun hin => ?_
    rcases List.infix_cons_iff.mp hin with hpre | hin
    · -- a comment that closes here would begin with `*/`
      obtain ⟨hstar, hpre⟩ := List.cons_prefix_cons.mp hpre
      cases body with
      | nil => simp at hpre
      | cons d body =>
        have hslash : '/' = d := (List.cons_prefix_cons.mp hpre).1
        exact hc ⟨hstar.symm, by simp [← hslash]⟩
    · exact hbody hin
  | unclosed hbody =>
    refine .unclosed fun hin => ?_
    rcases List.infix_cons_iff.mp hin with hpre | hin
    · obtain ⟨hstar, hpre⟩ := List.cons_prefix_cons.mp hpre
      cases rest with
      | nil => simp at hpre
      | cons d body =>
        have hslash : '/' = d := (List.cons_prefix_cons.mp hpre).1
        exact hc ⟨hstar.symm, by simp [← hslash]⟩
    · exact hbody hin

theorem endsComment_close {after : List Char} : EndsComment ('*' :: '/' :: after) after :=
  @EndsComment.closed [] after (by decide)

theorem endsComment_extent (cs : List Char) : EndsComment cs (cs.drop (commentExtent cs)) := by
  fun_induction commentExtent cs with
  | case1 => exact .unclosed (by simp)
  | case2 after => exact endsComment_close
  | case3 c rest hclose ih =>
    refine .cons (fun hc => ?_) ih
    obtain ⟨rfl, hslash⟩ := hc
    obtain ⟨after, rfl⟩ := List.head?_eq_some_iff.mp hslash
    exact hclose after rfl rfl

section Skipped
variable {c : Char} {rest : List Char}

theorem lineExtent_cons (hc : c ≠ '\n') : lineExtent (c :: rest) = lineExtent rest + 1 := by
  simp [lineExtent, hc]

theorem commentExtent_cons (hclose : ¬(c = '*' ∧ rest.head? = some '/')) :
    commentExtent (c :: rest) = commentExtent rest + 1 := by
  rw [commentExtent.eq_3]
  rintro after hc rfl
  exact hclose ⟨hc, rfl⟩

theorem directiveExtent_cons (hfeed : c ≠ '\n') (hcontinued : ¬(c = '\\' ∧ rest.head? = some '\n'))
    (hcomment : ¬(c = '/' ∧ rest.head? = some '*')) :
    directiveExtent false (c :: rest) = directiveExtent false rest + 1 := by
  rw [directiveExtent.eq_7]
  · exact hfeed
  · rintro after hc rfl
    exact hcontinued ⟨hc, rfl⟩
  · rintro after hc rfl
    exact hcomment ⟨hc, rfl⟩

theorem directiveExtent_inside (hclose : ¬(c = '*' ∧ rest.head? = some '/')) :
    directiveExtent true (c :: rest) = directiveExtent true rest + 1 := by
  rw [directiveExtent.eq_3]
  rintro after hc rfl
  exact hclose ⟨hc, rfl⟩

end Skipped

/-- A directive that is left in the middle, perhaps in a comment. -/
def LeavesDirective : Bool → List Char → List Char → Prop
  | true, cs, after => ∃ behind, EndsComment cs behind ∧ EndsDirective behind after
  | false, cs, after => EndsDirective cs after

theorem leavesDirective_extent (inComment : Bool) (cs : List Char) :
    LeavesDirective inComment cs (cs.drop (directiveExtent inComment cs)) := by
  fun_induction directiveExtent inComment cs with
  | case1 inComment =>
    cases inComment with
    | true => exact ⟨[], .unclosed (by decide), .text⟩
    | false => exact .text
  | case2 rest ih => exact ⟨rest, endsComment_close, ih⟩
  | case3 c rest hclose ih =>
    obtain ⟨behind, hcomment, hdirective⟩ := ih
    refine ⟨behind, .cons (fun hc => ?_) hcomment, hdirective⟩
    obtain ⟨after, rfl⟩ := List.head?_eq_some_iff.mp hc.2
    exact hclose after hc.1 rfl
  | case4 rest => exact .feed
  | case5 rest ih => exact .continued ih
  | case6 rest ih =>
    obtain ⟨behind, hcomment, hdirective⟩ := ih
    exact .comment hcomment hdirective
  | case7 c rest hfeed hcontinued hcomment ih =>
    refine .char hfeed (fun hc => ?_) (fun hc => ?_) ih
    · obtain ⟨after, rfl⟩ := List.head?_eq_some_iff.mp hc.2
      exact hcontinued after hc.1 rfl
    · obtain ⟨after, rfl⟩ := List.head?_eq_some_iff.mp hc.2
      exact hcomment after hc.1 rfl

theorem skips_lineExtent (fresh : Prop) (rest : List Char) :
    Skips fresh ('/' :: '/' :: rest) (rest.drop (lineExtent rest)) := by
  have hdrop : rest.drop (lineExtent rest) = rest.dropWhile (· != '\n') :=
    List.drop_length_takeWhile _ _
  have hbody : '\n' ∉ rest.takeWhile (· != '\n') := by
    intro hmem
    simpa using List.mem_takeWhile_imp hmem
  have hend : AtLineEnd (rest.dropWhile (· != '\n')) := by
    have hhead := List.head?_dropWhile_not (· != '\n') rest
    cases hd : rest.dropWhile (· != '\n') with
    | nil => exact .inl rfl
    | cons c after =>
      rw [hd] at hhead
      simp only [List.head?_cons, bne_eq_false_iff_eq] at hhead
      exact .inr (by rw [hhead]; rfl)
  have h : Skips fresh ('/' :: '/' ::
      (rest.takeWhile (· != '\n') ++ rest.dropWhile (· != '\n'))) (rest.dropWhile (· != '\n')) :=
    .lineComment hbody hend
  rwa [List.takeWhile_append_dropWhile, ← hdrop] at h

/-- What is skipped is one of the parts without a token. -/
theorem skips_of_skipExtent? {fresh : Prop} {lineStart : Bool} {c : Char} {rest : List Char}
    {n : Nat} (hfresh : lineStart → fresh) (h : skipExtent? lineStart c rest = some n) :
    Skips fresh (c :: rest) (rest.drop n) := by
  unfold skipExtent? at h
  split at h
  · cases h
    exact .continued
  · cases h
    exact skips_lineExtent fresh _
  · cases h
    exact .comment (endsComment_extent _)
  · split at h
    · rename_i hstart
      cases h
      exact .directive (hfresh hstart) (leavesDirective_extent false rest)
    · cases h
  · split at h
    · rename_i hblank
      cases h
      exact .blank hblank
    · cases h

/-- A token starts where no part without one does. -/
theorem skipExtent?_eq_none_iff {lineStart : Bool} {c : Char} {rest : List Char} :
    skipExtent? lineStart c rest = none ↔ Text.isBlank c = false ∧
      (c = '#' → lineStart = false) ∧ (c = '\\' → rest.head? ≠ some '\n') ∧
      (c = '/' → rest.head? ≠ some '/' ∧ rest.head? ≠ some '*') := by
  unfold skipExtent?
  split
  · simp
  · simp
  · simp
  · have hblank : Text.isBlank '#' = false := by decide
    cases lineStart <;> simp [hblank]
  · rename_i hdirective hcontinued hline hcomment
    have hcontinued : c = '\\' → rest.head? ≠ some '\n' := by
      intro hc hhead
      obtain ⟨after, rfl⟩ := List.head?_eq_some_iff.mp hhead
      exact hcontinued after hc rfl
    have hcomment : c = '/' → rest.head? ≠ some '/' ∧ rest.head? ≠ some '*' := by
      intro hc
      constructor
      · intro hhead
        obtain ⟨after, rfl⟩ := List.head?_eq_some_iff.mp hhead
        exact hline after hc rfl
      · intro hhead
        obtain ⟨after, rfl⟩ := List.head?_eq_some_iff.mp hhead
        exact hcomment after hc rfl
    have hdirective : c ≠ '#' := fun hc => hdirective hc
    cases hb : Text.isBlank c <;> simp_all

end GotoCheck.Source
