import GotoCheck.Proofs.BackEdges
import GotoCheck.Proofs.Copy
import GotoCheck.Proofs.LoopControl

/-! Ways out of loops. A jump that leaves a loop leads to the end marker of its program, and so do a
return and a conditional back edge if some jump has brought the marker in. Without such a jump the
back edge is the last instruction of the loop: a return leads to it, and nothing comes behind it. -/
namespace GotoCheck

namespace Program
variable {p : Program} {h : Handle} {i : Instruction} {k : Nat}

/-- The instruction under the handle ends a function. -/
def endsAt (p : Program) (h : Handle) : Bool := (p.get? h).any Instruction.isEndFunction

theorem WellFormed.endsAt_eq (hp : p.WellFormed) (hk : p.ids[k]? = some h)
    (hi : p.instructions[k]? = some i) : p.endsAt h = i.isEndFunction := by
  rw [endsAt, hp.get?_eq hk, hi, Option.any_some]

end Program

namespace Instruction
variable {i : Instruction}

theorem not_isEndFunction_of_isGoto (hi : i.isGoto) : i.isEndFunction = false := by
  unfold isGoto at hi
  unfold isEndFunction
  split at hi
  · rename_i hs
    rw [hs]
  · cases hi

end Instruction

namespace Loop
variable {body : Program} {s : Span} {k : Nat} {t h : Handle} {i : Instruction} {l : Loop}

/-- Wherever control may leave the stretch, it may come to the end of a function in the loop. -/
def ShowsExits (body : Program) (s : Span) (l : Loop) : Prop :=
  ∀ (k : Nat) (h : Handle), k < s.length → body.ids[s.first + k]? = some h →
    (∃ u ∈ body.successors h, s.place? body u = none) →
      ∃ u ∈ l.program.successors ⟨l.program.tag, k⟩, l.program.endsAt u

/-- The loop has the head and the back edge of the stretch, and the back edge leads to the head
alone. -/
structure ClosedBy (body : Program) (s : Span) (l : Loop) (i : Instruction) : Prop where
  lt : s.first < s.last
  headAt : body.ids[s.first]? = some l.head
  backEdgeAt : body.ids[s.last]? = some l.backEdge
  instruction : body.instructions[s.last]? = some i
  isGoto : i.isGoto
  targets : i.targets = [l.head]

section Slice

theorem SliceOf.endsAt_copy (hslice : SliceOf body s l) (hle : s.first ≤ s.last) (hk : k < s.length)
    (hi : body.instructions[s.first + k]? = some i) :
    l.program.endsAt ⟨l.program.tag, k⟩ = i.isEndFunction := by
  obtain ⟨n, hcopy⟩ := hslice.copies k i ((getElem?_code hle hk).trans hi)
  have hid := hslice.getElem?_ids (Nat.lt_of_lt_of_le hk hslice.length_le)
  rw [hslice.wellFormed.endsAt_eq hid hcopy]
  rfl

theorem SliceOf.endsAt_marker (hslice : SliceOf body s l) (hleaves : s.leaves body) :
    l.program.endsAt ⟨l.program.tag, s.length⟩ := by
  obtain ⟨n, hmarker⟩ := hslice.marker hleaves
  have hsize : s.length < l.program.size := by simp [hslice.size, hleaves]
  rw [hslice.wellFormed.endsAt_eq (hslice.getElem?_ids hsize) hmarker]
  rfl

/-- The handle behind the copies is there only for the marker. -/
theorem SliceOf.leaves_of_mem (hslice : SliceOf body s l)
    (hmem : ⟨l.program.tag, s.length⟩ ∈ l.program.ids) : s.leaves body := by
  rw [hslice.ids, List.mem_map] at hmem
  obtain ⟨j, hj, heq⟩ := hmem
  cases heq
  have hlt := List.mem_range.mp hj
  rw [hslice.size] at hlt
  by_contra hnot
  simp [hnot] at hlt

theorem SliceOf.last?_eq (hslice : SliceOf body s l) : l.program.last? =
    some ⟨l.program.tag, if s.leaves body then s.length else s.last - s.first⟩ := by
  have hsize := hslice.size
  have hlength : s.length = s.last - s.first + 1 := rfl
  rw [Program.last?_eq_getElem?, hslice.getElem?_ids (by omega)]
  split at hsize <;> rename_i hleaves <;> simp [hleaves] <;> omega

end Slice

section Exits

theorem place?_eq_none_of_lt {j : Nat} (hbody : body.WellFormed) (hid : body.ids[j]? = some t)
    (hlt : s.last < j) : s.place? body t = none := by
  rw [Span.place?, hbody.position?_eq_some_iff.mpr hid, Option.bind_some, if_neg (by omega)]

theorem ClosedBy.last_lt (hc : ClosedBy body s l i) : s.last < body.size :=
  Program.lt_size_of_getElem?_ids hc.backEdgeAt

/-- The back edge is a jump, so a body that ends with an end of function goes on behind it. -/
theorem ClosedBy.succ_last_lt (hc : ClosedBy body s l i) (hbody : body.WellFormed)
    (hlast : body.last? = some t) (hend : body.endsAt t) : s.last + 1 < body.size := by
  rw [Program.last?_eq_getElem?] at hlast
  have hlt := hc.last_lt
  -- else the last instruction would be both a jump and an end of function
  have hne : s.last ≠ body.size - 1 := by
    intro heq
    rw [hbody.endsAt_eq (heq ▸ hlast) hc.instruction,
      Instruction.not_isEndFunction_of_isGoto hc.isGoto] at hend
    cases hend
  omega

theorem ClosedBy.place?_head (hc : ClosedBy body s l i) (hbody : body.WellFormed) :
    s.place? body l.head = some 0 :=
  (place?_eq_some_iff hbody (Nat.le_of_lt hc.lt)).mpr ⟨Nat.succ_pos _, hc.headAt⟩

/-- An unconditional back edge is no way out. -/
theorem ClosedBy.guard_of_out (hc : ClosedBy body s l i) (hbody : body.WellFormed)
    (hout : ∃ u ∈ body.successors l.backEdge, s.place? body u = none) :
    i.guard.isTrue = false := by
  obtain ⟨u, hu, hplace⟩ := hout
  cases hg : i.guard.isTrue with
  | false => rfl
  | true =>
    rw [hbody.successors_eq hc.backEdgeAt hc.instruction, Program.leadsTo_of_isGoto hc.isGoto,
      if_pos hg, hc.targets, List.mem_singleton] at hu
    rw [hu, hc.place?_head hbody] at hplace
    cases hplace

theorem ClosedBy.out_of_guard (hc : ClosedBy body s l i) (hbody : body.WellFormed)
    (hlt : s.last + 1 < body.size) (hg : i.guard.isTrue = false) :
    ∃ u ∈ body.successors l.backEdge, s.place? body u = none := by
  obtain ⟨u, hu⟩ := Program.exists_getElem?_ids hlt
  refine ⟨u, ?_, place?_eq_none_of_lt hbody hu (Nat.lt_succ_self _)⟩
  rw [hbody.successors_eq hc.backEdgeAt hc.instruction, Program.leadsTo_of_isGoto hc.isGoto, hg, hu]
  exact List.mem_append_right _ (List.mem_singleton_self u)

/-- A jump that leaves the stretch leads to the marker in the loop. -/
theorem SliceOf.shows_before (hslice : SliceOf body s l) (hbody : body.WellFormed)
    (hlt : s.first + k < s.last) (hlast : s.last < body.size)
    (hid : body.ids[s.first + k]? = some h) (hi : body.instructions[s.first + k]? = some i)
    (hret : i.isReturn = false) (hout : ∃ u ∈ body.successors h, s.place? body u = none) :
    ∃ u ∈ l.program.successors ⟨l.program.tag, k⟩, l.program.endsAt u := by
  obtain ⟨u, hu, hplace⟩ := hout
  have himage : s.image body l.program.tag u = ⟨l.program.tag, s.length⟩ := by
    rw [Span.image, hplace]
    rfl
  have hmarker : ⟨l.program.tag, s.length⟩ ∈ l.program.successors ⟨l.program.tag, k⟩ := by
    rw [hslice.successors_before hbody hlt hlast hid hi hret, ← himage]
    exact List.mem_map_of_mem hu
  -- control stays in the loop, so the marker is there
  have hmem := hslice.closed.successors_subset hmarker
  exact ⟨_, hmarker, hslice.endsAt_marker (hslice.leaves_of_mem hmem)⟩

theorem SliceOf.successors_return_eq (hslice : SliceOf body s l) (hle : s.first ≤ s.last)
    (hk : k < s.length) (hi : body.instructions[s.first + k]? = some i) (hret : i.isReturn) :
    l.program.successors ⟨l.program.tag, k⟩ =
      [⟨l.program.tag, if s.leaves body then s.length else s.last - s.first⟩] := by
  rw [hslice.successors_return hle hk hi hret, hslice.last?_eq]
  rfl

/-- Without the marker the last instruction of the loop is the back edge. -/
theorem SliceOf.not_endsAt_backEdge (hslice : SliceOf body s l) (hc : ClosedBy body s l i) :
    l.program.endsAt ⟨l.program.tag, s.last - s.first⟩ = false := by
  have hback : s.first + (s.last - s.first) = s.last := Nat.add_sub_cancel' (Nat.le_of_lt hc.lt)
  rw [hslice.endsAt_copy (Nat.le_of_lt hc.lt) (Nat.lt_succ_self _) (hback.symm ▸ hc.instruction)]
  exact Instruction.not_isEndFunction_of_isGoto hc.isGoto

theorem SliceOf.endsAt_head (hslice : SliceOf body s l) (hbody : body.WellFormed)
    (hc : ClosedBy body s l i) :
    l.program.endsAt ⟨l.program.tag, 0⟩ = body.endsAt l.head := by
  obtain ⟨j, hj⟩ := Program.exists_getElem?_instructions (Nat.lt_trans hc.lt hc.last_lt)
  rw [hslice.endsAt_copy (Nat.le_of_lt hc.lt) (Nat.succ_pos _) hj, hbody.endsAt_eq hc.headAt hj]

/-- The copy of the back edge shows a way out by the marker, or by a head that ends a function. -/
theorem SliceOf.shows_backEdge_iff (hslice : SliceOf body s l) (hbody : body.WellFormed)
    (hc : ClosedBy body s l i) (hg : i.guard.isTrue = false) :
    (∃ u ∈ l.program.successors ⟨l.program.tag, s.last - s.first⟩, l.program.endsAt u) ↔
      s.leaves body ∨ body.endsAt l.head := by
  rw [hslice.successors_backEdge hbody hc.lt hc.instruction hc.isGoto hc.targets hc.headAt, hg,
    ← hslice.endsAt_head hbody hc]
  cases hleaves : s.leaves body with
  | true =>
    have hmarker := hslice.endsAt_marker hleaves
    simp [hmarker]
  | false => simp

/-- The copy of a return shows that it leaves the loop by the marker alone. -/
theorem SliceOf.shows_return_iff (hslice : SliceOf body s l) {j : Instruction}
    (hc : ClosedBy body s l i) (hk : k < s.length)
    (hj : body.instructions[s.first + k]? = some j) (hret : j.isReturn) :
    (∃ u ∈ l.program.successors ⟨l.program.tag, k⟩, l.program.endsAt u) ↔ s.leaves body := by
  rw [hslice.successors_return_eq (Nat.le_of_lt hc.lt) hk hj hret]
  cases hleaves : s.leaves body with
  | true =>
    have hmarker := hslice.endsAt_marker hleaves
    simp [hmarker]
  | false =>
    have hback := hslice.not_endsAt_backEdge hc
    simp [hback]

/-- Every way out is seen in a loop with the marker. In a loop without it no return is, nor what
comes behind a conditional back edge, unless the loop begins with an end of a function. -/
theorem SliceOf.showsExits_iff (hslice : SliceOf body s l) (hbody : body.WellFormed)
    (hc : ClosedBy body s l i) (hlast : body.last? = some t) (hend : body.endsAt t) :
    ShowsExits body s l ↔ s.leaves body ∨
      (∀ j ∈ s.code body, j.isReturn = false) ∧ (i.guard.isTrue ∨ body.endsAt l.head) := by
  have hle := Nat.le_of_lt hc.lt
  have hlength : s.length = s.last - s.first + 1 := rfl
  have hback : s.first + (s.last - s.first) = s.last := Nat.add_sub_cancel' hle
  have hsize := hc.succ_last_lt hbody hlast hend
  constructor
  · intro hshows
    by_cases hleaves : s.leaves body
    · exact .inl hleaves
    refine .inr ⟨?_, ?_⟩
    · intro j hj
      obtain ⟨k, hk⟩ := List.getElem?_of_mem hj
      have hlt : k < s.length := by
        rw [← length_code hle hc.last_lt]
        exact (List.getElem?_eq_some_iff.mp hk).1
      rw [getElem?_code hle hlt] at hk
      obtain ⟨h, hid⟩ := Program.exists_getElem?_ids (p := body) (k := s.first + k) (by omega)
      by_contra hret
      rw [Bool.not_eq_false] at hret
      -- in the body the return leads to the end of the function, which is behind the stretch
      have hout : ∃ u ∈ body.successors h, s.place? body u = none := by
        refine ⟨t, ?_, ?_⟩
        · rw [hbody.successors_eq hid hk, Program.leadsTo_of_isReturn hret, hlast]
          exact List.mem_singleton_self t
        · rw [Program.last?_eq_getElem?] at hlast
          exact place?_eq_none_of_lt hbody hlast (by omega)
      exact hleaves ((hslice.shows_return_iff hc hlt hk hret).mp (hshows k h hlt hid hout))
    · cases hg : i.guard.isTrue with
      | true => exact .inl rfl
      | false =>
        have hshown := hshows (s.last - s.first) l.backEdge (by omega) (hback.symm ▸ hc.backEdgeAt)
          (hc.out_of_guard hbody hsize hg)
        exact .inr (((hslice.shows_backEdge_iff hbody hc hg).mp hshown).resolve_left hleaves)
  · intro hx k h hk hid hout
    obtain ⟨j, hj⟩ :=
      Program.exists_getElem?_instructions (p := body) (k := s.first + k) (by omega)
    -- a way out is a jump before the back edge, a return, or the back edge itself
    rcases Nat.lt_or_ge (s.first + k) s.last with hlt | hge
    · cases hret : j.isReturn with
      | false => exact hslice.shows_before hbody hlt hc.last_lt hid hj hret hout
      | true =>
        apply (hslice.shows_return_iff hc hk hj hret).mpr
        rcases hx with hleaves | ⟨hreturns, -⟩
        · exact hleaves
        · rw [hreturns j (List.mem_of_getElem? ((getElem?_code hle hk).trans hj))] at hret
          cases hret
    · have hplace : k = s.last - s.first := by omega
      subst hplace
      rw [hback, hc.backEdgeAt, Option.some.injEq] at hid
      subst hid
      have hg := hc.guard_of_out hbody hout
      apply (hslice.shows_backEdge_iff hbody hc hg).mpr
      rw [hg] at hx
      exact hx.imp_right fun hx => hx.2.resolve_left Bool.false_ne_true

end Exits
end Loop

theorem Closes.closedBy {body : Program} {s : Loop.Span} {start : Nat} {l : Loop} {target : Handle}
    (h : Closes body s.first s.last l.head l.backEdge target) (hbody : body.WellFormed)
    (hloc : ∀ k i, body.instructions[k]? = some i → i.locationNumber = start + k) :
    ∃ i, Loop.ClosedBy body s l i := by
  obtain ⟨i, hi, htargets⟩ := h.targets
  have hgoto : i.isGoto := by
    have hback := h.backwards
    rw [Program.isBackwardsGoto, hbody.get?_eq h.backEdgeAt, hi] at hback
    exact (Bool.and_eq_true_iff.mp hback).1
  exact ⟨i, {
    lt := h.lt
    headAt := h.headAt
    backEdgeAt := h.backEdgeAt
    instruction := hi
    isGoto := hgoto
    targets := h.target_eq_head hloc ▸ htargets }⟩

namespace LoopSearch
variable {t₀ t : FunctionTable} {function : String} {f : FunctionEntry}

theorem findLoops_closedBy (hbody : f.body.Numbered) (hf : t.get? function = some f) (tag : Nat) :
    ∀ l ∈ ((start tag).findLoops t function).1.loops, ∃ s i,
      f.body.position? l.head = some s.first ∧ f.body.position? l.backEdge = some s.last ∧
        Loop.SliceOf f.body s l ∧ Loop.ClosedBy f.body s l i := by
  intro l hl
  obtain ⟨start, hloc⟩ := hbody.locations
  have hwf := hbody.wellFormed
  obtain ⟨first, last, target, s, tag', hc, hspan, hextract⟩ := (findLoops_sound hf tag).found l hl
  obtain ⟨hhead, hback⟩ := Loop.span_eq_ok_iff.mp hspan
  -- the places that the scan saw are those that the span is made of
  have hfirst : first = s.first :=
    Option.some.inj ((hwf.position?_eq_some_iff.mpr hc.headAt).symm.trans hhead)
  have hlast : last = s.last :=
    Option.some.inj ((hwf.position?_eq_some_iff.mpr hc.backEdgeAt).symm.trans hback)
  subst hfirst hlast
  have hslice := Loop.sliceOf_of_extract hwf (Nat.le_of_lt hc.lt)
    (Program.lt_size_of_position? hback) hextract
  obtain ⟨i, hclosed⟩ := hc.closedBy hwf hloc
  exact ⟨s, i, hhead, hback, hslice, hclosed⟩

/-- In a function that ends with an end of function, a loop shows all ways out of it exactly if some
jump leaves it, or else no return is in it and no way out is behind its back edge. A return that is
in it leads to the marker if some jump leaves the loop, and otherwise to the back edge. -/
theorem findLoops_showsExits_iff (hwf : ∀ n f₀, t₀.get? n = some f₀ → f₀.body.WellFormed)
    (hok : t₀.update = (t, .ok ())) (hf : t.get? function = some f)
    (hend : ∃ h, f.body.last? = some h ∧ f.body.endsAt h) (tag : Nat) :
    ∀ l ∈ ((start tag).findLoops t function).1.loops, ∃ s i,
      f.body.position? l.head = some s.first ∧ f.body.position? l.backEdge = some s.last ∧
      f.body.instructions[s.last]? = some i ∧
      (Loop.ShowsExits f.body s l ↔ s.leaves f.body ∨
        (∀ j ∈ s.code f.body, j.isReturn = false) ∧ (i.guard.isTrue ∨ f.body.endsAt l.head)) ∧
      ∀ k < s.length, ∀ j, f.body.instructions[s.first + k]? = some j → j.isReturn →
        l.program.successors ⟨l.program.tag, k⟩ =
            [⟨l.program.tag, if s.leaves f.body then s.length else s.last - s.first⟩] ∧
          ((∃ u ∈ l.program.successors ⟨l.program.tag, k⟩, l.program.endsAt u) ↔
            s.leaves f.body) := by
  intro l hl
  have hbody := FunctionTable.numbered_of_update hwf hok hf
  obtain ⟨s, i, hhead, hback, hslice, hclosed⟩ := findLoops_closedBy hbody hf tag l hl
  obtain ⟨h, hlast, hends⟩ := hend
  refine ⟨s, i, hhead, hback, hclosed.instruction, ?_, ?_⟩
  · exact hslice.showsExits_iff hbody.wellFormed hclosed hlast hends
  · intro k hk j hj hret
    exact ⟨hslice.successors_return_eq (Nat.le_of_lt hclosed.lt) hk hj hret,
      hslice.shows_return_iff hclosed hk hj hret⟩

/-- The jump that ends the counting loop brings the marker in, and the back edge
is unconditional. -/
theorem exits_of_loopWithHelper : ∃ f l, Samples.loopWithHelper.get? Samples.mainName = some f ∧
    l ∈ ((start 7).findLoops Samples.loopWithHelper Samples.mainName).1.loops ∧
      f.body.position? l.head = some 1 ∧ f.body.position? l.backEdge = some 4 ∧
        Loop.ShowsExits f.body ⟨1, 4⟩ l := by
  obtain ⟨t₀, hwf, hok⟩ := update_loopWithHelper
  have hrun : ((start 7).findLoops Samples.loopWithHelper Samples.mainName).1.loops.map
      (fun l => ((Samples.loopWithHelper.get? Samples.mainName).map fun f =>
        (f.body.position? l.head, f.body.position? l.backEdge), ())) =
      [(some (some 1, some 4), ())] := by
    decide +kernel
  obtain ⟨f, l, hf, hl, hhead, hback, -⟩ := exists_loop_of_map hrun
  have hbody : (Samples.loopWithHelper.get? Samples.mainName).map (fun f =>
      (f.body.last?, f.body.endsAt ⟨0, 6⟩, (Loop.Span.mk 1 4).leaves f.body)) =
      some (some ⟨0, 6⟩, true, true) := by
    decide +kernel
  simp only [hf, Option.map_some, Prod.mk.injEq, Option.some.injEq] at hbody
  obtain ⟨hlast, hends, hleaves⟩ := hbody
  have hmem : l ∈ ((start 7).findLoops Samples.loopWithHelper Samples.mainName).1.loops :=
    hl ▸ List.mem_singleton_self l
  obtain ⟨⟨first, last⟩, i, hfirst, hlast', -, hshows, -⟩ :=
    findLoops_showsExits_iff hwf hok hf ⟨_, hlast, hends⟩ 7 l hmem
  rw [hhead, Option.some.injEq] at hfirst
  rw [hback, Option.some.injEq] at hlast'
  subst hfirst hlast'
  exact ⟨f, l, hf, hmem, hhead, hback, hshows.mpr (.inl hleaves)⟩

/-- `do { x++; if (5 < x) return; } while (x < 9);`. No jump leaves the loop. -/
def doWhile : List (String × Program) :=
  let x := Samples.intVariable "c::main::x"
  let below := Expr.mkBinary .lt (Samples.intConstant 5) x
  [(Samples.mainName, .ofList 0 [
    .assign x (.mkBinary .add x (Samples.intConstant 1)),
    .goto (.mkUnary .not below) ⟨0, 3⟩,
    { statement := .returns none },
    .goto (.mkBinary .lt x (Samples.intConstant 9)) ⟨0, 0⟩,
    .endFunction])]

/-- In the body the return leads to the end of the function, and in the loop to the back edge, from
where control only goes on in the loop. -/
theorem return_stays_in_doWhile : ∃ t₀ f l,
    doWhile.foldl (fun t b => t.insert b.1 { body := b.2 }) FunctionTable.empty = t₀ ∧
    t₀.update = (Samples.tableOf doWhile, .ok ()) ∧
    (Samples.tableOf doWhile).get? Samples.mainName = some f ∧ f.body.last? = some ⟨0, 4⟩ ∧
    f.body.endsAt ⟨0, 4⟩ ∧ f.body.successors ⟨0, 2⟩ = [⟨0, 4⟩] ∧
    ((start 7).findLoops (Samples.tableOf doWhile) Samples.mainName).1.loops = [l] ∧
    f.body.position? l.head = some 0 ∧ f.body.position? l.backEdge = some 3 ∧
    l.program.successors ⟨7, 2⟩ = [⟨7, 3⟩] ∧ l.program.successors ⟨7, 3⟩ = [⟨7, 0⟩] ∧
    ¬l.program.endsAt ⟨7, 3⟩ ∧ ¬Loop.ShowsExits f.body ⟨0, 3⟩ l := by
  have hok : (FunctionTable.ofBodies doWhile).update = (Samples.tableOf doWhile, .ok ()) :=
    FunctionTable.update_ofBodies (by decide +kernel)
  have hrun : ((start 7).findLoops (Samples.tableOf doWhile) Samples.mainName).1.loops.map
      (fun l => (((Samples.tableOf doWhile).get? Samples.mainName).map fun f =>
        (f.body.position? l.head, f.body.position? l.backEdge), l.program.tag,
        l.program.successors ⟨7, 2⟩, l.program.successors ⟨7, 3⟩, l.program.endsAt ⟨7, 3⟩)) =
      [(some (some 0, some 3), 7, [⟨7, 3⟩], [⟨7, 0⟩], false)] := by
    decide +kernel
  obtain ⟨f, l, hf, hl, hhead, hback, hcontrol⟩ := exists_loop_of_map hrun
  have hbody : ((Samples.tableOf doWhile).get? Samples.mainName).map (fun f =>
      (f.body.last?, f.body.endsAt ⟨0, 4⟩, f.body.ids[2]?, f.body.successors ⟨0, 2⟩,
        (Loop.Span.mk 0 3).place? f.body ⟨0, 4⟩)) =
      some (some ⟨0, 4⟩, true, some ⟨0, 2⟩, [⟨0, 4⟩], none) := by
    decide +kernel
  simp only [hf, Option.map_some, Prod.mk.injEq, Option.some.injEq] at hbody hcontrol
  obtain ⟨hlast, hends, hid, hsuccessors, hplace⟩ := hbody
  obtain ⟨htag, hreturn, hloop, hnot⟩ := hcontrol
  have hhidden : ¬Loop.ShowsExits f.body ⟨0, 3⟩ l := by
    intro hshows
    have hout : ∃ u ∈ f.body.successors ⟨0, 2⟩, (Loop.Span.mk 0 3).place? f.body u = none :=
      ⟨_, hsuccessors ▸ List.mem_singleton_self _, hplace⟩
    obtain ⟨u, hu, hend⟩ := hshows 2 ⟨0, 2⟩ (by decide) hid hout
    rw [htag, hreturn, List.mem_singleton] at hu
    rw [hu, hnot] at hend
    cases hend
  refine ⟨_, f, l, rfl, hok, hf, hlast, hends, hsuccessors, hl, hhead, hback, hreturn, hloop, ?_,
    hhidden⟩
  rw [hnot]
  exact Bool.false_ne_true

end LoopSearch
end GotoCheck
