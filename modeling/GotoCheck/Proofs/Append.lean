import Mathlib.Data.List.Forall2
import GotoCheck.Proofs.Handles
import GotoCheck.Proofs.TargetNumbers
import GotoCheck.Samples

/-! Moving a program behind another. All instructions are moved before the first jump is led over,
so nothing is lost where a jump leads out of the moved program: what stands before that jump has its
jumps led over, it and what stands behind it keep theirs. -/
namespace GotoCheck

namespace Program
variable {p q r : Program} {h t u : Handle} {i : Instruction} {k tag issued done : Nat}
variable {rows : List (Nat × Instruction)} {code : List Instruction}

/-- What stands under `t` in `q` stands under `u` in `r`, behind as many instructions as `p` has. -/
def Becomes (p q r : Program) (t u : Handle) : Prop :=
  ∃ k, q.ids[k]? = some t ∧ r.ids[p.size + k]? = some u

/-- The program `r` is `p` with the instructions of `q` behind its own, under the next handles of
`p`. The first `done` of them jump to where those are now that they have jumped to in `q`, and the
others have their old targets. -/
structure MovedBehind (p q : Program) (done : Nat) (r : Program) : Prop where
  tag : r.tag = p.tag
  ids : r.ids = p.ids ++ (List.range' p.issued q.size).map p.handle
  kept : r.instructions.take p.size = p.instructions
  moved : ∀ (k : Nat) (i : Instruction), q.instructions[k]? = some i →
    ∃ targets, r.instructions[p.size + k]? = some { i with targets } ∧
      (k < done → List.Forall₂ (Becomes p q r) i.targets targets) ∧
      (done ≤ k → targets = i.targets)

section Retarget

/-- Leading rows over stops at the first instruction with a target that has no image. -/
theorem retargetRows_spec (image : Handle → Option Handle) (hcode : rows.map Prod.snd = code) :
    ∃ done ≤ code.length, (retargetRows image rows).1.map Prod.snd =
        ((code.take done).map fun i => { i with targets := i.targets.map (leadOver image) }) ++
          code.drop done ∧
      (∀ i ∈ code.take done, ∀ t ∈ i.targets, (image t).isSome) ∧
      (done = code.length ∧ (retargetRows image rows).2 = .ok () ∨
        ∃ i t, code[done]? = some i ∧ i.targets.find? (fun t => (image t).isNone) = some t ∧
          (retargetRows image rows).2 = .error (.danglingTarget t)) := by
  subst hcode
  induction rows with
  | nil => exact ⟨0, Nat.le_refl 0, rfl, fun i hi => absurd hi List.not_mem_nil, .inl ⟨rfl, rfl⟩⟩
  | cons r rest ih =>
    obtain ⟨slot, i⟩ := r
    cases hfind : i.targets.find? fun t => (image t).isNone with
    | some t =>
      -- the row itself is at fault, so it and the rest stay
      have hrow := Instruction.retarget_of_find? hfind
      refine ⟨0, Nat.zero_le _, ?_, fun j hj => absurd hj List.not_mem_nil,
        .inr ⟨i, t, rfl, hfind, ?_⟩⟩
      · rw [retargetRows, hrow]
        rfl
      · rw [retargetRows, hrow]
    | none =>
      have hall : ∀ t ∈ i.targets, (image t).isSome := isSome_of_find?_eq_none hfind
      have hrow := Instruction.retarget_of_isSome hall
      obtain ⟨done, hle, hrows, himages, hend⟩ := ih
      refine ⟨done + 1, Nat.succ_le_succ hle, ?_, ?_, ?_⟩
      · rw [retargetRows, hrow]
        dsimp only
        rw [List.map_cons, hrows]
        rfl
      · intro j hj
        rcases List.mem_cons.mp hj with rfl | hj
        · exact hall
        · exact himages j hj
      · rw [retargetRows, hrow]
        rcases hend with ⟨hdone, hok⟩ | ⟨j, t, hj, ht, herror⟩
        · exact .inl ⟨congrArg Nat.succ hdone, hok⟩
        · exact .inr ⟨j, t, hj, ht, herror⟩

/-- Moved instructions have their jumps led over up to the first that leads out of `q`. -/
theorem transferRows_spec (q : Program) (tag issued : Nat) :
    ∃ done ≤ q.size, (q.transferRows tag issued).1.map Prod.snd =
        (q.movedCode tag issued).take done ++ q.instructions.drop done ∧
      (∀ i ∈ q.instructions.take done, i.targets ⊆ q.ids) ∧
      (done = q.size ∧ (q.transferRows tag issued).2 = .ok () ∨
        ∃ i t, q.instructions[done]? = some i ∧
          i.targets.find? (fun t => !q.contains t) = some t ∧
          (q.transferRows tag issued).2 = .error (.danglingTarget t)) := by
  have hcode : ((q.instructions.zipIdx issued).map fun r => (r.2, r.1)).map Prod.snd =
      q.instructions := by
    rw [List.map_map]
    exact List.zipIdx_map_fst issued _
  have hmissing : (fun t => (q.moved tag issued t).isNone) = fun t => !q.contains t := by
    funext t
    exact isNone_moved
  obtain ⟨done, hle, hrows, himages, hend⟩ := retargetRows_spec (q.moved tag issued) hcode
  rw [length_instructions] at hle hend
  refine ⟨done, hle, ?_, ?_, ?_⟩
  · rw [movedCode, ← List.map_take]
    exact hrows
  · intro i hi t ht
    have hsome := himages i hi t ht
    rwa [moved, Option.isSome_map, position?_isSome_iff] at hsome
  · rw [hmissing] at hend
    exact hend

end Retarget

section Append

theorem instructions_append : (p.append q).1.instructions =
    p.instructions ++ (q.transferRows p.tag p.issued).1.map Prod.snd := List.map_append

theorem getElem?_ids_append (hk : k < q.size) :
    (p.append q).1.ids[p.size + k]? = some ⟨p.tag, p.issued + k⟩ := by
  have hright : p.ids.length ≤ p.size + k := by
    rw [length_ids]
    exact Nat.le_add_right _ _
  rw [ids_append, List.getElem?_append_right hright, length_ids, Nat.add_sub_cancel_left,
    List.getElem?_map, List.getElem?_range' hk, Option.map_some, Nat.one_mul]
  rfl

theorem becomes_leadOver (ht : t ∈ q.ids) :
    Becomes p q (p.append q).1 t (leadOver (q.moved p.tag p.issued) t) := by
  obtain ⟨k, hk⟩ := Option.isSome_iff_exists.mp (position?_isSome_iff.mpr ht)
  refine ⟨k, getElem?_ids_of_position? hk, ?_⟩
  rw [getElem?_ids_append (lt_size_of_position? hk), leadOver_moved hk]

theorem movedBehind_append (hle : done ≤ q.size)
    (hrows : (q.transferRows p.tag p.issued).1.map Prod.snd =
      (q.movedCode p.tag p.issued).take done ++ q.instructions.drop done)
    (hinside : ∀ i ∈ q.instructions.take done, i.targets ⊆ q.ids) :
    MovedBehind p q done (p.append q).1 where
  tag := rfl
  ids := ids_append
  kept := by
    rw [instructions_append, ← length_instructions, List.take_left]
  moved := by
    intro k i hi
    have hlength : ((q.movedCode p.tag p.issued).take done).length = done := by
      rw [List.length_take, movedCode, List.length_map, length_instructions]
      exact Nat.min_eq_left hle
    have hplace : (p.append q).1.instructions[p.size + k]? =
        ((q.movedCode p.tag p.issued).take done ++ q.instructions.drop done)[k]? := by
      rw [instructions_append, hrows, ← length_instructions,
        List.getElem?_append_right (Nat.le_add_right _ _), Nat.add_sub_cancel_left]
    rw [hplace]
    by_cases hk : k < done
    · have hmem : i ∈ q.instructions.take done := by
        refine List.mem_iff_getElem?.mpr ⟨k, ?_⟩
        rw [List.getElem?_take_of_lt hk, hi]
      refine ⟨i.targets.map (leadOver (q.moved p.tag p.issued)), ?_, fun _ => ?_,
        fun hge => absurd hk (Nat.not_lt_of_le hge)⟩
      · rw [List.getElem?_append_left (by rwa [hlength]), List.getElem?_take_of_lt hk, movedCode,
          List.getElem?_map, hi, Option.map_some]
      · rw [List.forall₂_map_right_iff, List.forall₂_same]
        intro t ht
        exact becomes_leadOver (hinside i hmem ht)
    · have hge : done ≤ k := Nat.le_of_not_lt hk
      refine ⟨i.targets, ?_, fun hlt => absurd hlt hk, fun _ => rfl⟩
      rw [List.getElem?_append_right (by rwa [hlength]), hlength, List.getElem?_drop,
        Nat.add_sub_cancel' hge, hi]

/-- The instructions before the place `k` keep to `q`, and the one at the place does not. -/
theorem exists_firstStray (hi : q.instructions[k]? = some i)
    (hinside : ∀ j ∈ q.instructions.take k, j.targets ⊆ q.ids)
    (ht : i.targets.find? (fun t => !q.contains t) = some t) :
    ∃ h, q.ids[k]? = some h ∧ q.FirstStray h t := by
  obtain ⟨hout, before, after, htargets, hbefore⟩ := List.find?_eq_some_iff_append.mp ht
  obtain ⟨h, hh⟩ := exists_getElem?_ids (lt_size_of_getElem?_instructions hi)
  have hjump : q.jumps[k]? = some (h, before ++ t :: after) := by
    rw [getElem?_instructions] at hi
    rw [getElem?_ids] at hh
    obtain ⟨row, hrow, rfl⟩ := Option.map_eq_some_iff.mp hi
    rw [hrow, Option.map_some, Option.some.injEq] at hh
    rw [jumps, List.getElem?_map, hrow, Option.map_some, hh, htargets]
  refine ⟨h, hh, q.jumps.take k, before, after, q.jumps.drop (k + 1), ?_, ?_, ?_, ?_⟩
  · obtain ⟨hlt, heq⟩ := List.getElem?_eq_some_iff.mp hjump
    rw [← heq, List.getElem_cons_drop, List.take_append_drop]
  · intro e he
    rw [jumps, ← List.map_take] at he
    obtain ⟨row, hrow, rfl⟩ := List.mem_map.mp he
    apply hinside
    rw [instructions, ← List.map_take]
    exact List.mem_map_of_mem hrow
  · intro u hu
    exact contains_iff.mp (by simpa using hbefore u hu)
  · rw [← contains_iff]
    simpa using hout

/-- A program is moved as a whole, or up to its first jump that leads out of it. -/
theorem append_spec (p q : Program) :
    ((p.append q).2 = .ok () ∧ q.Closed ∧ MovedBehind p q q.size (p.append q).1) ∨
      ∃ k h t, (p.append q).2 = .error (.danglingTarget t) ∧ q.ids[k]? = some h ∧
        q.FirstStray h t ∧ MovedBehind p q k (p.append q).1 := by
  obtain ⟨done, hle, hrows, hinside, hend⟩ := transferRows_spec q p.tag p.issued
  have hmoved := movedBehind_append hle hrows hinside
  rcases hend with ⟨rfl, hok⟩ | ⟨i, t, hi, ht, herror⟩
  · rw [← length_instructions, List.take_length] at hinside
    refine .inl ⟨hok, ?_, hmoved⟩
    intro t ht
    obtain ⟨i, hi, ht⟩ := mem_targets.mp ht
    exact hinside i hi ht
  · obtain ⟨h, hh, hstray⟩ := exists_firstStray hi hinside ht
    exact .inr ⟨done, h, t, herror, hh, hstray, hmoved⟩

theorem FirstStray.not_closed (hstray : q.FirstStray h t) : ¬q.Closed := by
  intro hclosed
  rw [← firstStray?_eq_some_iff, firstStray?_eq_none_iff.mpr hclosed] at hstray
  cases hstray

end Append

end Program

namespace Workspace
variable {name source : String} {commands : List Command} {p q : Program} {w : Workspace}

theorem givenAlong_append (later : List Command) : w.givenAlong (commands ++ later) =
    w.givenAlong commands ++ (w.runs commands).givenAlong later := by
  induction commands generalizing w with
  | nil => rfl
  | cons c rest ih =>
    rw [List.cons_append, givenAlong, ih, givenAlong, List.append_assoc]
    rfl

/-- What a command gives out was not given out before. -/
theorem not_mem_givenAlong {c : Command} {h : Handle} (hh : h ∈ (after commands).given c) :
    h ∉ empty.givenAlong commands := by
  intro hold
  have hnodup : (empty.givenAlong (commands ++ [c])).Nodup := orderly_empty.givenAlong_fresh.2
  rw [givenAlong_append, givenAlong, givenAlong, List.append_nil] at hnodup
  exact (List.disjoint_of_nodup_append hnodup) hold hh

theorem run_append_eq (hp : w.program? name = some p) (hq : w.program? source = some q) :
    w.run (.append name source) =
      ((w.put name (p.append q).1).putEmpty source, .ofOutcome (p.append q).2) := by
  simp only [run, hp, hq]

/-- What was in the source is in no program any more. -/
theorem silent_of_moved (hw : w.Orderly) (hp : w.program? name = some p)
    (hq : w.program? source = some q) {h : Handle} (hh : h ∈ q.ids) {n : String} {s : Program}
    (hs : (w.run (.append name source)).1.program? n = some s) : s.Silent h := by
  apply Program.silent_of_not_contains
  intro hlive
  have hsource : w.Live source h := ⟨q, hq, Program.contains_iff.mpr hh⟩
  rcases Orderly.live_run ⟨s, hs, hlive⟩ with hold | hgiven
  · -- it was in no other program than the source, which is empty now
    have hn : n = source := hw.live_inj hold hsource
    rw [run_append_eq hp hq, program?_putEmpty, if_pos hn] at hs
    cases hs
    cases Program.contains_iff.mp hlive
  · exact Orderly.not_spent_of_given hgiven (hw.spent_of_live hsource)

/-- Moving the program `source` behind another loses nothing, whether it succeeds or not. The source
is empty afterwards, and no program knows its handles. Behind what was there before, the
instructions stand in their order under handles that were never given out. It succeeds exactly if
all jumps of the source stay in it; otherwise the first jump that leads out is named, and from its
instruction on the targets are the old ones. Moving the instructions one by one, and only then
leading the jumps of one after the other over, comes to the same. -/
theorem run_append (commands : List Command) (hne : name ≠ source)
    (hp : (after commands).program? name = some p)
    (hq : (after commands).program? source = some q) :
    let result := (after commands).run (.append name source)
    ∃ r, result.1.program? name = some r ∧
      result.1.program? source = some (.empty (after commands).nextTag) ∧
      (∀ n, n ≠ name → n ≠ source → result.1.program? n = (after commands).program? n) ∧
      (∀ h ∈ q.ids, ∀ n s, result.1.program? n = some s → s.Silent h) ∧
      (∀ h ∈ r.ids.drop p.size, h ∉ empty.givenAlong commands) ∧
      (result.2 = .done ↔ q.Closed) ∧
      ((result.2 = .done ∧ Program.MovedBehind p q q.size r) ∨
        ∃ k h t, result.2 = .failed (.danglingTarget t) ∧ q.ids[k]? = some h ∧
          q.FirstStray h t ∧ Program.MovedBehind p q k r) ∧
      ∃ outcome, (Arena.ofProgram p).append (Arena.ofProgram q) = (Arena.ofProgram r, outcome) ∧
        result.2 = .ofOutcome outcome := by
  intro result
  have hw : (after commands).Orderly := orderly_empty.runs _
  have hresult : result = (((after commands).put name (p.append q).1).putEmpty source,
      .ofOutcome (p.append q).2) := run_append_eq hp hq
  have hgiven : (p.append q).1.ids.drop p.size = (after commands).given (.append name source) := by
    simp only [given, hp, hq]
  refine ⟨(p.append q).1, ?_, ?_, ?_, ?_, ?_, ?_, ?_, ?_⟩
  · rw [hresult, program?_putEmpty, if_neg hne, program?_put, if_pos rfl]
  · rw [hresult, program?_putEmpty, if_pos rfl]
    rfl
  · intro n hn hn'
    rw [hresult, program?_putEmpty, if_neg hn', program?_put, if_neg hn]
  · intro h hh n s hs
    exact silent_of_moved hw hp hq hh hs
  · intro h hh
    rw [hgiven] at hh
    exact not_mem_givenAlong hh
  · rw [hresult]
    rcases Program.append_spec p q with ⟨hok, hclosed, -⟩ | ⟨k, h, t, herror, -, hstray, -⟩
    · rw [hok]
      exact ⟨fun _ => hclosed, fun _ => rfl⟩
    · rw [herror]
      refine ⟨fun hdone => ?_, fun hclosed => absurd hclosed hstray.not_closed⟩
      cases hdone
  · rw [hresult]
    rcases Program.append_spec p q with ⟨hok, -, hmoved⟩ | ⟨k, h, t, herror, hh, hstray, hmoved⟩
    · exact .inl ⟨by rw [hok]; rfl, hmoved⟩
    · exact .inr ⟨k, h, t, by rw [herror]; rfl, hh, hstray, hmoved⟩
  · have hwf := hw.wellFormed
    refine ⟨(p.append q).2, Arena.append_ofProgram (hwf.program? hp) (hwf.program? hq), ?_⟩
    rw [hresult]

/-- A program whose jumps lead back and forth, to an instruction that is gone and into another. -/
def jumpsOut : List Command := [
  .create "p",
  .create "q",
  .edit "p" (.add (.ofStatement .skip)),
  .edit "p" (.add (.goto (Samples.intVariable "c::y") ⟨1, 0⟩)),
  .edit "q" (.add (.goto (Samples.intVariable "c::z") ⟨1, 2⟩)),
  .edit "q" (.add (.ofStatement .skip)),
  .edit "q" (.add { statement := .catches ["e", "f"], targets := [⟨1, 0⟩, ⟨1, 0⟩] }),
  .edit "q" (.add { statement := .catches ["e", "f"], targets := [⟨1, 2⟩, ⟨1, 1⟩, ⟨0, 0⟩] }),
  .edit "q" (.add (.goto (Samples.intVariable "c::y") ⟨1, 0⟩)),
  .edit "q" (.remove ⟨1, 1⟩)]

theorem moved_up_to_stray : ∃ p q r, (after jumpsOut).program? "p" = some p ∧
    (after jumpsOut).program? "q" = some q ∧
    ((after jumpsOut).run (.append "p" "q")).1.program? "p" = some r ∧
    ((after jumpsOut).run (.append "p" "q")).1.program? "q" = some (.empty 2) ∧
    ((after jumpsOut).run (.append "p" "q")).2 = .failed (.danglingTarget ⟨1, 1⟩) ∧
    Program.MovedBehind p q 2 r ∧
    r.ids = [⟨0, 0⟩, ⟨0, 1⟩, ⟨0, 2⟩, ⟨0, 3⟩, ⟨0, 4⟩, ⟨0, 5⟩] ∧
    r.instructions.map Instruction.targets = [[], [⟨1, 0⟩], [⟨0, 3⟩], [⟨0, 2⟩, ⟨0, 2⟩],
      [⟨1, 2⟩, ⟨1, 1⟩, ⟨0, 0⟩], [⟨1, 0⟩]] := by
  obtain ⟨p, hp⟩ : ∃ p, (after jumpsOut).program? "p" = some p :=
    Option.isSome_iff_exists.mp (by decide +kernel)
  obtain ⟨q, hq⟩ : ∃ q, (after jumpsOut).program? "q" = some q :=
    Option.isSome_iff_exists.mp (by decide +kernel)
  obtain ⟨r, hr, hsource, -, -, -, hdone_iff, hmoved, -⟩ := run_append jumpsOut (by decide) hp hq
  have hstray : ((after jumpsOut).program? "q").bind Program.firstStray? =
      some (⟨1, 3⟩, ⟨1, 1⟩) := by
    decide +kernel
  have hplace : ((after jumpsOut).program? "q").bind (fun q => q.position? ⟨1, 3⟩) = some 2 := by
    decide +kernel
  have hrun : (((after jumpsOut).run (.append "p" "q")).1.program? "p").map
      (fun r => (r.ids, r.instructions.map Instruction.targets)) =
      some ([⟨0, 0⟩, ⟨0, 1⟩, ⟨0, 2⟩, ⟨0, 3⟩, ⟨0, 4⟩, ⟨0, 5⟩],
        [[], [⟨1, 0⟩], [⟨0, 3⟩], [⟨0, 2⟩, ⟨0, 2⟩], [⟨1, 2⟩, ⟨1, 1⟩, ⟨0, 0⟩], [⟨1, 0⟩]]) := by
    decide +kernel
  rw [hq, Option.bind_some] at hstray hplace
  rw [hr, Option.map_some, Option.some.injEq, Prod.mk.injEq] at hrun
  rcases hmoved with ⟨hdone, -⟩ | ⟨k, h, t, hfailed, hh, hfirst, hmoved⟩
  · have hnone := Program.firstStray?_eq_none_iff.mpr (hdone_iff.mp hdone)
    rw [hstray] at hnone
    cases hnone
  · rw [← Program.firstStray?_eq_some_iff, hstray] at hfirst
    cases hfirst
    have hwf : q.WellFormed := (wellFormed_after jumpsOut).program? hq
    rw [hwf.place_inj hh (Program.getElem?_ids_of_position? hplace)] at hmoved
    exact ⟨p, q, r, hp, hq, hr, hsource, hfailed, hmoved, hrun.1, hrun.2⟩

end Workspace
end GotoCheck
