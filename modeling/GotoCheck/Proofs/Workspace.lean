import GotoCheck.Proofs.NameMap
import GotoCheck.Proofs.Numbering
import GotoCheck.Workspace

/-! Programs stay well-formed. Edits hand out fresh slots or change what stands in old ones, and a
program that is moved or copied gets new slots in a row. -/
namespace GotoCheck

namespace Program
variable {p q : Program} {h : Handle} {i : Instruction} {k start : Nat}

theorem wellFormed_empty {tag : Nat} : (empty tag).WellFormed where
  nodup := List.nodup_nil
  issued := by
    intro s hs
    cases hs

theorem slots_modify {f : Instruction → Instruction} : (p.modify h f).slots = p.slots := by
  rw [slots, slots, modify, List.map_map]
  apply List.map_congr_left
  intro r _
  simp only [Function.comp_apply]
  split <;> rfl

theorem WellFormed.modify {f : Instruction → Instruction} (hp : p.WellFormed) :
    (p.modify h f).WellFormed :=
  hp.of_slots slots_modify rfl

theorem WellFormed.insertAt (hp : p.WellFormed) : (p.insertAt k i).WellFormed := by
  have hslots : (p.insertAt k i).slots = p.slots.take k ++ p.issued :: p.slots.drop k := by
    simp [slots, Program.insertAt]
  -- the new slot lies above all that were handed out
  have hnew : p.issued ∉ p.slots := fun hmem => Nat.lt_irrefl _ (hp.issued _ hmem)
  refine ⟨?_, ?_⟩
  · rw [hslots, List.nodup_middle, List.take_append_drop]
    exact List.nodup_cons.mpr ⟨hnew, hp.nodup⟩
  · intro s hs
    rw [hslots, List.mem_append, List.mem_cons] at hs
    change s < p.issued + 1
    rcases hs with hs | rfl | hs
    · exact Nat.lt_succ_of_lt (hp.issued s (List.mem_of_mem_take hs))
    · exact Nat.lt_succ_self _
    · exact Nat.lt_succ_of_lt (hp.issued s (List.mem_of_mem_drop hs))

theorem WellFormed.filter {keep : Nat × Instruction → Bool} (hp : p.WellFormed) :
    ({ p with rows := p.rows.filter keep } : Program).WellFormed :=
  hp.of_sublist (List.filter_sublist.map Prod.fst) rfl

theorem WellFormed.computeTargetNumbers (hp : p.WellFormed) :
    p.computeTargetNumbers.1.WellFormed := by
  unfold Program.computeTargetNumbers
  dsimp only
  split <;> exact hp.numberTargets

theorem WellFormed.update (hp : p.WellFormed) : p.update.1.WellFormed := by
  have hq := hp.computeTargetNumbers
  unfold Program.update
  split
  · rename_i q hr
    rw [hr] at hq
    exact hq.numberLocations
  · rename_i q e hr
    rw [hr] at hq
    exact hq

theorem WellFormed.shareLoopNumber {n : Nat} (hp : p.WellFormed) :
    (p.shareLoopNumber h n).WellFormed := by
  unfold Program.shareLoopNumber
  dsimp only
  split
  · exact hp.modify.modify
  · exact hp.modify

theorem WellFormed.numberLoops (hp : p.WellFormed) : (p.numberLoops start).WellFormed := by
  unfold Program.numberLoops
  -- one back edge after the other gets its number
  generalize p.backwardsGotos.zipIdx start = numbered
  induction numbered generalizing p with
  | nil => exact hp
  | cons b rest ih => exact ih hp.shareLoopNumber

theorem map_fst_retargetRows {image : Handle → Option Handle} {rows : List (Nat × Instruction)} :
    (retargetRows image rows).1.map Prod.fst = rows.map Prod.fst := by
  induction rows with
  | nil => rfl
  | cons r rest ih =>
    unfold retargetRows
    split
    · rfl
    · rw [List.map_cons, List.map_cons, ih]

theorem map_fst_transferRows (tag issued : Nat) :
    (q.transferRows tag issued).1.map Prod.fst = List.range' issued q.size := by
  rw [transferRows, map_fst_retargetRows, List.map_map, ← length_instructions]
  exact List.zipIdx_map_snd issued q.instructions

theorem WellFormed.append (hp : p.WellFormed) : (p.append q).1.WellFormed := by
  have hslots : (p.append q).1.slots = p.slots ++ List.range' p.issued q.size := by
    rw [← map_fst_transferRows p.tag]
    exact List.map_append
  refine ⟨?_, ?_⟩
  · rw [hslots]
    apply hp.nodup.append List.nodup_range'
    -- the moved instructions get the slots from `issued` on
    intro s hs hs'
    have := hp.issued s hs
    have := (List.mem_range'_1.mp hs').1
    omega
  · intro s hs
    rw [hslots, List.mem_append] at hs
    change s < p.issued + q.size
    rcases hs with hs | hs
    · exact Nat.lt_add_right _ (hp.issued s hs)
    · exact (List.mem_range'_1.mp hs).2

theorem wellFormed_copy {tag : Nat} : (q.copy tag).1.WellFormed := by
  have hrows : (⟨tag, q.size, (q.transferRows tag 0).1⟩ : Program).WellFormed := by
    refine ⟨?_, ?_⟩
    · rw [slots, map_fst_transferRows]
      exact List.nodup_range'
    · intro s hs
      rw [slots, map_fst_transferRows] at hs
      exact Nat.zero_add q.size ▸ (List.mem_range'_1.mp hs).2
  unfold copy
  split
  · rename_i rows hr
    rw [hr] at hrows
    exact hrows.computeTargetNumbers
  · rename_i rows e hr
    rw [hr] at hrows
    exact hrows

end Program

theorem Edit.wellFormed_keep {p : Program} {reply : Reply} {r : Except ProgramError Program}
    (hp : p.WellFormed) (hr : ∀ q, r = .ok q → q.WellFormed) : (keep p reply r).1.WellFormed := by
  cases r with
  | ok q => exact hr q rfl
  | error e => exact hp

theorem Edit.wellFormed_apply {p : Program} (hp : p.WellFormed) (change : Edit) :
    (change.apply p).1.WellFormed := by
  cases change with
  | add i => exact hp.insertAt
  | insertBefore h i =>
    refine wellFormed_keep hp fun q hq => ?_
    unfold Program.insertBefore at hq
    cases hk : p.locate h <;> rw [hk] at hq <;> cases hq
    exact hp.insertAt
  | insertAfter h i =>
    refine wellFormed_keep hp fun q hq => ?_
    unfold Program.insertAfter at hq
    cases hk : p.locate h <;> rw [hk] at hq <;> cases hq
    exact hp.insertAt
  | remove h =>
    simp only [Edit.apply, Program.remove]
    cases p.get? h with
    | none => exact hp
    | some i => exact hp.filter
  | set h i =>
    refine wellFormed_keep hp fun q hq => ?_
    unfold Program.set at hq
    split at hq <;> cases hq
    exact hp.modify
  | computeTargetNumbers => exact hp.computeTargetNumbers
  | update => exact hp.update
  | numberLocations start => exact hp.numberLocations
  | numberLoops start => exact hp.numberLoops

namespace Workspace
variable {w : Workspace} {name : String} {p : Program}

def WellFormed (w : Workspace) : Prop := ∀ e ∈ w.programs.entries, e.2.WellFormed

theorem WellFormed.program? (hw : w.WellFormed) (hp : w.program? name = some p) :
    p.WellFormed := by
  obtain ⟨e, he, rfl⟩ := Option.map_eq_some_iff.mp hp
  exact hw e (List.mem_of_find?_eq_some he)

theorem WellFormed.put (hw : w.WellFormed) (hp : p.WellFormed) : (w.put name p).WellFormed := by
  intro e he
  rcases NameMap.mem_insertEntry he with rfl | he
  · exact hp
  · exact hw e he

theorem WellFormed.putEmpty (hw : w.WellFormed) : (w.putEmpty name).WellFormed :=
  hw.put (p := .empty w.nextTag) Program.wellFormed_empty

theorem wellFormed_run (hw : w.WellFormed) (command : Command) : (w.run command).1.WellFormed := by
  cases command with
  | create name => exact hw.putEmpty
  | clear name =>
    simp only [run]
    cases w.program? name with
    | none => exact hw
    | some p => exact hw.putEmpty
  | edit name change =>
    simp only [run]
    cases hp : w.program? name with
    | none => exact hw
    | some p => exact hw.put (Edit.wellFormed_apply (hw.program? hp) change)
  | append name source =>
    simp only [run]
    cases hp : w.program? name with
    | none => exact hw
    | some p =>
      cases w.program? source with
      | none => exact hw
      | some q => exact (hw.put (hw.program? hp).append).putEmpty
  | copy name source =>
    simp only [run]
    cases w.program? source with
    | none => exact hw
    | some q => exact WellFormed.put (w := ⟨w.programs, w.nextTag + 1⟩) hw Program.wellFormed_copy

/-- Leading a jump elsewhere, done or refused, uses no slot twice. -/
theorem wellFormed_retarget {h : Handle} {image : Handle → Option Handle} (hw : w.WellFormed) :
    (w.retarget name h image).1.WellFormed := by
  unfold retarget
  split
  · exact hw
  · rename_i p hp
    split
    · exact hw
    · split
      · exact hw.put (hw.program? hp).modify
      · exact hw

/-- Whatever is done to programs that start empty, each slot of a program is used once. -/
theorem wellFormed_of_commands (commands : List Command) :
    (commands.foldl (fun w c => (w.run c).1) empty).WellFormed := by
  have hstart : empty.WellFormed := fun e he => by cases he
  generalize empty = w at hstart
  induction commands generalizing w with
  | nil => exact hstart
  | cons c rest ih => exact ih _ (wellFormed_run hstart c)

end Workspace
end GotoCheck
