import GotoCheck.Proofs.Workspace

/-! What happened before. Tags are given out in ascending order, so a program whose tag is fresh has
no handle in common with any program that ever was. -/
namespace GotoCheck

namespace Program
variable {p q : Program} {h : Handle} {tag start : Nat}

theorem tag_computeTargetNumbers : p.computeTargetNumbers.1.tag = p.tag := by
  unfold computeTargetNumbers
  dsimp only
  split <;> rfl

theorem tag_update : p.update.1.tag = p.tag := by
  have hq := tag_computeTargetNumbers (p := p)
  unfold update
  split <;> rename_i heq <;> rw [heq] at hq <;> exact hq

theorem tag_shareLoopNumber {n : Nat} : (p.shareLoopNumber h n).tag = p.tag := by
  unfold shareLoopNumber
  dsimp only
  split <;> rfl

theorem tag_numberLoops : (p.numberLoops start).tag = p.tag := by
  unfold numberLoops
  generalize p.backwardsGotos.zipIdx start = numbered
  induction numbered generalizing p with
  | nil => rfl
  | cons b rest ih => rw [List.foldl_cons, ih, tag_shareLoopNumber]

theorem tag_copy : (q.copy tag).1.tag = tag := by
  unfold copy
  split
  · exact tag_computeTargetNumbers
  · rfl

/-- A handle is in no program but that of its tag. -/
theorem program_of_contains (hp : p.contains h) : h.program = p.tag := by
  obtain ⟨r, -, rfl⟩ := List.mem_map.mp (contains_iff.mp hp)
  rfl

end Program

theorem Edit.tag_keep {p : Program} {reply : Reply} {r : Except ProgramError Program}
    (hr : ∀ q, r = .ok q → q.tag = p.tag) : (keep p reply r).1.tag = p.tag := by
  cases r with
  | ok q => exact hr q rfl
  | error e => rfl

/-- No edit gives a program another tag. -/
theorem Edit.tag_apply {p : Program} (change : Edit) : (change.apply p).1.tag = p.tag := by
  cases change with
  | add i => rfl
  | insertBefore h i =>
    refine tag_keep fun q hq => ?_
    unfold Program.insertBefore at hq
    cases hk : p.locate h <;> rw [hk] at hq <;> cases hq
    rfl
  | insertAfter h i =>
    refine tag_keep fun q hq => ?_
    unfold Program.insertAfter at hq
    cases hk : p.locate h <;> rw [hk] at hq <;> cases hq
    rfl
  | remove h =>
    simp only [Edit.apply, Program.remove]
    cases p.get? h <;> rfl
  | set h i =>
    refine tag_keep fun q hq => ?_
    unfold Program.set at hq
    split at hq <;> cases hq
    rfl
  | computeTargetNumbers => exact Program.tag_computeTargetNumbers
  | update => exact Program.tag_update
  | numberLocations start => rfl
  | numberLoops start => exact Program.tag_numberLoops

namespace Workspace
variable {w : Workspace} {name source n : String} {p q : Program}

/-- The workspace that commands lead to, starting with no program. -/
def after (commands : List Command) : Workspace :=
  commands.foldl (fun w c => (w.run c).1) empty

theorem after_append_singleton (commands : List Command) (c : Command) :
    after (commands ++ [c]) = ((after commands).run c).1 := by
  rw [after, List.foldl_append]
  rfl

theorem wellFormed_after (commands : List Command) : (after commands).WellFormed :=
  wellFormed_of_commands commands

theorem program?_put : (w.put name p).program? n = if n = name then some p else w.program? n :=
  NameMap.get?_insert

theorem program?_putEmpty : (w.putEmpty name).program? n =
    if n = name then some (.empty w.nextTag) else w.program? n :=
  NameMap.get?_insert

/-- The tags of all programs are taken. -/
def TagsTaken (w : Workspace) : Prop := ∀ n p, w.program? n = some p → p.tag < w.nextTag

theorem TagsTaken.put (hw : w.TagsTaken) (hp : p.tag < w.nextTag) :
    (w.put name p).TagsTaken := by
  intro n q hq
  rw [program?_put] at hq
  split at hq
  · cases hq
    exact hp
  · exact hw n q hq

theorem TagsTaken.putEmpty (hw : w.TagsTaken) : (w.putEmpty name).TagsTaken := by
  intro n q hq
  rw [program?_putEmpty] at hq
  split at hq
  · cases hq
    exact Nat.lt_succ_self w.nextTag
  · exact Nat.lt_succ_of_lt (hw n q hq)

/-- A command takes at most one tag, and leaves every program under a tag that is taken. -/
theorem TagsTaken.run (hw : w.TagsTaken) (c : Command) :
    (w.run c).1.TagsTaken ∧ w.nextTag ≤ (w.run c).1.nextTag := by
  cases c with
  | create name => exact ⟨hw.putEmpty, Nat.le_succ _⟩
  | clear name =>
    simp only [Workspace.run]
    cases w.program? name with
    | none => exact ⟨hw, Nat.le_refl _⟩
    | some p => exact ⟨hw.putEmpty, Nat.le_succ _⟩
  | edit name change =>
    simp only [Workspace.run]
    cases hp : w.program? name with
    | none => exact ⟨hw, Nat.le_refl _⟩
    | some p =>
      have htag : (change.apply p).1.tag < w.nextTag := by
        rw [Edit.tag_apply]
        exact hw name p hp
      exact ⟨hw.put htag, Nat.le_refl _⟩
  | append name source =>
    simp only [Workspace.run]
    cases hp : w.program? name with
    | none => exact ⟨hw, Nat.le_refl _⟩
    | some p =>
      cases w.program? source with
      | none => exact ⟨hw, Nat.le_refl _⟩
      | some q =>
        have htag : (p.append q).1.tag < w.nextTag := hw name p hp
        exact ⟨(hw.put htag).putEmpty, Nat.le_succ _⟩
  | copy name source =>
    simp only [Workspace.run]
    cases w.program? source with
    | none => exact ⟨hw, Nat.le_refl _⟩
    | some q =>
      have htaken : TagsTaken ⟨w.programs, w.nextTag + 1⟩ := fun n p hp =>
        Nat.lt_succ_of_lt (hw n p hp)
      have htag : (q.copy w.nextTag).1.tag < w.nextTag + 1 := by
        rw [Program.tag_copy]
        exact Nat.lt_succ_self _
      exact ⟨htaken.put htag, Nat.le_succ _⟩

theorem TagsTaken.runs (hw : w.TagsTaken) (commands : List Command) :
    (commands.foldl (fun w c => (w.run c).1) w).TagsTaken ∧
      w.nextTag ≤ (commands.foldl (fun w c => (w.run c).1) w).nextTag := by
  induction commands generalizing w with
  | nil => exact ⟨hw, Nat.le_refl _⟩
  | cons c rest ih =>
    obtain ⟨htaken, hle⟩ := hw.run c
    obtain ⟨hrest, hle'⟩ := ih htaken
    exact ⟨hrest, Nat.le_trans hle hle'⟩

theorem tagsTaken_after (commands : List Command) : (after commands).TagsTaken := by
  have hstart : empty.TagsTaken := by
    intro n p hp
    cases hp
  exact (hstart.runs commands).1

/-- No program ever had a tag that has yet to be given out. -/
theorem tag_lt_nextTag {earlier commands : List Command} (hearlier : earlier <+: commands)
    (hp : (after earlier).program? n = some p) : p.tag < (after commands).nextTag := by
  obtain ⟨later, rfl⟩ := hearlier
  have htaken := tagsTaken_after earlier
  have hlater := (htaken.runs later).2
  rw [after, List.foldl_append]
  exact Nat.lt_of_lt_of_le (htaken n p hp) hlater

end Workspace
end GotoCheck
