import Mathlib.Data.List.Induction
import GotoCheck.Proofs.Arena.Moves

/-! Arenas refine programs. Whatever commands run, the store holds the tables of the programs that
the workspace holds, and both answer alike. -/
namespace GotoCheck

namespace Arena
variable {p q : Program} {h : Handle} {i : Instruction}

theorem insertBefore_ofProgram (hp : p.WellFormed) : (ofProgram p).insertBefore h i =
    (p.insertBefore h i).map ofProgram := by
  rw [insertBefore, Program.insertBefore, position?_ofProgram hp, Program.locate]
  cases hk : p.position? h with
  | none => rfl
  | some k =>
    have hlt := Program.lt_size_of_position? hk
    exact congrArg Except.ok (insertAt_ofProgram hp (Nat.le_of_lt hlt))

theorem insertAfter_ofProgram (hp : p.WellFormed) : (ofProgram p).insertAfter h i =
    (p.insertAfter h i).map ofProgram := by
  rw [insertAfter, Program.insertAfter, position?_ofProgram hp, Program.locate]
  cases hk : p.position? h with
  | none => rfl
  | some k => exact congrArg Except.ok (insertAt_ofProgram hp (Program.lt_size_of_position? hk))

theorem set_ofProgram (hp : p.WellFormed) : (ofProgram p).set h i = (p.set h i).map ofProgram := by
  rw [set, contains, get?_ofProgram hp, modify_ofProgram, Program.set, Program.contains]
  split <;> rfl

theorem keep_map {reply : Reply} {r : Except ProgramError Program} :
    keep (ofProgram p) reply (r.map ofProgram) =
      (ofProgram (Edit.keep p reply r).1, (Edit.keep p reply r).2) := by
  cases r <;> rfl

theorem apply_ofProgram (hp : p.WellFormed) (change : Edit) :
    (ofProgram p).apply change = (ofProgram (change.apply p).1, (change.apply p).2) := by
  cases change with
  | add i => rw [apply, add_ofProgram hp, nextHandle_ofProgram, Edit.apply]
  | insertBefore h i =>
    rw [apply, insertBefore_ofProgram hp, nextHandle_ofProgram, keep_map, Edit.apply]
  | insertAfter h i =>
    rw [apply, insertAfter_ofProgram hp, nextHandle_ofProgram, keep_map, Edit.apply]
  | remove h =>
    rw [apply, remove_ofProgram hp, Edit.apply, Program.remove]
    cases p.get? h <;> rfl
  | set h i => rw [apply, set_ofProgram hp, keep_map, Edit.apply]
  | computeTargetNumbers => rw [apply, computeTargetNumbers_ofProgram hp, Edit.apply]
  | update => rw [apply, update_ofProgram hp, Edit.apply]
  | numberLocations start => rw [apply, numberLocations_ofProgram hp, Edit.apply]
  | numberLoops start => rw [apply, numberLoops_ofProgram hp, Edit.apply]

end Arena

namespace Store
variable {w : Workspace} {name : String} {p : Program}

/-- The tables of all programs of a workspace. -/
def ofWorkspace (w : Workspace) : Store := ⟨w.programs.mapValues Arena.ofProgram, w.nextTag⟩

theorem arena?_ofWorkspace : (ofWorkspace w).arena? name = (w.program? name).map Arena.ofProgram :=
  NameMap.get?_mapValues

theorem put_ofWorkspace (w : Workspace) (name : String) (p : Program) :
    (ofWorkspace w).put name (Arena.ofProgram p) = ofWorkspace (w.put name p) := by
  rw [put, ofWorkspace, NameMap.insert_mapValues]
  rfl

theorem putEmpty_ofWorkspace : (ofWorkspace w).putEmpty name = ofWorkspace (w.putEmpty name) := by
  rw [putEmpty, ofWorkspace, ← Arena.ofProgram_empty, NameMap.insert_mapValues]
  rfl

theorem run_ofWorkspace (hw : w.WellFormed) (c : Command) :
    (ofWorkspace w).run c = (ofWorkspace (w.run c).1, (w.run c).2) := by
  cases c with
  | create name => rw [run, putEmpty_ofWorkspace, Workspace.run]
  | clear name =>
    rw [run, arena?_ofWorkspace, Workspace.run]
    cases w.program? name with
    | none => rfl
    | some p => exact congrArg (·, Reply.done) putEmpty_ofWorkspace
  | edit name change =>
    rw [run, arena?_ofWorkspace, Workspace.run]
    cases hp : w.program? name with
    | none => rfl
    | some p =>
      dsimp only [Option.map_some]
      rw [Arena.apply_ofProgram (hw.program? hp), put_ofWorkspace]
  | append name source =>
    rw [run, arena?_ofWorkspace, arena?_ofWorkspace, Workspace.run]
    cases hp : w.program? name with
    | none => rfl
    | some p =>
      cases hq : w.program? source with
      | none => rfl
      | some q =>
        dsimp only [Option.map_some]
        rw [Arena.append_ofProgram (hw.program? hp) (hw.program? hq), put_ofWorkspace,
          putEmpty_ofWorkspace]
  | copy name source =>
    rw [run, arena?_ofWorkspace, Workspace.run]
    cases hq : w.program? source with
    | none => rfl
    | some q =>
      dsimp only [Option.map_some]
      have hput := put_ofWorkspace ⟨w.programs, w.nextTag + 1⟩ name (q.copy w.nextTag).1
      rw [Arena.copy_ofProgram (hw.program? hq)]
      exact congrArg (·, _) hput

/-- Step by step the store keeps up with the workspace. -/
theorem after_eq_ofWorkspace (commands : List Command) :
    after commands = ofWorkspace (Workspace.after commands) := by
  induction commands using List.reverseRecOn with
  | nil => rfl
  | append_singleton commands c ih =>
    have hstep : after (commands ++ [c]) = ((after commands).run c).1 := by
      rw [after, List.foldl_append]
      rfl
    rw [hstep, ih, run_ofWorkspace (Workspace.wellFormed_after commands),
      Workspace.after_append_singleton]

end Store
end GotoCheck
