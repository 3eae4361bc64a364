import GotoCheck.FunctionTable
import GotoCheck.SymbolName

/-! The variables that a stretch of code may write, directly or through the functions it calls. The
walk keeps the functions it has met, so each body is read once and recursion ends. -/
namespace GotoCheck

namespace Expr

/-- A named object, which a function is not. -/
def isVariable : Expr → Bool
  | symbol _ t => !t.isCode
  | _ => false

/-- The variables that a written expression names, each with its node. -/
def namedVariables (e : Expr) : List (String × Expr) :=
  (e.nodes.filter isVariable).filterMap fun v => v.symbolName?.map fun n => (n, v)

end Expr

namespace Instruction

/-- The expressions that the instruction writes to. -/
def written (i : Instruction) : List Expr :=
  match i.statement with
  | .assign target _ => [target]
  | .call (some result) _ _ => [result]
  | _ => []

/-- The function that the instruction calls by name. A call through a pointer is not followed. -/
def callee? (i : Instruction) : Option String :=
  match i.statement with
  | .call _ function _ => function.symbolName?
  | _ => none

/-- The program variables among those that the instruction writes. -/
def modified (i : Instruction) : List (String × Expr) :=
  (i.written.flatMap Expr.namedVariables).filter fun v => SymbolName.isProgramVariable v.1

end Instruction

/-- A walk over code and the functions it calls. -/
structure ModifiedWalk where
  /-- What was found to be written; the first expression for a name stays. -/
  modified : NameMap Expr
  /-- Functions that are not to be taken up again, the latest first. -/
  visited : List String
  /-- Functions taken up and not yet read, the latest first. -/
  pending : List String

namespace ModifiedWalk

/-- A walk over code of the given function, which is itself not taken up. -/
def start (function : String) : ModifiedWalk := ⟨.empty, [function], []⟩

/-- Takes up a called function, unless it has been met before. -/
def take (table : FunctionTable) (w : ModifiedWalk) (callee : String) :
    Except ProgramError ModifiedWalk :=
  if w.visited.contains callee then .ok w
  else if (table.get? callee).isNone then .error (.missingFunction callee)
  else .ok { w with visited := callee :: w.visited, pending := callee :: w.pending }

/-- Notes what an instruction writes. -/
def note (w : ModifiedWalk) (i : Instruction) : ModifiedWalk :=
  { w with modified := i.modified.foldl (fun m v => m.insertNew v.1 v.2) w.modified }

/-- Notes what an instruction writes and takes up what it calls. -/
def scan (table : FunctionTable) (w : ModifiedWalk) (i : Instruction) :
    Except ProgramError ModifiedWalk :=
  match i.callee? with
  | some callee => (w.note i).take table callee
  | none => .ok (w.note i)

def scanAll (table : FunctionTable) :
    ModifiedWalk → List Instruction → Except ProgramError ModifiedWalk
  | w, [] => .ok w
  | w, i :: rest =>
    match w.scan table i with
    | .ok w => scanAll table w rest
    | .error e => .error e

/-- Functions of the table that may still be taken up. -/
def unvisited (table : FunctionTable) (visited : List String) : List String :=
  table.names.filter fun n => !visited.contains n

/-- Bounds the work left: a function taken up moves from the first part to the second. -/
def remaining (table : FunctionTable) (w : ModifiedWalk) : Nat :=
  (unvisited table w.visited).length + w.pending.length

theorem mem_names_of_get? {table : FunctionTable} {name : String} (h : (table.get? name).isSome) :
    name ∈ table.names := by
  simp only [FunctionTable.get?, NameMap.get?, Option.isSome_map] at h
  obtain ⟨e, he⟩ := Option.isSome_iff_exists.mp h
  have hm := List.mem_of_find?_eq_some he
  have hn := List.find?_some he
  exact List.mem_map.mpr ⟨e, hm, by simpa using hn⟩

theorem length_unvisited_cons_lt {table : FunctionTable} {visited : List String} {callee : String}
    (hmem : callee ∈ table.names) (hvisited : callee ∉ visited) :
    (unvisited table (callee :: visited)).length < (unvisited table visited).length := by
  have hcons : unvisited table (callee :: visited) =
      (unvisited table visited).filter (· != callee) := by
    unfold unvisited
    rw [List.filter_filter]
    refine List.filter_congr fun n _ => ?_
    rw [List.contains_cons, Bool.not_or]
    rfl
  rw [hcons, List.length_filter_lt_length_iff_exists]
  exact ⟨callee, List.mem_filter.mpr ⟨hmem, by simpa using hvisited⟩, by simp⟩

theorem remaining_take {table : FunctionTable} {w w' : ModifiedWalk} {callee : String}
    (h : w.take table callee = .ok w') : w'.remaining table ≤ w.remaining table := by
  unfold take at h
  split at h
  · cases h; exact Nat.le_refl _
  · rename_i hv
    split at h
    · cases h
    · rename_i hn
      cases h
      have hs : (table.get? callee).isSome := by
        cases hg : table.get? callee <;> simp_all
      have hlt : (unvisited table (callee :: w.visited)).length <
          (unvisited table w.visited).length :=
        length_unvisited_cons_lt (mem_names_of_get? hs) (by simpa using hv)
      simp only [remaining, List.length_cons]
      omega

theorem remaining_scan {table : FunctionTable} {w w' : ModifiedWalk} {i : Instruction}
    (h : w.scan table i = .ok w') : w'.remaining table ≤ w.remaining table := by
  unfold scan at h
  split at h
  · have := remaining_take h
    exact this
  · cases h; exact Nat.le_refl _

theorem remaining_scanAll {table : FunctionTable} {w w' : ModifiedWalk} {is : List Instruction}
    (h : scanAll table w is = .ok w') : w'.remaining table ≤ w.remaining table := by
  induction is generalizing w with
  | nil => cases h; exact Nat.le_refl _
  | cons i rest ih =>
    simp only [scanAll] at h
    split at h
    · rename_i w₁ h₁
      exact Nat.le_trans (ih h) (remaining_scan h₁)
    · cases h

/-- Reads the functions taken up, the latest first, until none is left. -/
def finish (table : FunctionTable) (w : ModifiedWalk) : Except ProgramError ModifiedWalk :=
  match _hp : w.pending with
  | [] => .ok w
  | name :: rest =>
    match table.get? name with
    | none => .error (.missingFunction name)
    | some f =>
      if f.isAvailable then
        match _hs : scanAll table { w with pending := rest } f.body.instructions with
        | .ok w' => finish table w'
        | .error e => .error e
      else finish table { w with pending := rest }
termination_by w.remaining table
decreasing_by
  · have := remaining_scanAll _hs
    simp only [remaining, _hp, List.length_cons] at *
    omega
  · simp only [remaining, _hp, List.length_cons]
    omega

/-- Walks one instruction and all functions it leads to. -/
def walk (table : FunctionTable) (w : ModifiedWalk) (i : Instruction) :
    Except ProgramError ModifiedWalk :=
  match w.scan table i with
  | .ok w => w.finish table
  | .error e => .error e

/-- Walks instructions in order, each with all functions it leads to. -/
def walkAll (table : FunctionTable) :
    ModifiedWalk → List Instruction → Except ProgramError ModifiedWalk
  | w, [] => .ok w
  | w, i :: rest =>
    match w.walk table i with
    | .ok w => walkAll table w rest
    | .error e => .error e

end ModifiedWalk
end GotoCheck
