import GotoCheck.Proofs.Arena.Effects

/-! Every state that commands lead to. The tables of each program are in step, and each command does
to the lists of instructions what it is named for. -/
namespace GotoCheck

def Instruction.dropTargets (i : Instruction) : Instruction := { i with targets := [] }

/-- The programs that a command has to find. -/
def Command.needs : Command → List String
  | .create _ => []
  | .clear name => [name]
  | .edit name _ => [name]
  | .append name source => [name, source]
  | .copy _ source => [source]

namespace Program
variable {p q : Program} {tag issued : Nat} {image : Handle → Option Handle}
variable {rows : List (Nat × Instruction)}

theorem dropTargets_of_retarget {i j : Instruction} (h : i.retarget image = .ok j) :
    j.dropTargets = i.dropTargets := by
  rw [Instruction.retarget_eq] at h
  cases hts : i.targets.mapM (resolve image) with
  | error e =>
    rw [hts] at h
    cases h
  | ok ts =>
    rw [hts] at h
    cases h
    rfl

/-- Leading jumps over changes nothing but targets, also where it fails. -/
theorem dropTargets_retargetRows : (retargetRows image rows).1.map (fun r => r.2.dropTargets) =
    rows.map fun r => r.2.dropTargets := by
  induction rows with
  | nil => rfl
  | cons r rest ih =>
    obtain ⟨slot, i⟩ := r
    rw [retargetRows]
    cases h : i.retarget image with
    | error e => rfl
    | ok j =>
      dsimp only
      rw [List.map_cons, ih, List.map_cons, dropTargets_of_retarget h]

theorem dropTargets_transferRows (q : Program) (tag issued : Nat) :
    (q.transferRows tag issued).1.map (fun r => r.2.dropTargets) =
      q.listing.map fun e => e.2.dropTargets := by
  have hcode : (q.instructions.zipIdx issued).map (fun r => r.1.dropTargets) =
      q.instructions.map Instruction.dropTargets := by
    rw [← List.zipIdx_map_fst issued q.instructions, List.map_map, List.zipIdx_map_fst]
    rfl
  rw [Arena.transferRows_eq, dropTargets_retargetRows, List.map_map, listing, List.map_map]
  refine hcode.trans ?_
  rw [instructions, List.map_map]
  rfl

/-- What is appended stands behind what was there, under handles that were never given out. -/
theorem listing_append : ∃ moved, (p.append q).1.listing = p.listing ++ moved ∧
    moved.map Prod.fst = (List.range' p.issued q.size).map p.handle ∧
      moved.map (fun e => e.2.dropTargets) = q.listing.map fun e => e.2.dropTargets := by
  refine ⟨(q.transferRows p.tag p.issued).1.map fun r => (p.handle r.1, r.2), ?_, ?_, ?_⟩
  · exact listing_of_rows rfl
  · rw [List.map_map, ← map_fst_transferRows p.tag, List.map_map]
    rfl
  · rw [List.map_map, ← dropTargets_transferRows q p.tag p.issued]
    rfl

theorem renumbered_copy (q : Program) (tag : Nat) : Renumbered Instruction.dropTargetNumber
    ⟨tag, q.size, (q.transferRows tag 0).1⟩ (q.copy tag).1 := by
  unfold copy
  split
  · rename_i rows heq
    rw [heq, computeTargetNumbers_fst]
    exact renumbered_numberTargets fun _ _ => rfl
  · rename_i rows e heq
    rw [heq]
    exact ⟨rfl, rfl⟩

theorem listing_copy (q : Program) (tag : Nat) : (q.copy tag).1.listing.map Prod.fst =
      (List.range q.size).map (Handle.mk tag) ∧
    (q.copy tag).1.listing.map (fun e => e.2.dropTargetNumber.dropTargets) =
      q.listing.map fun e => e.2.dropTargetNumber.dropTargets := by
  have hsame := (renumbered_copy q tag).listing
  refine ⟨?_, ?_⟩
  · have hhandles := congrArg (List.map Prod.fst) hsame
    rw [List.map_map, List.map_map] at hhandles
    refine hhandles.trans ?_
    rw [listing, List.map_map, List.range_eq_range', ← map_fst_transferRows tag, List.map_map]
    rfl
  · have hcode := congrArg (List.map fun e => e.2.dropTargets) hsame
    rw [List.map_map, List.map_map] at hcode
    refine hcode.trans ?_
    have hmoved := congrArg (List.map Instruction.dropTargetNumber)
      (dropTargets_transferRows q tag 0)
    rw [List.map_map, List.map_map] at hmoved
    refine Eq.trans ?_ hmoved
    rw [listing, List.map_map]
    rfl

end Program

namespace Store
variable {w : Workspace} {s : Store} {name n source : String} {a : Arena} {p : Program}

/-- What a command makes of a store and what it answers. Programs that are not named stay as they
are. -/
inductive Commanded (s : Store) : Command → Store → Reply → Prop
  | create {s' : Store} {name : String} : s'.arena? name = some (.empty s.nextTag) →
      (∀ n, n ≠ name → s'.arena? n = s.arena? n) → Commanded s (.create name) s' .done
  | clear {s' : Store} {name : String} {a : Arena} : s.arena? name = some a →
      s'.arena? name = some (.empty s.nextTag) → (∀ n, n ≠ name → s'.arena? n = s.arena? n) →
      Commanded s (.clear name) s' .done
  | edit {s' : Store} {name : String} {change : Edit} {reply : Reply} {a b : Arena} :
      s.arena? name = some a → s'.arena? name = some b → b.tag = a.tag →
      a.nextHandle ∉ a.order → Edited a.nextHandle a.listing change b.listing reply →
      (∀ n, n ≠ name → s'.arena? n = s.arena? n) → Commanded s (.edit name change) s' reply
  | append {s' : Store} {name source : String} {reply : Reply} {a b c : Arena}
      {moved : List (Handle × Instruction)} : source ≠ name →
      s.arena? name = some a → s.arena? source = some b → s'.arena? name = some c →
      s'.arena? source = some (.empty s.nextTag) → c.tag = a.tag →
      c.listing = a.listing ++ moved →
      moved.map Prod.fst = (List.range' a.slots.length b.order.length).map (Handle.mk a.tag) →
      moved.map (fun e => e.2.dropTargets) = b.listing.map (fun e => e.2.dropTargets) →
      (∀ n, n ≠ name → n ≠ source → s'.arena? n = s.arena? n) →
      Commanded s (.append name source) s' reply
  /-- A program that is moved to its own end is left empty. -/
  | appendSelf {s' : Store} {name : String} {reply : Reply} {a : Arena} : s.arena? name = some a →
      s'.arena? name = some (.empty s.nextTag) → (∀ n, n ≠ name → s'.arena? n = s.arena? n) →
      Commanded s (.append name name) s' reply
  | copy {s' : Store} {name source : String} {reply : Reply} {b c : Arena} :
      s.arena? source = some b → s'.arena? name = some c → c.tag = s.nextTag →
      c.listing.map Prod.fst = (List.range b.order.length).map (Handle.mk s.nextTag) →
      c.listing.map (fun e => e.2.dropTargetNumber.dropTargets) =
        b.listing.map (fun e => e.2.dropTargetNumber.dropTargets) →
      (∀ n, n ≠ name → s'.arena? n = s.arena? n) → Commanded s (.copy name source) s' reply
  | absent {c : Command} {name : String} : name ∈ c.needs → s.arena? name = none →
      Commanded s c s .noProgram

section Lookups

theorem arena?_put (hn : n ≠ name) :
    (ofWorkspace (w.put name p)).arena? n = (ofWorkspace w).arena? n := by
  rw [arena?_ofWorkspace, Workspace.program?_put, if_neg hn, arena?_ofWorkspace]

theorem arena?_put_self : (ofWorkspace (w.put name p)).arena? name = some (.ofProgram p) := by
  rw [arena?_ofWorkspace, Workspace.program?_put, if_pos rfl]
  rfl

theorem arena?_putEmpty (hn : n ≠ name) :
    (ofWorkspace (w.putEmpty name)).arena? n = (ofWorkspace w).arena? n := by
  rw [arena?_ofWorkspace, Workspace.program?_putEmpty, if_neg hn, arena?_ofWorkspace]

theorem arena?_putEmpty_self :
    (ofWorkspace (w.putEmpty name)).arena? name = some (.empty w.nextTag) := by
  rw [arena?_ofWorkspace, Workspace.program?_putEmpty, if_pos rfl]
  rfl

theorem arena?_of_program? (hp : w.program? name = some p) :
    (ofWorkspace w).arena? name = some (.ofProgram p) := by
  rw [arena?_ofWorkspace, hp]
  rfl

theorem arena?_of_absent (hp : w.program? name = none) : (ofWorkspace w).arena? name = none := by
  rw [arena?_ofWorkspace, hp]
  rfl

end Lookups

section Run

theorem commanded_edit (hp : w.program? name = some p) (hwf : p.WellFormed) (change : Edit) :
    Commanded (ofWorkspace w) (.edit name change)
      (ofWorkspace (w.put name (change.apply p).1)) (change.apply p).2 := by
  have hwf' := Edit.wellFormed_apply hwf change
  have hfresh : p.nextHandle ∉ p.ids := fun hmem =>
    Nat.lt_irrefl _ (hwf.slot_lt (s := p.issued) hmem)
  have hedited := hwf.edited_apply change
  rw [← Arena.listing_ofProgram hwf, ← Arena.listing_ofProgram hwf',
    ← Arena.nextHandle_ofProgram] at hedited
  refine .edit (arena?_of_program? hp) arena?_put_self (Edit.tag_apply change) ?_ hedited ?_
  · rw [Arena.nextHandle_ofProgram]
    exact hfresh
  · intro n hn
    exact arena?_put hn

theorem commanded_append {q : Program} {reply : Reply} (hw : w.WellFormed)
    (hp : w.program? name = some p) (hq : w.program? source = some q) :
    Commanded (ofWorkspace w) (.append name source)
      (ofWorkspace ((w.put name (p.append q).1).putEmpty source)) reply := by
  by_cases hself : source = name
  · subst hself
    refine .appendSelf (arena?_of_program? hp) arena?_putEmpty_self fun n hn => ?_
    rw [arena?_putEmpty hn, arena?_put hn]
  · have hwf := hw.program? hp
    have hwfq := hw.program? hq
    obtain ⟨moved, hlisting, hhandles, hcontents⟩ := Program.listing_append (p := p) (q := q)
    rw [← Arena.listing_ofProgram hwf, ← Arena.listing_ofProgram hwf.append] at hlisting
    rw [← Arena.listing_ofProgram hwfq] at hcontents
    have hkept : (ofWorkspace ((w.put name (p.append q).1).putEmpty source)).arena? name =
        some (.ofProgram (p.append q).1) := by
      rw [arena?_putEmpty (Ne.symm hself), arena?_put_self]
    refine .append hself (arena?_of_program? hp) (arena?_of_program? hq) hkept
      arena?_putEmpty_self rfl hlisting ?_ hcontents fun n hn hn' => ?_
    · rw [hhandles, Arena.length_slots_ofProgram, ← Program.length_ids]
      rfl
    · rw [arena?_putEmpty hn', arena?_put hn]

theorem commanded_copy {q : Program} {reply : Reply} (hwf : q.WellFormed)
    (hq : w.program? source = some q) :
    Commanded (ofWorkspace w) (.copy name source)
      (ofWorkspace (({ w with nextTag := w.nextTag + 1 }).put name (q.copy w.nextTag).1))
      reply := by
  obtain ⟨hhandles, hcontents⟩ := Program.listing_copy q w.nextTag
  rw [← Arena.listing_ofProgram Program.wellFormed_copy] at hhandles hcontents
  rw [← Arena.listing_ofProgram hwf] at hcontents
  refine .copy (arena?_of_program? hq) arena?_put_self Program.tag_copy ?_ hcontents fun n hn => ?_
  · rw [hhandles, ← Program.length_ids]
    rfl
  · exact arena?_put (w := ⟨w.programs, w.nextTag + 1⟩) hn

theorem commanded_run (hw : w.WellFormed) (c : Command) :
    Commanded (ofWorkspace w) c (ofWorkspace (w.run c).1) (w.run c).2 := by
  cases c with
  | create name => exact .create arena?_putEmpty_self fun n hn => arena?_putEmpty hn
  | clear name =>
    rw [Workspace.run]
    cases hp : w.program? name with
    | none => exact .absent List.mem_cons_self (arena?_of_absent hp)
    | some p =>
      exact .clear (arena?_of_program? hp) arena?_putEmpty_self fun n hn => arena?_putEmpty hn
  | edit name change =>
    rw [Workspace.run]
    cases hp : w.program? name with
    | none => exact .absent List.mem_cons_self (arena?_of_absent hp)
    | some p => exact commanded_edit hp (hw.program? hp) change
  | append name source =>
    rw [Workspace.run]
    cases hp : w.program? name with
    | none => exact .absent List.mem_cons_self (arena?_of_absent hp)
    | some p =>
      cases hq : w.program? source with
      | none =>
        exact .absent (List.mem_cons_of_mem name List.mem_cons_self) (arena?_of_absent hq)
      | some q => exact commanded_append hw hp hq
  | copy name source =>
    rw [Workspace.run]
    cases hq : w.program? source with
    | none => exact .absent List.mem_cons_self (arena?_of_absent hq)
    | some q => exact commanded_copy (hw.program? hq) hq

/-- Whatever commands came before, the store holds the tables of the workspace. The tables of every
program are in step, all questions about it are answered from its list of handles, and its tag is
taken. The next command answers as it does for the workspace, and acts on the lists as named. -/
theorem after_refines (commands : List Command) :
    after commands = ofWorkspace (Workspace.after commands) ∧
    (∀ name a, (after commands).arena? name = some a →
      a.Consistent ∧ a.Answers ∧ a.tag < (after commands).nextTag) ∧
    ∀ c, ((after commands).run c).2 = ((Workspace.after commands).run c).2 ∧
      Commanded (after commands) c ((after commands).run c).1 ((after commands).run c).2 := by
  have hw := Workspace.wellFormed_after commands
  have heq := after_eq_ofWorkspace commands
  rw [heq]
  refine ⟨rfl, ?_, ?_⟩
  · intro name a ha
    rw [arena?_ofWorkspace] at ha
    obtain ⟨p, hp, rfl⟩ := Option.map_eq_some_iff.mp ha
    have hconsistent := Arena.consistent_ofProgram (hw.program? hp)
    exact ⟨hconsistent, hconsistent.answers, Workspace.tagsTaken_after commands name p hp⟩
  · intro c
    rw [run_ofWorkspace hw]
    exact ⟨rfl, commanded_run hw c⟩

/-- Six instructions, one before the first and one behind the third, without the fifth of the six
and without the new first. -/
def editedProgram : List Command :=
  .create "p" :: List.replicate 6 (.edit "p" (.add (.ofStatement .skip))) ++ [
    .edit "p" (.insertBefore ⟨0, 0⟩ (.ofStatement .skip)),
    .edit "p" (.insertAfter ⟨0, 2⟩ (.ofStatement .skip)),
    .edit "p" (.remove ⟨0, 4⟩),
    .edit "p" (.remove ⟨0, 6⟩)]

theorem tables_of_editedProgram : ∃ a, (after editedProgram).arena? "p" = some a ∧
    a.Consistent ∧ a.Answers ∧
    a.order = [⟨0, 0⟩, ⟨0, 1⟩, ⟨0, 2⟩, ⟨0, 7⟩, ⟨0, 3⟩, ⟨0, 5⟩] ∧
    a.positions = [some 0, some 1, some 2, some 4, none, some 5, none, some 3] ∧
    a.next? ⟨0, 3⟩ = some ⟨0, 5⟩ := by
  obtain ⟨a, ha⟩ : ∃ a, (after editedProgram).arena? "p" = some a :=
    Option.isSome_iff_exists.mp (by decide +kernel)
  have htables : ((after editedProgram).arena? "p").map
      (fun a => (a.order, a.positions, a.next? ⟨0, 3⟩)) =
      some ([⟨0, 0⟩, ⟨0, 1⟩, ⟨0, 2⟩, ⟨0, 7⟩, ⟨0, 3⟩, ⟨0, 5⟩],
        [some 0, some 1, some 2, some 4, none, some 5, none, some 3], some ⟨0, 5⟩) := by
    decide +kernel
  rw [ha, Option.map_some, Option.some.injEq, Prod.mk.injEq, Prod.mk.injEq] at htables
  obtain ⟨hconsistent, hanswers, -⟩ := (after_refines editedProgram).2.1 "p" a ha
  exact ⟨a, ha, hconsistent, hanswers, htables⟩

end Run

end Store
end GotoCheck
