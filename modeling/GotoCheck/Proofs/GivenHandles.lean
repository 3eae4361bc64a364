import GotoCheck.Proofs.Arena.Commands

/-! The handles that commands give out. An edit gives out at most the next handle of its program, a
move or a copy one handle for each instruction, and every handle in a program was there before the
command or is one that the command has given out. -/
namespace GotoCheck

namespace Program
variable {p q : Program} {h : Handle} {i : Instruction} {k start : Nat}

/-- The handles of a program and its supply of slots, without the instructions. -/
def layout (p : Program) : Nat × Nat × List Nat := (p.tag, p.issued, p.slots)

section Layout

theorem layout_eq_iff :
    q.layout = p.layout ↔ q.tag = p.tag ∧ q.issued = p.issued ∧ q.slots = p.slots := by
  simp [layout]

/-- Under one tag, slots and handles say the same. -/
theorem ids_eq_iff (htag : q.tag = p.tag) : q.ids = p.ids ↔ q.slots = p.slots := by
  have hhandle : q.handle = p.handle := by
    funext s
    rw [handle, handle, htag]
  rw [ids_eq_map_slots, ids_eq_map_slots, hhandle]
  exact (List.map_injective_iff.mpr fun _ _ => handle_inj.mp).eq_iff

/-- Programs of one layout have the same handles at the same places. -/
theorem ids_of_layout (hq : q.layout = p.layout) : q.ids = p.ids := by
  obtain ⟨htag, -, hslots⟩ := layout_eq_iff.mp hq
  exact (ids_eq_iff htag).mpr hslots

theorem layout_modify {f : Instruction → Instruction} : (p.modify h f).layout = p.layout := by
  rw [layout, slots_modify]
  rfl

theorem layout_numberTargets : p.numberTargets.layout = p.layout := by
  rw [layout, slots_numberTargets]
  rfl

theorem layout_numberLocations : (p.numberLocations start).layout = p.layout := by
  rw [layout, slots_numberLocations]
  rfl

theorem layout_update : p.update.1.layout = p.layout := by
  have hcompute : p.computeTargetNumbers.1.layout = p.layout := by
    rw [computeTargetNumbers_fst, layout_numberTargets]
  unfold update
  split
  · rename_i q heq
    rw [heq] at hcompute
    exact layout_numberLocations.trans hcompute
  · rename_i q e heq
    rw [heq] at hcompute
    exact hcompute

theorem layout_shareLoopNumber {n : Nat} : (p.shareLoopNumber h n).layout = p.layout := by
  unfold shareLoopNumber
  dsimp only
  split
  · exact layout_modify.trans layout_modify
  · exact layout_modify

theorem layout_numberLoops : (p.numberLoops start).layout = p.layout := by
  unfold numberLoops
  generalize p.backwardsGotos.zipIdx start = numbered
  induction numbered generalizing p with
  | nil => rfl
  | cons b rest ih => exact ih.trans layout_shareLoopNumber

end Layout

/-- What an edit does to handles: it puts an instruction under the next one, or it gives out none
and brings none in. -/
inductive Handed (p q : Program) : Reply → Prop
  | next {k : Nat} {i : Instruction} : q = p.insertAt k i → Handed p q (.issued p.nextHandle)
  | none {reply : Reply} : (∀ h, reply ≠ .issued h) → q.tag = p.tag → q.issued = p.issued →
      q.ids ⊆ p.ids → Handed p q reply

theorem handed_of_layout {reply : Reply} (hreply : ∀ h, reply ≠ .issued h)
    (hq : q.layout = p.layout) : Handed p q reply := by
  obtain ⟨htag, hissued, -⟩ := layout_eq_iff.mp hq
  refine .none hreply htag hissued ?_
  rw [ids_of_layout hq]
  exact List.Subset.refl _

theorem handed_apply (p : Program) (change : Edit) :
    Handed p (change.apply p).1 (change.apply p).2 := by
  have houtcome (r : Except ProgramError Unit) (h : Handle) : Reply.ofOutcome r ≠ .issued h := by
    cases r <;> exact Reply.noConfusion
  -- the three insertions take the next handle, a removal drops one, and the rest keeps the layout
  cases change with
  | add i => exact .next rfl
  | insertBefore h i =>
    rw [Edit.apply, Program.insertBefore]
    cases p.locate h with
    | error e => exact handed_of_layout (fun _ => Reply.noConfusion) rfl
    | ok k => exact .next rfl
  | insertAfter h i =>
    rw [Edit.apply, Program.insertAfter]
    cases p.locate h with
    | error e => exact handed_of_layout (fun _ => Reply.noConfusion) rfl
    | ok k => exact .next rfl
  | remove h =>
    rw [Edit.apply, Program.remove]
    cases p.get? h with
    | none => exact handed_of_layout (fun _ => Reply.noConfusion) rfl
    | some i =>
      refine .none (fun _ => Reply.noConfusion) rfl rfl fun g hg => ?_
      exact (mem_ids_without.mp hg).1
  | set h i =>
    rw [Edit.apply, Program.set]
    split
    · exact handed_of_layout (fun _ => Reply.noConfusion) layout_modify
    · exact handed_of_layout (fun _ => Reply.noConfusion) rfl
  | computeTargetNumbers =>
    refine handed_of_layout (houtcome _) ?_
    change p.computeTargetNumbers.1.layout = p.layout
    rw [computeTargetNumbers_fst, layout_numberTargets]
  | update => exact handed_of_layout (houtcome _) layout_update
  | numberLocations start =>
    exact handed_of_layout (fun _ => Reply.noConfusion) layout_numberLocations
  | numberLoops start => exact handed_of_layout (fun _ => Reply.noConfusion) layout_numberLoops

theorem Handed.tag {reply : Reply} (hpq : Handed p q reply) : q.tag = p.tag := by
  cases hpq with
  | next hq => rw [hq]; rfl
  | none _ htag _ _ => exact htag

theorem Handed.issued_le {reply : Reply} (hpq : Handed p q reply) : p.issued ≤ q.issued := by
  cases hpq with
  | next hq => rw [hq]; exact Nat.le_succ _
  | none _ _ hissued _ => exact Nat.le_of_eq hissued.symm

/-- No handle comes in but the one that is answered. -/
theorem Handed.mem_ids {reply : Reply} (hpq : Handed p q reply) (hh : h ∈ q.ids) :
    h ∈ p.ids ∨ reply = .issued h := by
  cases hpq with
  | next hq =>
    rw [hq] at hh
    exact (mem_ids_insertAt.mp hh).symm.imp_right fun heq => congrArg Reply.issued heq.symm
  | none _ _ _ hids => exact .inl (hids hh)

theorem Handed.of_issued (hpq : Handed p q (.issued h)) :
    h = p.nextHandle ∧ q.issued = p.issued + 1 := by
  generalize hreply : Reply.issued h = reply at hpq
  cases hpq with
  | next hq =>
    cases hreply
    exact ⟨rfl, by rw [hq]; rfl⟩
  | none hne _ _ _ => exact absurd hreply.symm (hne h)

theorem ids_append : (p.append q).1.ids = p.ids ++ (List.range' p.issued q.size).map p.handle := by
  obtain ⟨moved, hlisting, hhandles, -⟩ := listing_append (p := p) (q := q)
  rw [← map_fst_listing, hlisting, List.map_append, map_fst_listing, hhandles]

theorem ids_copy {tag : Nat} : (q.copy tag).1.ids = (List.range q.size).map (Handle.mk tag) := by
  rw [← map_fst_listing]
  exact (listing_copy q tag).1

theorem issued_copy {tag : Nat} : (q.copy tag).1.issued = q.size := by
  unfold copy
  split
  · rw [computeTargetNumbers_fst]
    rfl
  · rfl

end Program

/-- The program that a command may put under a fresh tag. -/
def Command.renewed? : Command → Option String
  | .create name => some name
  | .clear name => some name
  | .edit _ _ => none
  | .append _ source => some source
  | .copy name _ => some name

namespace Workspace
variable {w : Workspace} {c : Command} {m n : String} {p q : Program} {h : Handle}

/-- The handles that a command gives out: the one that it answers with, or those of all the
instructions that it moves or copies. -/
def given (w : Workspace) : Command → List Handle
  | .edit name change =>
    match (w.run (.edit name change)).2 with
    | .issued h => [h]
    | _ => []
  | .append name source =>
    match w.program? name, w.program? source with
    | some p, some q => (p.append q).1.ids.drop p.size
    | _, _ => []
  | .copy _ source =>
    match w.program? source with
    | some q => (q.copy w.nextTag).1.ids
    | none => []
  | .create _ | .clear _ => []

/-- All handles that commands give out, in order. -/
def givenAlong (w : Workspace) : List Command → List Handle
  | [] => []
  | c :: rest => w.given c ++ (w.run c).1.givenAlong rest

/-- Where a program comes from, after a command: it was there before, under its tag, or it is the
one that was put under a fresh tag. -/
inductive Origin (w : Workspace) (c : Command) (n : String) (q : Program) : Prop
  | kept {p : Program} : w.program? n = some p → q.tag = p.tag → p.issued ≤ q.issued →
      (∀ h ∈ q.ids, h ∈ p.ids ∨ h ∈ w.given c) → Origin w c n q
  | renewed : c.renewed? = some n → q.tag = w.nextTag → w.nextTag < (w.run c).1.nextTag →
      q.ids ⊆ w.given c → Origin w c n q

section Given

theorem eq_or_program?_put {name : String} (hq : (w.put name p).program? n = some q) :
    n = name ∧ q = p ∨ n ≠ name ∧ w.program? n = some q := by
  rw [program?_put] at hq
  split at hq
  · cases hq
    exact .inl ⟨by assumption, rfl⟩
  · exact .inr ⟨by assumption, hq⟩

theorem eq_or_program?_putEmpty {name : String} (hq : (w.putEmpty name).program? n = some q) :
    n = name ∧ q = .empty w.nextTag ∨ n ≠ name ∧ w.program? n = some q :=
  eq_or_program?_put (w := ⟨w.programs, w.nextTag + 1⟩) hq

theorem mem_given_edit {name : String} {change : Edit} (hp : w.program? name = some p) :
    h ∈ w.given (.edit name change) ↔ (change.apply p).2 = .issued h := by
  simp only [given, run, hp]
  cases (change.apply p).2 <;> simp [eq_comm]

theorem mem_given_append {name source : String} (hp : w.program? name = some p)
    (hq : w.program? source = some q) : h ∈ w.given (.append name source) ↔
      ∃ s, p.issued ≤ s ∧ s < p.issued + q.size ∧ h = p.handle s := by
  simp only [given, hp, hq]
  rw [Program.ids_append, ← Program.length_ids, List.drop_left, List.mem_map]
  simp only [List.mem_range'_1, and_assoc, eq_comm]

theorem mem_given_copy {name source : String} (hq : w.program? source = some q) :
    h ∈ w.given (.copy name source) ↔ ∃ s < q.size, h = ⟨w.nextTag, s⟩ := by
  simp only [given, hq]
  rw [Program.ids_copy, List.mem_map]
  simp only [List.mem_range, eq_comm]

theorem nodup_given (hw : w.WellFormed) (c : Command) : (w.given c).Nodup := by
  cases c with
  | create name => exact List.nodup_nil
  | clear name => exact List.nodup_nil
  | edit name change =>
    simp only [given]
    split
    · exact List.nodup_singleton _
    · exact List.nodup_nil
  | append name source =>
    simp only [given]
    split
    · rename_i p q hp hq
      exact (hw.program? hp).append.ids_nodup.sublist (List.drop_sublist _ _)
    · exact List.nodup_nil
  | copy name source =>
    simp only [given]
    split
    · exact Program.wellFormed_copy.ids_nodup
    · exact List.nodup_nil

end Given

section Origins

theorem origin_same (hq : w.program? n = some q) : Origin w c n q :=
  .kept hq rfl (Nat.le_refl _) fun _ hh => .inl hh

theorem origin_putEmpty {name : String} (hc : c.renewed? = some name)
    (hnext : w.nextTag < (w.run c).1.nextTag) (hq : (w.putEmpty name).program? n = some q) :
    Origin w c n q := by
  rcases eq_or_program?_putEmpty hq with ⟨rfl, rfl⟩ | ⟨-, hq⟩
  · exact .renewed hc rfl hnext fun h hh => by cases hh
  · exact origin_same hq

theorem origin_edit {name : String} {change : Edit} (hp : w.program? name = some p)
    (hq : (w.put name (change.apply p).1).program? n = some q) :
    Origin w (.edit name change) n q := by
  have hhanded := p.handed_apply change
  rcases eq_or_program?_put hq with ⟨rfl, rfl⟩ | ⟨-, hq⟩
  · refine .kept hp hhanded.tag hhanded.issued_le fun h hh => ?_
    rw [mem_given_edit hp]
    exact hhanded.mem_ids hh
  · exact origin_same hq

theorem origin_append {name source : String} {r : Program} (hp : w.program? name = some p)
    (hq : w.program? source = some q)
    (hr : ((w.put name (p.append q).1).putEmpty source).program? n = some r) :
    Origin w (.append name source) n r := by
  have hnext : w.nextTag < (w.run (.append name source)).1.nextTag := by
    simp only [run, hp, hq]
    exact Nat.lt_succ_self _
  -- the source is left empty; if it is the target as well, nothing of the move remains
  rcases eq_or_program?_putEmpty hr with ⟨rfl, rfl⟩ | ⟨-, hr⟩
  · exact .renewed rfl rfl hnext fun h hh => by cases hh
  rcases eq_or_program?_put hr with ⟨rfl, rfl⟩ | ⟨-, hr⟩
  · refine .kept hp rfl (Nat.le_add_right _ _) fun h hh => ?_
    rw [Program.ids_append, List.mem_append, List.mem_map] at hh
    rw [mem_given_append hp hq]
    simpa only [List.mem_range'_1, and_assoc, eq_comm] using hh
  · exact origin_same hr

theorem origin_copy {name source : String} {r : Program} (hq : w.program? source = some q)
    (hr : (({ w with nextTag := w.nextTag + 1 } : Workspace).put name
      (q.copy w.nextTag).1).program? n = some r) : Origin w (.copy name source) n r := by
  have hnext : w.nextTag < (w.run (.copy name source)).1.nextTag := by
    simp only [run, hq]
    exact Nat.lt_succ_self _
  rcases eq_or_program?_put hr with ⟨rfl, rfl⟩ | ⟨-, hr⟩
  · refine .renewed rfl Program.tag_copy hnext fun h hh => ?_
    simpa only [given, hq] using hh
  · exact origin_same (w := w) hr

theorem origin_run (c : Command) (hq : (w.run c).1.program? n = some q) : Origin w c n q := by
  cases c with
  | create name => exact origin_putEmpty rfl (Nat.lt_succ_self _) hq
  | clear name =>
    cases hp : w.program? name with
    | none =>
      simp only [run, hp] at hq
      exact origin_same hq
    | some p =>
      have hrun : (w.run (.clear name)).1 = w.putEmpty name := by simp only [run, hp]
      rw [hrun] at hq
      exact origin_putEmpty rfl (by rw [hrun]; exact Nat.lt_succ_self _) hq
  | edit name change =>
    simp only [run] at hq
    cases hp : w.program? name with
    | none => rw [hp] at hq; exact origin_same hq
    | some p => rw [hp] at hq; exact origin_edit hp hq
  | append name source =>
    simp only [run] at hq
    cases hp : w.program? name with
    | none => rw [hp] at hq; exact origin_same hq
    | some p =>
      cases hs : w.program? source with
      | none => rw [hp, hs] at hq; exact origin_same hq
      | some r => rw [hp, hs] at hq; exact origin_append hp hs hq
  | copy name source =>
    simp only [run] at hq
    cases hs : w.program? source with
    | none => rw [hs] at hq; exact origin_same hq
    | some r => rw [hs] at hq; exact origin_copy hs hq

end Origins

end Workspace
end GotoCheck
