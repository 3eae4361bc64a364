import GotoCheck.Program.Listing
import GotoCheck.Proofs.History
import GotoCheck.Proofs.Transfer
import GotoCheck.Samples

/-! Copies of programs. A copy is the source under handles of its own: what stands at a place, where
its jumps lead by their places, and what the listing shows are the same. -/
namespace GotoCheck

namespace Program
variable {p q : Program} {h t : Handle} {i : Instruction} {tag k slot : Nat}

section Places

/-- Where the copy under `tag` has what stands under `t` in the source. -/
def copyHandle (q : Program) (tag : Nat) (t : Handle) : Handle := leadOver (q.moved tag 0) t

theorem copyHandle_of_position? (hk : q.position? t = some k) : q.copyHandle tag t = ⟨tag, k⟩ := by
  rw [copyHandle, leadOver_moved hk, Nat.zero_add]

/-- The copy before its targets are numbered. -/
def unnumberedCopy (q : Program) (tag : Nat) : Program := ofList tag (q.movedCode tag 0)

theorem getElem?_unnumberedCopy : (q.unnumberedCopy tag).instructions[k]? =
    q.instructions[k]?.map fun i => { i with targets := i.targets.map (q.copyHandle tag) } := by
  rw [unnumberedCopy, instructions_ofList, movedCode, List.getElem?_map]
  rfl

theorem ids_unnumberedCopy (hq : q.WellFormed) :
    (q.unnumberedCopy tag).ids = q.ids.map (q.copyHandle tag) := by
  apply List.ext_getElem?
  intro k
  rw [unnumberedCopy, ids_ofList, List.getElem?_map, List.getElem?_map]
  have hlength : (q.movedCode tag 0).length = q.ids.length := by
    rw [movedCode, List.length_map, length_instructions, length_ids]
  rw [hlength]
  cases hk : q.ids[k]? with
  | none =>
    have hle : q.ids.length ≤ k := List.getElem?_eq_none_iff.mp hk
    rw [List.getElem?_eq_none (by rwa [List.length_range])]
    rfl
  | some h =>
    have hlt : k < q.ids.length := (List.getElem?_eq_some_iff.mp hk).1
    rw [List.getElem?_range hlt, Option.map_some, Option.map_some,
      copyHandle_of_position? (hq.position?_eq_some_iff.mpr hk)]

theorem targets_unnumberedCopy :
    (q.unnumberedCopy tag).targets = q.targets.map (q.copyHandle tag) := by
  have hcode : (q.unnumberedCopy tag).instructions = q.movedCode tag 0 := instructions_ofList tag _
  rw [targets, hcode, movedCode, List.flatMap_map, targets, List.map_flatMap]
  rfl

theorem closed_unnumberedCopy (hq : q.WellFormed) (hclosed : q.Closed) :
    (q.unnumberedCopy tag).Closed := by
  unfold Closed
  rw [targets_unnumberedCopy, ids_unnumberedCopy hq]
  exact List.map_subset _ hclosed

end Places

section Outcome

theorem copy_of_closed (hq : q.WellFormed) (hclosed : q.Closed) :
    q.copy tag = ((q.unnumberedCopy tag).numberTargets, .ok ()) := by
  have hrows : (⟨tag, q.size, ((q.movedCode tag 0).zipIdx).map fun r => (r.2, r.1)⟩ : Program) =
      q.unnumberedCopy tag := by
    rw [unnumberedCopy, ofList, movedCode, List.length_map, length_instructions]
  unfold copy
  rw [transferRows_of_closed hclosed]
  dsimp only
  rw [hrows]
  exact computeTargetNumbers_eq_ok_iff.mpr ⟨closed_unnumberedCopy hq hclosed, rfl⟩

theorem copy_of_stray (ht : q.stray? = some t) : (q.copy tag).2 = .error (.danglingTarget t) := by
  have hrows : (q.transferRows tag 0).2 = .error (.danglingTarget t) := transferRows_of_stray ht
  unfold copy
  split
  · rename_i rows heq
    rw [heq] at hrows
    cases hrows
  · rename_i rows e heq
    rw [heq] at hrows
    exact hrows

end Outcome

section Numbers

/-- Which places of the program are jumped to. -/
def marks (p : Program) : List Bool := p.ids.map p.targets.contains

theorem targetNumberAt_eq (hk : p.ids[k]? = some (p.handle slot)) : p.targetNumberAt k slot =
    if p.marks[k]? = some true then some (1 + (p.marks.take k).count true) else none := by
  have hmark : p.marks[k]? = some (p.targets.contains (p.handle slot)) := by
    rw [marks, List.getElem?_map, hk]
    rfl
  have hcount : (p.marks.take k).count true =
      (p.rows.take k).countP fun r => p.targets.contains (p.handle r.1) := by
    rw [marks, ids, List.map_map, ← List.map_take, List.count, List.countP_map]
    apply List.countP_congr
    intro r _
    simp
  rw [hmark, hcount]
  unfold targetNumberAt
  simp only [Option.some.injEq]

theorem getElem?_instructions_numberTargets (hi : p.instructions[k]? = some i) :
    ∃ slot, p.ids[k]? = some (p.handle slot) ∧ p.numberTargets.instructions[k]? =
      some { i with targetNumber := p.targetNumberAt k slot } := by
  rw [getElem?_instructions] at hi
  obtain ⟨r, hr, rfl⟩ := Option.map_eq_some_iff.mp hi
  refine ⟨r.1, ?_, ?_⟩
  · rw [getElem?_ids, hr]
    rfl
  · rw [getElem?_instructions, getElem?_rows_numberTargets, hr]
    rfl

/-- A copy is jumped to where the source is. -/
theorem marks_unnumberedCopy (hq : q.WellFormed) (hclosed : q.Closed) :
    (q.unnumberedCopy tag).marks = q.marks := by
  rw [marks, ids_unnumberedCopy hq, targets_unnumberedCopy, List.map_map, marks]
  apply List.map_congr_left
  intro h hh
  rw [Function.comp_apply, Bool.eq_iff_iff, List.contains_iff_mem, List.contains_iff_mem,
    List.mem_map]
  constructor
  · intro hx
    obtain ⟨t, ht, heq⟩ := hx
    -- handles of the source at different places have different copies
    obtain ⟨j, hj⟩ := List.mem_iff_getElem?.mp (hclosed ht)
    obtain ⟨k, hk⟩ := List.mem_iff_getElem?.mp hh
    rw [copyHandle_of_position? (hq.position?_eq_some_iff.mpr hj),
      copyHandle_of_position? (hq.position?_eq_some_iff.mpr hk)] at heq
    cases heq
    rw [hj] at hk
    cases hk
    exact ht
  · intro ht
    exact ⟨h, ht, rfl⟩

/-- The target numbers are those that numbering has given, with success, and nothing has changed
since. -/
def TargetsCurrent (p : Program) : Prop := ∃ p₀ : Program, p₀.computeTargetNumbers = (p, .ok ())

theorem getElem?_numberTargets_of_marks {p₀ : Program} (hmarks : p₀.marks = q.marks)
    (hi : p₀.instructions[k]? = some i) : ∃ n, p₀.numberTargets.instructions[k]? =
      some { i with targetNumber := n } ∧
        n = if q.marks[k]? = some true then some (1 + (q.marks.take k).count true) else none := by
  obtain ⟨slot, hid, hnumbered⟩ := getElem?_instructions_numberTargets hi
  refine ⟨_, hnumbered, ?_⟩
  rw [targetNumberAt_eq hid, hmarks]

theorem marks_numberTargets : p.numberTargets.marks = p.marks := by
  rw [marks, marks, ids_numberTargets, targets_numberTargets]

/-- Current target numbers are those that the places jumped to determine. -/
theorem TargetsCurrent.targetNumber (hcurrent : q.TargetsCurrent)
    (hi : q.instructions[k]? = some i) : i.targetNumber =
      if q.marks[k]? = some true then some (1 + (q.marks.take k).count true) else none := by
  obtain ⟨p₀, hp₀⟩ := hcurrent
  obtain ⟨-, rfl⟩ := computeTargetNumbers_eq_ok_iff.mp hp₀
  cases hj : p₀.instructions[k]? with
  | none =>
    rw [getElem?_instructions] at hj hi
    rw [getElem?_rows_numberTargets, Option.map_eq_none_iff.mp hj] at hi
    cases hi
  | some j =>
    obtain ⟨n, hn, hvalue⟩ := getElem?_numberTargets_of_marks marks_numberTargets.symm hj
    rw [hi] at hn
    cases hn
    exact hvalue

end Numbers

/-- The program `p` is a copy of `q`: the same instructions in the same order, up to target numbers,
with jumps between the same places, and nothing in common with `q`. -/
structure CopyOf (q p : Program) : Prop where
  size : p.size = q.size
  contents : ∀ (k : Nat) (i : Instruction), q.instructions[k]? = some i →
    ∃ j, p.instructions[k]? = some j ∧
      j = { i with targets := j.targets, targetNumber := j.targetNumber } ∧
      j.targets.map p.position? = i.targets.map q.position?
  inside : p.Closed
  apart : ∀ t ∈ p.targets, t ∉ q.ids
  successors : ∀ (k : Nat) (h g : Handle), q.ids[k]? = some h → p.ids[k]? = some g →
    (p.successors g).map p.position? = (q.successors h).map q.position?

/-- Nothing that a listing shows differs. -/
structure ShowsAlike (q p : Program) : Prop where
  targetNumbers : p.instructions.map Instruction.targetNumber =
    q.instructions.map Instruction.targetNumber
  text : ∀ (names : SymbolTable) (options : ListingOptions),
    p.text names options = q.text names options

section Isomorphism
variable {c : Program}

/-- What there is to know of a copy: its handles and instructions at each place. -/
structure Copied (q c : Program) (tag : Nat) : Prop where
  wellFormed : c.WellFormed
  ids : c.ids = q.ids.map (q.copyHandle tag)
  instructions : ∀ k : Nat, ∀ i, q.instructions[k]? = some i → ∃ n, c.instructions[k]? =
    some { i with targets := i.targets.map (q.copyHandle tag), targetNumber := n } ∧
      n = if q.marks[k]? = some true then some (1 + (q.marks.take k).count true) else none
  targets : c.targets = q.targets.map (q.copyHandle tag)

theorem copied (hq : q.WellFormed) (hclosed : q.Closed) : Copied q (q.copy tag).1 tag := by
  rw [copy_of_closed hq hclosed]
  exact {
    wellFormed := wellFormed_ofList.numberTargets
    ids := by rw [ids_numberTargets, ids_unnumberedCopy hq]
    instructions := by
      intro k i hi
      have hcopy : (q.unnumberedCopy tag).instructions[k]? =
          some { i with targets := i.targets.map (q.copyHandle tag) } := by
        rw [getElem?_unnumberedCopy, hi]
        rfl
      exact getElem?_numberTargets_of_marks (marks_unnumberedCopy hq hclosed) hcopy
    targets := by rw [targets_numberTargets, targets_unnumberedCopy] }

theorem Copied.getElem?_ids (hc : Copied q c tag) (hk : q.ids[k]? = some h) :
    c.ids[k]? = some (q.copyHandle tag h) := by
  rw [hc.ids, List.getElem?_map, hk]
  rfl

theorem Copied.size (hc : Copied q c tag) : c.size = q.size := by
  rw [← length_ids, hc.ids, List.length_map, length_ids]

theorem Copied.getElem?_eq_none (hc : Copied q c tag) (hk : q.instructions[k]? = none) :
    c.instructions[k]? = none := by
  rw [List.getElem?_eq_none_iff, length_instructions] at hk ⊢
  rwa [hc.size]

/-- What is copied keeps its place. -/
theorem Copied.position? (hc : Copied q c tag) (hq : q.WellFormed) (ht : t ∈ q.ids) :
    c.position? (q.copyHandle tag t) = q.position? t := by
  obtain ⟨k, hk⟩ := List.mem_iff_getElem?.mp ht
  rw [hq.position?_eq_some_iff.mpr hk]
  exact hc.wellFormed.position?_eq_some_iff.mpr (hc.getElem?_ids hk)

theorem Copied.map_position? (hc : Copied q c tag) (hq : q.WellFormed) {ts : List Handle}
    (hts : ts ⊆ q.ids) : (ts.map (q.copyHandle tag)).map c.position? = ts.map q.position? := by
  rw [List.map_map]
  apply List.map_congr_left
  intro t ht
  exact hc.position? hq (hts ht)

theorem leadsTo_copied {next last : List Handle} {image : Handle → Handle} {number : Option Nat} :
    leadsTo { i with targets := i.targets.map image, targetNumber := number } (next.map image)
      (last.map image) = (leadsTo i next last).map image := by
  unfold leadsTo
  split <;> simp_all [apply_ite (List.map image)]

theorem Copied.successors (hc : Copied q c tag) (hq : q.WellFormed) (hk : q.ids[k]? = some h) :
    c.successors (q.copyHandle tag h) = (q.successors h).map (q.copyHandle tag) := by
  obtain ⟨i, hi⟩ := exists_instruction hk
  obtain ⟨n, hcopy, -⟩ := hc.instructions k _ hi
  have hnext : c.ids[k + 1]?.toList = q.ids[k + 1]?.toList.map (q.copyHandle tag) := by
    rw [hc.ids, List.getElem?_map]
    cases q.ids[k + 1]? <;> rfl
  have hlast : c.last?.toList = q.last?.toList.map (q.copyHandle tag) := by
    rw [last?, last?, hc.ids, List.getLast?_map]
    cases q.ids.getLast? <;> rfl
  rw [hc.wellFormed.successors_eq (hc.getElem?_ids hk) hcopy, hq.successors_eq hk hi, hnext, hlast]
  exact leadsTo_copied

/-- Control stays in a closed program. -/
theorem Closed.successors_subset (hclosed : p.Closed) : p.successors h ⊆ p.ids := by
  cases hi : p.get? h with
  | none =>
    rw [Program.successors, hi]
    exact List.nil_subset _
  | some i =>
    have htargets : i.targets ⊆ p.ids := by
      intro t ht
      rw [get?_eq_bind, Option.bind_eq_some_iff] at hi
      obtain ⟨k, -, hk⟩ := hi
      exact hclosed (List.mem_flatMap.mpr ⟨i, List.mem_of_getElem? hk, ht⟩)
    have hnext : (p.next? h).toList ⊆ p.ids := by
      intro t ht
      obtain ⟨k, -, hk⟩ := Option.bind_eq_some_iff.mp (Option.mem_toList.mp ht)
      exact List.mem_of_getElem? hk
    have hlast : p.last?.toList ⊆ p.ids := by
      intro t ht
      exact List.mem_of_getLast? (Option.mem_toList.mp ht)
    rw [Program.successors_eq hi]
    unfold leadsTo
    split
    · split
      · exact htargets
      · exact List.append_subset.mpr ⟨htargets, hnext⟩
    · exact List.nil_subset _
    · exact hlast
    · split
      · exact List.nil_subset _
      · exact hnext
    · exact hnext

theorem Copied.copyOf (hc : Copied q c tag) (hq : q.WellFormed) (hclosed : q.Closed)
    (htag : tag ≠ q.tag) : CopyOf q c where
  size := hc.size
  contents := by
    intro k i hi
    obtain ⟨n, hcopy, -⟩ := hc.instructions k i hi
    refine ⟨_, hcopy, rfl, hc.map_position? hq ?_⟩
    intro t ht
    exact hclosed (List.mem_flatMap.mpr ⟨i, List.mem_of_getElem? hi, ht⟩)
  inside := by
    unfold Closed
    rw [hc.targets, hc.ids]
    exact List.map_subset _ hclosed
  apart := by
    intro t ht hmem
    rw [hc.targets] at ht
    obtain ⟨u, hu, rfl⟩ := List.mem_map.mp ht
    obtain ⟨k, hk⟩ := List.mem_iff_getElem?.mp (hclosed hu)
    rw [copyHandle_of_position? (hq.position?_eq_some_iff.mpr hk)] at hmem
    -- a handle of the source carries the tag of the source
    obtain ⟨r, -, hr⟩ := List.mem_map.mp hmem
    exact htag (congrArg Handle.program hr).symm
  successors := by
    intro k h g hk hg
    rw [hc.getElem?_ids hk] at hg
    cases hg
    rw [hc.successors hq hk]
    exact hc.map_position? hq hclosed.successors_subset

theorem Copied.targetNumbers (hc : Copied q c tag) (hcurrent : q.TargetsCurrent) :
    c.instructions.map Instruction.targetNumber = q.instructions.map Instruction.targetNumber := by
  apply List.ext_getElem?
  intro k
  rw [List.getElem?_map, List.getElem?_map]
  cases hi : q.instructions[k]? with
  | none =>
    rw [hc.getElem?_eq_none hi]
  | some i =>
    obtain ⟨n, hcopy, hn⟩ := hc.instructions k i hi
    rw [hcopy]
    exact congrArg some (hn.trans (hcurrent.targetNumber hi).symm)

theorem Copied.targetText (hc : Copied q c tag) (hq : q.WellFormed) (hcurrent : q.TargetsCurrent)
    (ht : t ∈ q.ids) : c.targetText (q.copyHandle tag t) = q.targetText t := by
  obtain ⟨k, hk⟩ := List.mem_iff_getElem?.mp ht
  have hnumber : (c.instructions[k]?).map Instruction.targetNumber =
      (q.instructions[k]?).map Instruction.targetNumber := by
    rw [← List.getElem?_map, ← List.getElem?_map, hc.targetNumbers hcurrent]
  have hjoin : ∀ o : Option Instruction, o.bind Instruction.targetNumber =
      (o.map Instruction.targetNumber).join := by
    intro o
    cases o <;> rfl
  rw [Program.targetText, Program.targetText, hc.wellFormed.get?_eq (hc.getElem?_ids hk),
    hq.get?_eq hk, hjoin, hjoin, hnumber]

/-- The handlers of a catch show by the numbers of their targets alone. -/
theorem handlersText_eq (p : Program) (exceptions : List String) (targets : List Handle) :
    p.handlersText exceptions targets = commaList
      (List.zipWith (fun e t => e ++ "->" ++ t) exceptions (targets.map p.targetText)) := by
  rw [handlersText, List.zipWith_map_right, List.zip, List.map_zipWith]

theorem instructionText_congr {names : SymbolTable} {options : ListingOptions} {ts : List Handle}
    (hts : ts.map p.targetText = i.targets.map q.targetText) :
    p.instructionText names options { i with targets := ts } =
      q.instructionText names options i := by
  have hjumps : p.targetsText ts = q.targetsText i.targets := by
    rw [targetsText, targetsText, hts]
  have hhandlers : ∀ es, p.handlersText es ts = q.handlersText es i.targets := by
    intro es
    rw [handlersText_eq, handlersText_eq, hts]
  have hstatement : p.statementText names { i with targets := ts } = q.statementText names i := by
    unfold statementText
    cases i.statement <;> simp only [hjumps, hhandlers, conditionText]
  unfold instructionText
  rw [hstatement]
  rfl

theorem Copied.text (hc : Copied q c tag) (hq : q.WellFormed) (hclosed : q.Closed)
    (hcurrent : q.TargetsCurrent) (names : SymbolTable) (options : ListingOptions) :
    c.text names options = q.text names options := by
  apply congrArg String.join
  apply List.ext_getElem?
  intro k
  rw [List.getElem?_map, List.getElem?_map]
  cases hi : q.instructions[k]? with
  | none =>
    rw [hc.getElem?_eq_none hi, Option.map_none, Option.map_none]
  | some i =>
    obtain ⟨n, hcopy, hn⟩ := hc.instructions k i hi
    have hnumber : n = i.targetNumber := hn.trans (hcurrent.targetNumber hi).symm
    have htargets : (i.targets.map (q.copyHandle tag)).map c.targetText =
        i.targets.map q.targetText := by
      rw [List.map_map]
      apply List.map_congr_left
      intro t ht
      have hmem : t ∈ q.ids := hclosed (List.mem_flatMap.mpr ⟨i, List.mem_of_getElem? hi, ht⟩)
      exact hc.targetText hq hcurrent hmem
    have htext : c.instructionText names options
        { i with targets := i.targets.map (q.copyHandle tag), targetNumber := i.targetNumber } =
        q.instructionText names options i := instructionText_congr htargets
    rw [hcopy, hnumber, Option.map_some, Option.map_some, htext]

theorem Copied.showsAlike (hc : Copied q c tag) (hq : q.WellFormed) (hclosed : q.Closed)
    (hcurrent : q.TargetsCurrent) : ShowsAlike q c where
  targetNumbers := hc.targetNumbers hcurrent
  text := hc.text hq hclosed hcurrent

end Isomorphism

end Program

namespace Workspace
variable {name source : String} {p q : Program} {t : Handle}

theorem run_copy_eq {w : Workspace} (hq : w.program? source = some q) :
    w.run (.copy name source) =
      (({ w with nextTag := w.nextTag + 1 }).put name (q.copy w.nextTag).1,
        .ofOutcome (q.copy w.nextTag).2) := by
  simp only [run, hq]

/-- Replacing a program by a copy of another fails exactly if a jump leads out of the source, and
names the first such jump. Otherwise the result is a copy, which shows alike if the target numbers
of the source are current. No handle that was ever in use stands for anything in the result, and no
other program changes. -/
theorem run_copy (name : String) (commands : List Command)
    (hq : (after commands).program? source = some q) :
    ∃ p, ((after commands).run (.copy name source)).1.program? name = some p ∧
      (∀ n, n ≠ name →
        ((after commands).run (.copy name source)).1.program? n = (after commands).program? n) ∧
      (∀ earlier, earlier <+: commands → ∀ n p₀ h, (after earlier).program? n = some p₀ →
        p₀.contains h → ¬p.contains h) ∧
      (∀ t, ((after commands).run (.copy name source)).2 = .failed (.danglingTarget t) ↔
        q.stray? = some t) ∧
      (q.stray? = none → ((after commands).run (.copy name source)).2 = .done ∧
        Program.CopyOf q p ∧ (q.TargetsCurrent → Program.ShowsAlike q p)) := by
  have hwf : q.WellFormed := (wellFormed_after commands).program? hq
  have htag : q.tag < (after commands).nextTag := tag_lt_nextTag (List.prefix_refl _) hq
  have hp : (q.copy (after commands).nextTag).1.tag = (after commands).nextTag := Program.tag_copy
  rw [run_copy_eq hq]
  refine ⟨(q.copy (after commands).nextTag).1, ?_, ?_, ?_, ?_, ?_⟩
  · rw [program?_put, if_pos rfl]
  · intro n hn
    rw [program?_put, if_neg hn]
    rfl
  · intro earlier hearlier n p₀ h hp₀ hold hnew
    -- the handle has the tag of an earlier program, and the copy has a fresh one
    have hlt := tag_lt_nextTag hearlier hp₀
    rw [← Program.program_of_contains hold, Program.program_of_contains hnew, hp] at hlt
    exact Nat.lt_irrefl _ hlt
  · intro t
    constructor
    · intro hfailed
      cases hstray : q.stray? with
      | none =>
        have hclosed := Program.stray?_eq_none_iff.mp hstray
        rw [Program.copy_of_closed hwf hclosed] at hfailed
        cases hfailed
      | some u =>
        rw [Program.copy_of_stray hstray] at hfailed
        cases hfailed
        rfl
    · intro hstray
      rw [Program.copy_of_stray hstray]
      rfl
  · intro hstray
    have hclosed := Program.stray?_eq_none_iff.mp hstray
    have hcopied : Program.Copied q _ (after commands).nextTag := Program.copied hwf hclosed
    refine ⟨?_, hcopied.copyOf hwf hclosed (Nat.ne_of_gt htag), hcopied.showsAlike hwf hclosed⟩
    rw [Program.copy_of_closed hwf hclosed]
    rfl

/-- A program whose slots are out of order and which jumps back and forth, beside another. -/
def twoPrograms : List Command := [
  .create "a",
  .create "b",
  .edit "b" (.add (.ofStatement .skip)),
  .edit "a" (.add (.ofStatement .skip)),
  .edit "a" (.add (.goto (Samples.intVariable "c::y") ⟨0, 4⟩)),
  .edit "a" (.add .endFunction),
  .edit "a" (.insertBefore ⟨0, 1⟩ (.assign (Samples.intVariable "c::z") (Samples.intConstant 1))),
  .edit "a" (.insertAfter ⟨0, 2⟩ { statement := .catches ["e", "f"], targets := [⟨0, 3⟩, ⟨0, 3⟩] }),
  .edit "a" (.remove ⟨0, 0⟩)]

theorem copy_of_numberedProgram :
    let commands := twoPrograms ++ [.edit "a" .computeTargetNumbers]
    ∃ q p, (after commands).program? "a" = some q ∧
      ((after commands).run (.copy "b" "a")).1.program? "b" = some p ∧
      ((after commands).run (.copy "b" "a")).2 = .done ∧ Program.CopyOf q p ∧
      Program.ShowsAlike q p ∧ p.ids = [⟨2, 0⟩, ⟨2, 1⟩, ⟨2, 2⟩, ⟨2, 3⟩] := by
  intro commands
  obtain ⟨p₀, hp₀⟩ : ∃ p₀, (after twoPrograms).program? "a" = some p₀ :=
    Option.isSome_iff_exists.mp (by decide +kernel)
  have hnumbered : ((after twoPrograms).program? "a").map (fun p => p.computeTargetNumbers.2) =
      some (.ok ()) := by
    decide +kernel
  rw [hp₀, Option.map_some, Option.some.injEq] at hnumbered
  have hq : (after commands).program? "a" = some p₀.computeTargetNumbers.1 := by
    rw [after_append_singleton]
    simp only [run, hp₀, Edit.apply]
    exact program?_put.trans (if_pos rfl)
  have hcurrent : p₀.computeTargetNumbers.1.TargetsCurrent := ⟨p₀, by rw [← hnumbered]⟩
  have hstray : ((after commands).program? "a").bind Program.stray? = none := by
    decide +kernel
  rw [hq, Option.bind_some] at hstray
  obtain ⟨p, hp, -, -, -, hcopy⟩ := run_copy "b" commands hq
  obtain ⟨hdone, hcopyOf, halike⟩ := hcopy hstray
  have hids : (((after commands).run (.copy "b" "a")).1.program? "b").map Program.ids =
      some [⟨2, 0⟩, ⟨2, 1⟩, ⟨2, 2⟩, ⟨2, 3⟩] := by
    decide +kernel
  rw [hp, Option.map_some, Option.some.injEq] at hids
  exact ⟨_, p, hq, hp, hdone, hcopyOf, halike hcurrent, hids⟩

end Workspace
end GotoCheck
