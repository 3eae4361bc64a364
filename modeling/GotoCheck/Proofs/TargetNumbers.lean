import GotoCheck.Proofs.Arena.Effects
import GotoCheck.Proofs.Numbering

/-! Target numbers. Whatever numbers there were before, numbering gives the numbers 1, 2, … to the
instructions that are jumped to and takes them from all others. It fails at the first jump that
leads out of the program, and then it has numbered the program all the same. -/
namespace GotoCheck.Program
variable {p q : Program} {h t : Handle} {i j : Instruction} {k next : Nat}
variable {marked : Nat → Bool} {rows : List (Nat × Instruction)}

/-- The instructions with a target number are those that are jumped to, and their numbers are 1, 2,
… in program order. -/
structure TargetsNumbered (p : Program) : Prop where
  isTarget_iff : ∀ (k : Nat) (h : Handle) (i : Instruction), p.ids[k]? = some h →
    p.instructions[k]? = some i → (i.isTarget ↔ ∃ j ∈ p.instructions, h ∈ j.targets)
  dense : ∃ n, p.instructions.filterMap Instruction.targetNumber = List.range' 1 n

/-- A marked row takes the next number, and no row but a marked one takes any. -/
theorem filterMap_numberRows : (numberRows marked next rows).filterMap (fun r => r.2.targetNumber) =
    List.range' next (rows.countP fun r => marked r.1) := by
  induction rows generalizing next with
  | nil => rfl
  | cons r rest ih =>
    rw [numberRows]
    by_cases hmarked : marked r.1
    · rw [if_pos hmarked, List.countP_cons, if_pos hmarked, List.range'_succ, ← ih]
      rfl
    · rw [if_neg hmarked, List.countP_cons, if_neg hmarked, Nat.add_zero, ← ih]
      rfl

theorem mem_targets : t ∈ p.targets ↔ ∃ j ∈ p.instructions, t ∈ j.targets := List.mem_flatMap

theorem targetsNumbered_numberTargets (p : Program) : p.numberTargets.TargetsNumbered where
  isTarget_iff := by
    intro k h i hh hi
    rw [ids_numberTargets] at hh
    rw [← mem_targets, targets_numberTargets]
    exact isTarget_numberTargets_iff hh hi
  dense := ⟨_, by
    rw [instructions, List.filterMap_map]
    exact filterMap_numberRows⟩

/-- Each handle with the targets of its instruction, in program order. -/
def jumps (p : Program) : List (Handle × List Handle) :=
  p.rows.map fun r => (p.handle r.1, r.2.targets)

theorem targets_subset_of_mem_jumps {e : Handle × List Handle} (he : e ∈ p.jumps) :
    e.2 ⊆ p.targets := by
  obtain ⟨r, hr, rfl⟩ := List.mem_map.mp he
  exact fun t ht => mem_targets.mpr ⟨r.2, List.mem_map_of_mem hr, ht⟩

@[simp] theorem jumps_numberTargets : p.numberTargets.jumps = p.jumps :=
  map_rows_numberTargets fun _ _ _ => rfl

@[simp] theorem jumps_numberLocations {start : Nat} :
    (p.numberLocations start).jumps = p.jumps :=
  map_rows_numberLocations fun _ _ _ => rfl

/-- The instruction `h` is the first with a target that is not in the program, and `t` is its first
such target. -/
def FirstStray (p : Program) (h t : Handle) : Prop :=
  ∃ earlier before after later, p.jumps = earlier ++ (h, before ++ t :: after) :: later ∧
    (∀ e ∈ earlier, e.2 ⊆ p.ids) ∧ before ⊆ p.ids ∧ t ∉ p.ids

/-- The first target that is not in the program, with the handle of the jump to it. -/
def strayIn? (p : Program) (e : Handle × List Handle) : Option (Handle × Handle) :=
  (e.2.find? fun t => !p.ids.contains t).map fun t => (e.1, t)

theorem strayIn?_eq_none_iff {e : Handle × List Handle} :
    p.strayIn? e = none ↔ e.2 ⊆ p.ids := by
  simp [strayIn?, List.subset_def]

/-- The first jump that leads out of the program. -/
def firstStray? (p : Program) : Option (Handle × Handle) := p.jumps.findSome? p.strayIn?

@[simp] theorem firstStray?_numberLocations {start : Nat} :
    (p.numberLocations start).firstStray? = p.firstStray? := by
  unfold firstStray? strayIn?
  rw [jumps_numberLocations, ids_numberLocations]

theorem firstStray?_eq_some_iff : p.firstStray? = some (h, t) ↔ p.FirstStray h t := by
  constructor
  · intro hfirst
    obtain ⟨earlier, e, later, hjumps, he, hearlier⟩ := List.findSome?_eq_some_iff.mp hfirst
    obtain ⟨u, hu, heq⟩ := Option.map_eq_some_iff.mp he
    obtain ⟨rfl, rfl⟩ := Prod.mk.inj heq
    obtain ⟨hout, before, after, htargets, hbefore⟩ := List.find?_eq_some_iff_append.mp hu
    refine ⟨earlier, before, after, later, ?_, ?_, ?_, by simpa using hout⟩
    · rw [hjumps, ← htargets]
    · exact fun d hd => strayIn?_eq_none_iff.mp (hearlier d hd)
    · intro v hv
      simpa using hbefore v hv
  · rintro ⟨earlier, before, after, later, hjumps, hearlier, hbefore, hout⟩
    refine List.findSome?_eq_some_iff.mpr ⟨earlier, _, later, hjumps, ?_, ?_⟩
    · refine Option.map_eq_some_iff.mpr ⟨t, ?_, rfl⟩
      refine List.find?_eq_some_iff_append.mpr ⟨by simpa using hout, before, after, rfl, ?_⟩
      intro v hv
      simpa using hbefore hv
    · exact fun d hd => strayIn?_eq_none_iff.mpr (hearlier d hd)

theorem firstStray?_eq_none_iff : p.firstStray? = none ↔ p.Closed := by
  have htargets : p.targets = p.jumps.flatMap Prod.snd := by
    rw [targets, instructions, jumps, List.flatMap_map, List.flatMap_map]
  unfold firstStray? Closed
  simp only [List.findSome?_eq_none_iff, strayIn?_eq_none_iff]
  constructor
  · intro h t ht
    obtain ⟨e, he, ht⟩ := List.mem_flatMap.mp (htargets ▸ ht)
    exact h e he ht
  · exact fun h e he => List.Subset.trans (targets_subset_of_mem_jumps he) h

theorem unnumbered_eq_flatMap_jumps : p.unnumbered =
    p.jumps.flatMap fun e => (e.2.filter fun t => !p.hasTargetNumber t).map fun t => (e.1, t) := by
  rw [jumps, List.flatMap_map]
  rfl

/-- The first jump without a number is the first that leads out of the program. -/
theorem head?_unnumbered_numberTargets : p.numberTargets.unnumbered.head? = p.firstStray? := by
  have hstray : ∀ e ∈ p.jumps,
      (e.2.filter fun t => !p.numberTargets.hasTargetNumber t).map (fun t => (e.1, t)) =
        (e.2.filter fun t => !p.ids.contains t).map fun t => (e.1, t) := by
    intro e he
    refine congrArg (List.map _) (List.filter_congr fun t ht => ?_)
    have hiff : p.numberTargets.hasTargetNumber t ↔ p.ids.contains t := by
      rw [hasTargetNumber_numberTargets, List.contains_iff_mem]
      exact ⟨And.left, fun h => ⟨h, targets_subset_of_mem_jumps he ht⟩⟩
    rw [Bool.eq_iff_iff.mpr hiff]
  rw [unnumbered_eq_flatMap_jumps, jumps_numberTargets, List.flatMap_congr hstray,
    List.head?_flatMap]
  simp only [List.head?_map, List.head?_filter]
  rfl

/-- The outcome of numbering, where the first jump that leads out is given. -/
def outcomeOf : Option (Handle × Handle) → Except ProgramError Unit
  | none => .ok ()
  | some (h, t) => .error (.unnumberedTarget h t)

theorem outcomeOf_eq_ok_iff {jump : Option (Handle × Handle)} :
    outcomeOf jump = .ok () ↔ jump = none := by
  cases jump <;> simp [outcomeOf]

theorem outcomeOf_eq_error_iff {jump : Option (Handle × Handle)} {e : ProgramError} :
    outcomeOf jump = .error e ↔ ∃ h t, jump = some (h, t) ∧ e = .unnumberedTarget h t := by
  cases jump with
  | none => simp [outcomeOf]
  | some jump =>
    obtain ⟨h, t⟩ := jump
    simp [outcomeOf, eq_comm]

theorem computeTargetNumbers_snd : p.computeTargetNumbers.2 = outcomeOf p.firstStray? := by
  rw [← head?_unnumbered_numberTargets]
  unfold computeTargetNumbers
  dsimp only
  cases p.numberTargets.unnumbered <;> rfl

theorem computeTargetNumbers_snd_eq_ok_iff : p.computeTargetNumbers.2 = .ok () ↔ p.Closed := by
  rw [computeTargetNumbers_snd, outcomeOf_eq_ok_iff, firstStray?_eq_none_iff]

end GotoCheck.Program
