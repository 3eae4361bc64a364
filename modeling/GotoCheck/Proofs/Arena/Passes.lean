import GotoCheck.Proofs.Arena.Layout

/-! Numbering in tables. The passes over the order, with their counters, leave the tables of the
numbered program. -/
namespace GotoCheck.Arena
variable {σ : Type} {p q : Program} {h : Handle} {i : Instruction}
variable {passed rest rows : List (Nat × Instruction)} {s : σ} {start slot : Nat} {ts : List Handle}

section Visit
variable {f : σ → Instruction → Instruction × σ}

/-- What a visit makes of the rows, and what it has counted at the end. -/
def visitRows (f : σ → Instruction → Instruction × σ) :
    σ → List (Nat × Instruction) → List (Nat × Instruction) × σ
  | s, [] => ([], s)
  | s, (slot, i) :: rest =>
    ((slot, (f s i).1) :: (visitRows f (f s i).2 rest).1, (visitRows f (f s i).2 rest).2)

theorem foldl_visitAt (hp : p.WellFormed) (hrows : p.rows = passed ++ rest) :
    (rest.map fun r => p.handle r.1).foldl (visitAt f) (ofProgram p, s) =
      (ofProgram { p with rows := passed ++ (visitRows f s rest).1 }, (visitRows f s rest).2) := by
  induction rest generalizing p passed s with
  | nil => rw [visitRows, ← hrows, List.map_nil, List.foldl_nil]
  | cons r rest ih =>
    obtain ⟨slot, i⟩ := r
    have hget : (ofProgram p).get? (p.handle slot) = some i :=
      (get?_ofProgram hp).trans (hp.get?_of_split hrows)
    -- the rows that were visited are part of the program that is visited next
    let q : Program := { p with rows := passed ++ (slot, (f s i).1) :: rest }
    have hq : q.WellFormed := hp.replace hrows
    have hstep : visitAt f (ofProgram p, s) (p.handle slot) = (ofProgram q, (f s i).2) := by
      simp only [visitAt, hget]
      rw [modify_ofProgram, hp.modify_middle hrows]
    have hsplit : q.rows = (passed ++ [(slot, (f s i).1)]) ++ rest := by
      rw [List.append_assoc]
      rfl
    rw [List.map_cons, List.foldl_cons, hstep, visitRows]
    refine (ih hq hsplit).trans ?_
    rw [List.append_assoc]
    rfl

theorem visit_ofProgram (hp : p.WellFormed) : (ofProgram p).visit f s =
    (ofProgram { p with rows := (visitRows f s p.rows).1 }, (visitRows f s p.rows).2) :=
  foldl_visitAt hp (List.nil_append p.rows).symm

end Visit

section Locations

theorem visitRows_countLocation : visitRows countLocation start rows =
    (rows.mapIdx fun k r => (r.1, { r.2 with locationNumber := start + k }),
      start + rows.length) := by
  induction rows generalizing start with
  | nil => rfl
  | cons r rest ih =>
    rw [visitRows, countLocation, ih, List.mapIdx_cons, List.length_cons]
    simp only [Nat.add_assoc, Nat.add_comm 1, Nat.add_zero]

theorem numberLocations_ofProgram (hp : p.WellFormed) : (ofProgram p).numberLocations start =
    (ofProgram (p.numberLocations start), start + p.size) := by
  rw [numberLocations, visit_ofProgram hp, visitRows_countLocation]
  rfl

end Locations

section Targets

theorem targets_ofProgram (hp : p.WellFormed) : (ofProgram p).targets = p.targets := by
  rw [targets, listing_ofProgram hp, Program.listing, Program.targets, Program.instructions,
    List.flatMap_map, List.flatMap_map]

theorem foldl_modify {f : Instruction → Instruction} (hf : ∀ i, f (f i) = f i) :
    ts.foldl (fun c t => c.modify t f) (ofProgram p) = ofProgram { p with
      rows := p.rows.map fun r => if p.handle r.1 ∈ ts then (r.1, f r.2) else r } := by
  induction ts generalizing p with
  | nil => simp
  | cons t ts ih =>
    rw [List.foldl_cons, modify_ofProgram, ih]
    congr 1
    rw [Program.modify]
    dsimp only
    rw [List.map_map]
    congr 1
    apply List.map_congr_left
    intro r _
    have hhandle : ∀ rows s, Program.handle ⟨p.tag, p.issued, rows⟩ s = p.handle s := fun _ _ => rfl
    by_cases ht : p.handle r.1 = t
    · by_cases hts : t ∈ ts
      · simp [ht, hts, hf, hhandle]
      · simp [ht, hts, hhandle]
    · simp [ht, hhandle]

theorem visitRows_countTarget (marked : Nat → Bool) (n : Nat) :
    (visitRows countTarget n (rows.map fun r =>
      (r.1, { r.2 with targetNumber := if marked r.1 then some 0 else none }))).1 =
      Program.numberRows marked (n + 1) rows := by
  induction rows generalizing n with
  | nil => rfl
  | cons r rest ih =>
    obtain ⟨slot, i⟩ := r
    rw [List.map_cons, visitRows, Program.numberRows]
    split
    · simp [countTarget, Instruction.isTarget, ih]
    · simp [countTarget, Instruction.isTarget, ih]

theorem visitRows_clearTargetNumber : (visitRows clearTargetNumber () rows).1 =
    rows.map fun r => (r.1, { r.2 with targetNumber := none }) := by
  induction rows with
  | nil => rfl
  | cons r rest ih =>
    rw [visitRows, clearTargetNumber, ih, List.map_cons]

theorem numberTargets_ofProgram (hp : p.WellFormed) :
    (ofProgram p).numberTargets = ofProgram p.numberTargets := by
  let q : Program := { p with rows := p.rows.map fun r => (r.1, { r.2 with targetNumber := none }) }
  have hq : q.WellFormed := by
    refine hp.of_slots ?_ rfl
    rw [Program.slots, List.map_map]
    rfl
  have hcleared : ((ofProgram p).visit clearTargetNumber ()).1 = ofProgram q := by
    rw [visit_ofProgram hp, visitRows_clearTargetNumber]
  have htargets : q.targets = p.targets := by
    rw [Program.targets, Program.instructions, Program.targets, Program.instructions,
      List.flatMap_map, List.flatMap_map, List.flatMap_map]
  let m : Program := { p with rows := p.rows.map fun r => (r.1, { r.2 with
    targetNumber := if p.targets.contains (p.handle r.1) then some 0 else none }) }
  have hm : m.WellFormed := by
    refine hp.of_slots ?_ rfl
    rw [Program.slots, List.map_map]
    rfl
  have hmarked : q.targets.foldl (fun c t => c.modify t markTarget) (ofProgram q) =
      ofProgram m := by
    rw [foldl_modify (f := markTarget) fun _ => rfl, htargets]
    have hrows : q.rows.map (fun r =>
        if q.handle r.1 ∈ p.targets then (r.1, markTarget r.2) else r) = m.rows := by
      rw [List.map_map]
      apply List.map_congr_left
      intro r _
      have hhandle : q.handle r.1 = p.handle r.1 := rfl
      simp only [Function.comp_apply, hhandle, List.contains_iff_mem, markTarget]
      split <;> rfl
    rw [hrows]
  have hcounted : (visitRows countTarget 0 m.rows).1 = p.numberTargets.rows :=
    visitRows_countTarget (fun slot => p.targets.contains (p.handle slot)) 0
  rw [numberTargets, hcleared, targets_ofProgram hq, hmarked, visit_ofProgram hm, hcounted]
  rfl

theorem targetNumber_ne_zero {marked : Nat → Bool} {n : Nat} {r : Nat × Instruction}
    (hr : r ∈ Program.numberRows marked (n + 1) rows) : r.2.targetNumber ≠ some 0 := by
  obtain ⟨k, hk⟩ := List.mem_iff_getElem?.mp hr
  rw [Program.getElem?_numberRows] at hk
  obtain ⟨r', -, rfl⟩ := Option.map_eq_some_iff.mp hk
  dsimp only
  split
  · rw [Ne, Option.some.injEq]
    omega
  · exact nofun

theorem computeTargetNumbers_ofProgram (hp : p.WellFormed) : (ofProgram p).computeTargetNumbers =
    (ofProgram p.computeTargetNumbers.1, p.computeTargetNumbers.2) := by
  have hq := hp.numberTargets
  have hnumbered : ∀ t, (ofProgram p.numberTargets).isNumbered t =
      p.numberTargets.hasTargetNumber t := by
    intro t
    rw [isNumbered, Program.hasTargetNumber, get?_ofProgram hq]
    cases hi : p.numberTargets.get? t with
    | none => rfl
    | some i =>
      obtain ⟨r, hr, rfl⟩ := Option.map_eq_some_iff.mp hi
      have hne := targetNumber_ne_zero (List.mem_of_find?_eq_some hr)
      simp [hne]
  have hunnumbered : (ofProgram p.numberTargets).unnumbered = p.numberTargets.unnumbered := by
    rw [unnumbered, Program.unnumbered, listing_ofProgram hq, Program.listing,
      List.flatMap_map]
    simp only [hnumbered]
  rw [computeTargetNumbers, numberTargets_ofProgram hp, Program.computeTargetNumbers, hunnumbered]
  cases p.numberTargets.unnumbered <;> rfl

theorem update_ofProgram (hp : p.WellFormed) :
    (ofProgram p).update = (ofProgram p.update.1, p.update.2) := by
  have hq := hp.computeTargetNumbers
  rw [update, Program.update, computeTargetNumbers_ofProgram hp]
  cases hr : p.computeTargetNumbers with
  | mk q outcome =>
    rw [hr] at hq
    cases outcome with
    | ok u =>
      dsimp only
      rw [numberLocations_ofProgram hq]
    | error e => rfl

end Targets

section Loops

theorem isBackwardsGoto_ofProgram (hp : p.WellFormed) :
    (ofProgram p).isBackwardsGoto h = p.isBackwardsGoto h := by
  rw [isBackwardsGoto, Program.isBackwardsGoto, get?_ofProgram hp]
  cases p.get? h with
  | none => rfl
  | some i => simp only [get?_ofProgram hp]

theorem isBackwardsGoto_modify {n : Nat} {t : Handle} :
    (p.modify t fun i => { i with loopNumber := n }).isBackwardsGoto h = p.isBackwardsGoto h := by
  have hany : ∀ u l, ((p.modify t fun i => { i with loopNumber := n }).get? u).any
      (fun j => decide (j.locationNumber ≤ l)) =
        (p.get? u).any fun j => decide (j.locationNumber ≤ l) := by
    intro u l
    rw [Program.get?_modify]
    split
    · exact Option.any_map
    · rfl
  have hget := Program.get?_modify (p := p) (h := t) (g := h)
    (f := fun i => { i with loopNumber := n })
  unfold Program.isBackwardsGoto
  simp only [hany]
  rw [hget]
  by_cases ht : h = t
  · rw [if_pos ht]
    cases p.get? h <;> rfl
  · rw [if_neg ht]

theorem isBackwardsGoto_shareLoopNumber {n : Nat} {t : Handle} :
    (p.shareLoopNumber t n).isBackwardsGoto h = p.isBackwardsGoto h := by
  unfold Program.shareLoopNumber
  dsimp only
  split
  · rw [isBackwardsGoto_modify, isBackwardsGoto_modify]
  · rw [isBackwardsGoto_modify]

theorem numberLoop_ofProgram (hp : p.WellFormed) {n : Nat} : numberLoop (ofProgram p, n) h =
    if p.isBackwardsGoto h then (ofProgram (p.shareLoopNumber h n), n + 1)
    else (ofProgram p, n) := by
  unfold numberLoop Program.shareLoopNumber
  dsimp only
  rw [isBackwardsGoto_ofProgram hp, get?_ofProgram hp]
  split
  · cases (p.get? h).bind fun i => i.targets.head? with
    | some t =>
      dsimp only
      rw [modify_ofProgram, modify_ofProgram]
    | none =>
      dsimp only
      rw [modify_ofProgram]
  · rfl

/-- Loop numbers do not change which jumps lead backwards. -/
theorem foldl_numberLoop {hs : List Handle} {n : Nat} (hp : p.WellFormed) :
    hs.foldl numberLoop (ofProgram p, n) =
      (ofProgram (((hs.filter p.isBackwardsGoto).zipIdx n).foldl
        (fun q b => q.shareLoopNumber b.1 b.2) p), n + (hs.filter p.isBackwardsGoto).length) := by
  induction hs generalizing p n with
  | nil => rfl
  | cons h rest ih =>
    rw [List.foldl_cons, numberLoop_ofProgram hp]
    split
    · rename_i hback
      have hsame : (p.shareLoopNumber h n).isBackwardsGoto = p.isBackwardsGoto :=
        funext fun _ => isBackwardsGoto_shareLoopNumber
      rw [ih hp.shareLoopNumber, hsame, List.filter_cons_of_pos hback, List.zipIdx_cons,
        List.foldl_cons, List.length_cons, Nat.add_assoc, Nat.add_comm 1]
    · rename_i hback
      rw [ih hp, List.filter_cons_of_neg hback]

theorem numberLoops_ofProgram (hp : p.WellFormed) : (ofProgram p).numberLoops start =
    (ofProgram (p.numberLoops start), start + p.backwardsGotos.length) :=
  foldl_numberLoop hp

end Loops

end GotoCheck.Arena
