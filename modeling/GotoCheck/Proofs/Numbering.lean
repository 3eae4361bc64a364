import GotoCheck.FunctionTable
import GotoCheck.Proofs.Program

/-! What numbering does. It changes numbers only, and it succeeds exactly on the programs that no
jump leaves. -/
namespace GotoCheck

namespace Program
variable {p q : Program} {h t : Handle} {k start : Nat}

/-- No jump leads out of the program. -/
def Closed (p : Program) : Prop := p.targets ⊆ p.ids

/-- The number of the target in the given slot at the given place: targets count from 1. -/
def targetNumberAt (p : Program) (k slot : Nat) : Option Nat :=
  let marked (r : Nat × Instruction) := p.targets.contains (p.handle r.1)
  if p.targets.contains (p.handle slot) then some (1 + (p.rows.take k).countP marked) else none

theorem getElem?_numberRows {marked : Nat → Bool} {rows : List (Nat × Instruction)} {next : Nat} :
    (numberRows marked next rows)[k]? = rows[k]?.map fun r =>
      (r.1, { r.2 with
        targetNumber := if marked r.1 then
          some (next + (rows.take k).countP fun r => marked r.1) else none }) := by
  induction rows generalizing next k with
  | nil => simp [numberRows]
  | cons r rest ih =>
    obtain ⟨slot, i⟩ := r
    cases k with
    | zero =>
      simp only [numberRows]
      split <;> simp_all
    | succ k =>
      simp only [numberRows]
      -- a marked row moves the numbers of the rest up by one, and counts once among those before
      split
      · rename_i hslot
        rw [List.getElem?_cons_succ, List.getElem?_cons_succ, ih, List.take_succ_cons]
        simp only [List.countP_cons, hslot, if_true, Nat.add_assoc, Nat.add_comm 1]
      · rename_i hslot
        rw [List.getElem?_cons_succ, List.getElem?_cons_succ, ih, List.take_succ_cons]
        simp only [List.countP_cons, hslot, Nat.add_zero, Bool.false_eq_true, if_false]

theorem getElem?_rows_numberTargets :
    p.numberTargets.rows[k]? = p.rows[k]?.map fun r =>
      (r.1, { r.2 with targetNumber := p.targetNumberAt k r.1 }) :=
  getElem?_numberRows

theorem getElem?_rows_numberLocations :
    (p.numberLocations start).rows[k]? = p.rows[k]?.map fun r =>
      (r.1, { r.2 with locationNumber := start + k }) :=
  List.getElem?_mapIdx

/-- What does not depend on target numbers stays the same in every row. -/
theorem map_rows_numberTargets {α : Type} {f : Nat × Instruction → α}
    (hf : ∀ (slot : Nat) (i : Instruction) n,
      f (slot, { i with targetNumber := n }) = f (slot, i)) :
    p.numberTargets.rows.map f = p.rows.map f := by
  apply List.ext_getElem?
  intro k
  rw [List.getElem?_map, getElem?_rows_numberTargets, List.getElem?_map, Option.map_map]
  simp only [Function.comp_def, hf]

/-- What does not depend on location numbers stays the same in every row. -/
theorem map_rows_numberLocations {α : Type} {f : Nat × Instruction → α}
    (hf : ∀ (slot : Nat) (i : Instruction) n,
      f (slot, { i with locationNumber := n }) = f (slot, i)) :
    (p.numberLocations start).rows.map f = p.rows.map f := by
  apply List.ext_getElem?
  intro k
  rw [List.getElem?_map, getElem?_rows_numberLocations, List.getElem?_map, Option.map_map]
  simp only [Function.comp_def, hf]

theorem getElem?_instructions_numbered (start : Nat) {i : Instruction}
    (hi : p.instructions[k]? = some i) :
    ∃ n, (p.numberTargets.numberLocations start).instructions[k]? =
      some { i with targetNumber := n, locationNumber := start + k } := by
  rw [getElem?_instructions] at hi ⊢
  obtain ⟨r, hr, rfl⟩ := Option.map_eq_some_iff.mp hi
  rw [getElem?_rows_numberLocations, getElem?_rows_numberTargets, hr]
  exact ⟨_, rfl⟩

theorem getElem?_numbered_ofList {tag : Nat} {is : List Instruction} {i : Instruction}
    (hi : is[k]? = some i) :
    ∃ n, ((ofList tag is).numberTargets.numberLocations 0).instructions[k]? =
      some { i with targetNumber := n, locationNumber := k } := by
  rw [← instructions_ofList tag is] at hi
  obtain ⟨n, hn⟩ := getElem?_instructions_numbered 0 hi
  exact ⟨n, by rw [hn, Nat.zero_add]⟩

theorem locationNumber_of_numberLocations {i : Instruction}
    (hi : (p.numberLocations start).instructions[k]? = some i) : i.locationNumber = start + k := by
  rw [getElem?_instructions, getElem?_rows_numberLocations, Option.map_map] at hi
  obtain ⟨r, -, rfl⟩ := Option.map_eq_some_iff.mp hi
  rfl

theorem locationNumber_of_numbered {i : Instruction}
    (hi : (p.numberLocations start).numberTargets.instructions[k]? = some i) :
    i.locationNumber = start + k := by
  rw [getElem?_instructions, getElem?_rows_numberTargets, getElem?_rows_numberLocations,
    Option.map_map, Option.map_map] at hi
  obtain ⟨r, -, rfl⟩ := Option.map_eq_some_iff.mp hi
  rfl

@[simp] theorem slots_numberTargets : p.numberTargets.slots = p.slots :=
  map_rows_numberTargets fun _ _ _ => rfl

@[simp] theorem slots_numberLocations : (p.numberLocations start).slots = p.slots :=
  map_rows_numberLocations fun _ _ _ => rfl

@[simp] theorem ids_numberTargets : p.numberTargets.ids = p.ids := by
  rw [ids_eq_map_slots, slots_numberTargets, ids_eq_map_slots]
  rfl

@[simp] theorem ids_numberLocations : (p.numberLocations start).ids = p.ids := by
  rw [ids_eq_map_slots, slots_numberLocations, ids_eq_map_slots]
  rfl

theorem WellFormed.numberTargets (hp : p.WellFormed) : p.numberTargets.WellFormed :=
  hp.of_slots slots_numberTargets rfl

theorem WellFormed.numberLocations (hp : p.WellFormed) : (p.numberLocations start).WellFormed :=
  hp.of_slots slots_numberLocations rfl

theorem targets_eq_flatten (p : Program) :
    p.targets = (p.rows.map fun r => r.2.targets).flatten := by
  rw [targets, instructions, List.flatMap_map, List.flatMap_def]

@[simp] theorem targets_numberTargets : p.numberTargets.targets = p.targets := by
  rw [targets_eq_flatten, targets_eq_flatten, map_rows_numberTargets fun _ _ _ => rfl]

@[simp] theorem targets_numberLocations : (p.numberLocations start).targets = p.targets := by
  rw [targets_eq_flatten, targets_eq_flatten, map_rows_numberLocations fun _ _ _ => rfl]

theorem isSome_targetNumberAt {slot : Nat} :
    (p.targetNumberAt k slot).isSome ↔ p.handle slot ∈ p.targets := by
  unfold targetNumberAt
  split <;> simp_all

/-- An instruction has a number exactly if it is jumped to. -/
theorem isTarget_numberTargets_iff {i : Instruction} (hh : p.ids[k]? = some h)
    (hi : p.numberTargets.instructions[k]? = some i) : i.isTarget ↔ h ∈ p.targets := by
  rw [getElem?_ids] at hh
  obtain ⟨r, hr, rfl⟩ := Option.map_eq_some_iff.mp hh
  rw [getElem?_instructions, getElem?_rows_numberTargets, hr] at hi
  cases hi
  exact isSome_targetNumberAt

/-- Exactly the targets in the program have a number. -/
theorem hasTargetNumber_numberTargets :
    p.numberTargets.hasTargetNumber t ↔ t ∈ p.ids ∧ t ∈ p.targets := by
  rw [← ids_numberTargets (p := p), ← contains_iff]
  unfold hasTargetNumber contains get?
  cases hr : p.numberTargets.rows.find? fun r => p.numberTargets.handle r.1 == t with
  | none => simp
  | some r =>
    -- the row that is found under `t` was numbered according to `t`
    obtain ⟨k, hk⟩ := List.getElem?_of_mem (List.mem_of_find?_eq_some hr)
    have ht : p.numberTargets.handle r.1 = t := by simpa using List.find?_some hr
    replace ht : p.handle r.1 = t := ht
    rw [getElem?_rows_numberTargets] at hk
    obtain ⟨r₀, -, rfl⟩ := Option.map_eq_some_iff.mp hk
    simpa [Instruction.isTarget, ← ht] using isSome_targetNumberAt

/-- Numbering succeeds exactly on closed programs. -/
theorem computeTargetNumbers_eq_ok_iff :
    p.computeTargetNumbers = (q, .ok ()) ↔ p.Closed ∧ q = p.numberTargets := by
  -- a jump has a number at its other end unless it leads out
  have hnil : p.numberTargets.unnumbered = [] ↔ p.Closed := by
    have hall : p.numberTargets.unnumbered = [] ↔
        ∀ t ∈ p.numberTargets.targets, p.numberTargets.hasTargetNumber t := by
      simp [unnumbered, targets, instructions, List.flatMap_eq_nil_iff]
      grind
    rw [hall, targets_numberTargets]
    simp only [hasTargetNumber_numberTargets]
    exact ⟨fun h t ht => (h t ht).1, fun h t ht => ⟨h ht, ht⟩⟩
  unfold computeTargetNumbers
  dsimp only
  split
  · rename_i h
    simp [hnil.mp h, eq_comm]
  · rename_i h
    have hopen : ¬p.Closed := fun hc => by simp [hnil.mpr hc] at h
    simp [hopen]

theorem update_eq_ok_iff :
    p.update = (q, .ok ()) ↔ p.Closed ∧ q = p.numberTargets.numberLocations 0 := by
  unfold update
  cases hr : p.computeTargetNumbers with
  | mk r outcome =>
    cases outcome with
    | error e =>
      have hopen : ¬p.Closed := by
        intro hc
        have := computeTargetNumbers_eq_ok_iff.mpr ⟨hc, rfl⟩
        simp [hr] at this
      simp [hopen]
    | ok u =>
      obtain ⟨hc, rfl⟩ := computeTargetNumbers_eq_ok_iff.mp hr
      simp [hc, eq_comm]

end Program

namespace FunctionTable
variable {t t₀ : FunctionTable} {name : String} {f : FunctionEntry}
variable {es : List (String × FunctionEntry)}

theorem find?_countThrough {step : Program → Nat → Program × Nat} {start : Nat}
    {e : String × FunctionEntry}
    (h : (countThrough step start es).find? (fun e => e.1 == name) = some e) :
    ∃ e₀ s, es.find? (fun e => e.1 == name) = some e₀ ∧
      e = (e₀.1, { e₀.2 with body := (step e₀.2.body s).1 }) := by
  induction es generalizing start with
  | nil => cases h
  | cons e₀ rest ih =>
    obtain ⟨n, f₀⟩ := e₀
    simp only [countThrough, List.find?_cons] at h ⊢
    split at h
    · exact ⟨(n, f₀), start, rfl, (Option.some.inj h).symm⟩
    · exact ih h

theorem find?_numberEntryTargets {es' : List (String × FunctionEntry)} {e : String × FunctionEntry}
    (hok : numberEntryTargets es = (es', .ok ()))
    (h : es'.find? (fun e => e.1 == name) = some e) :
    ∃ e₀, es.find? (fun e => e.1 == name) = some e₀ ∧ e₀.2.body.Closed ∧
      e = (e₀.1, { e₀.2 with body := e₀.2.body.numberTargets }) := by
  induction es generalizing es' with
  | nil =>
    cases hok
    cases h
  | cons e₀ rest ih =>
    obtain ⟨n, f₀⟩ := e₀
    simp only [numberEntryTargets] at hok
    split at hok
    · cases hok
    · rename_i body hbody
      obtain ⟨hc, rfl⟩ := Program.computeTargetNumbers_eq_ok_iff.mp hbody
      cases hrest : numberEntryTargets rest with
      | mk es₁ outcome =>
        rw [hrest] at hok
        cases hok
        simp only [List.find?_cons] at h ⊢
        split at h
        · exact ⟨(n, f₀), rfl, hc, (Option.some.inj h).symm⟩
        · exact ih hrest h

/-- After a successful update every body is a closed one of before, numbered. -/
theorem get?_of_update (hok : t₀.update = (t, .ok ())) (hf : t.get? name = some f) :
    ∃ f₀ start, t₀.get? name = some f₀ ∧ f₀.body.Closed ∧
      f = { f₀ with body := (f₀.body.numberLocations start).numberTargets } := by
  unfold update at hok
  cases hr : numberEntryTargets t₀.numberLocations.functions.entries with
  | mk es outcome =>
    rw [hr] at hok
    cases hok
    obtain ⟨e, he, rfl⟩ := Option.map_eq_some_iff.mp hf
    -- back through the numbering of targets, then through that of locations
    obtain ⟨e₁, he₁, hc, rfl⟩ := find?_numberEntryTargets hr he
    obtain ⟨e₀, s, he₀, rfl⟩ := find?_countThrough he₁
    refine ⟨e₀.2, s, Option.map_eq_some_iff.mpr ⟨e₀, he₀, rfl⟩, ?_, rfl⟩
    unfold Program.Closed at hc ⊢
    simpa using hc

end FunctionTable
end GotoCheck
