import Mathlib.Data.List.Nodup
import GotoCheck.Program

/-! Places of a program. A handle, its place in program order and the instruction there determine
one another as long as no slot is used twice. -/
namespace GotoCheck.Program
variable {p q : Program} {h : Handle} {i : Instruction} {k slot : Nat}

def slots (p : Program) : List Nat := p.rows.map Prod.fst

/-- Each slot is used once, and only if it was handed out. Every program has this from the start. -/
structure WellFormed (p : Program) : Prop where
  nodup : p.slots.Nodup
  issued : ∀ s ∈ p.slots, s < p.issued

instance : Decidable p.WellFormed :=
  decidable_of_iff (p.slots.Nodup ∧ ∀ s ∈ p.slots, s < p.issued)
    ⟨fun h => ⟨h.1, h.2⟩, fun h => ⟨h.nodup, h.issued⟩⟩

theorem WellFormed.of_sublist (hp : p.WellFormed) (hs : q.slots.Sublist p.slots)
    (hi : q.issued = p.issued) : q.WellFormed where
  nodup := hp.nodup.sublist hs
  issued := by
    intro s hmem
    rw [hi]
    exact hp.issued s (hs.subset hmem)

theorem WellFormed.of_slots (hp : p.WellFormed) (hs : q.slots = p.slots)
    (hi : q.issued = p.issued) : q.WellFormed :=
  hp.of_sublist (hs ▸ List.Sublist.refl _) hi

theorem handle_inj {a b : Nat} : p.handle a = p.handle b ↔ a = b := by
  simp [handle]

theorem ids_eq_map_slots : p.ids = p.slots.map p.handle := by
  simp [ids, slots]

theorem getElem?_ids : p.ids[k]? = p.rows[k]?.map fun r => p.handle r.1 := List.getElem?_map

theorem getElem?_instructions : p.instructions[k]? = p.rows[k]?.map Prod.snd := List.getElem?_map

@[simp] theorem length_ids : p.ids.length = p.size := List.length_map _

@[simp] theorem length_instructions : p.instructions.length = p.size := List.length_map _

theorem exists_getElem?_ids (hk : k < p.size) : ∃ h, p.ids[k]? = some h :=
  ⟨_, List.getElem?_eq_getElem (by rwa [length_ids])⟩

theorem exists_getElem?_instructions (hk : k < p.size) : ∃ i, p.instructions[k]? = some i :=
  ⟨_, List.getElem?_eq_getElem (by rwa [length_instructions])⟩

theorem lt_size_of_getElem?_ids (hk : p.ids[k]? = some h) : k < p.size :=
  length_ids ▸ (List.getElem?_eq_some_iff.mp hk).1

theorem lt_size_of_getElem?_instructions (hk : p.instructions[k]? = some i) : k < p.size :=
  length_instructions ▸ (List.getElem?_eq_some_iff.mp hk).1

theorem exists_instruction (hk : p.ids[k]? = some h) : ∃ i, p.instructions[k]? = some i :=
  exists_getElem?_instructions (lt_size_of_getElem?_ids hk)

theorem last?_eq_getElem? : p.last? = p.ids[p.size - 1]? := by
  rw [last?, List.getLast?_eq_getElem?, length_ids]

theorem getElem?_rows_eq_some_iff :
    p.rows[k]? = some (slot, i) ↔
      p.ids[k]? = some (p.handle slot) ∧ p.instructions[k]? = some i := by
  rw [getElem?_ids, getElem?_instructions]
  cases p.rows[k]? with
  | none => simp
  | some r => simp [handle_inj, Prod.ext_iff]

theorem position?_eq_findIdx? : p.position? h = p.rows.findIdx? fun r => p.handle r.1 == h := by
  rw [position?, ids, List.findIdx?_map]
  rfl

/-- Looking an instruction up is finding its place and reading there. -/
theorem get?_eq_bind : p.get? h = (p.position? h).bind fun k => p.instructions[k]? := by
  rw [get?, List.find?_eq_bind_findIdx?_getElem?, ← position?_eq_findIdx?, Option.map_bind]
  simp only [getElem?_instructions]
  rfl

theorem getElem?_ids_of_position? (hk : p.position? h = some k) : p.ids[k]? = some h := by
  obtain ⟨hlt, heq, -⟩ := List.findIdx?_eq_some_iff_getElem.mp hk
  rw [List.getElem?_eq_getElem hlt]
  exact congrArg some (eq_of_beq heq)

theorem lt_size_of_position? (hk : p.position? h = some k) : k < p.size :=
  lt_size_of_getElem?_ids (getElem?_ids_of_position? hk)

theorem position?_isSome_iff : (p.position? h).isSome ↔ h ∈ p.ids := by
  simp [position?, List.findIdx?_isSome]

theorem position?_eq_none_iff : p.position? h = none ↔ h ∉ p.ids := by
  rw [← position?_isSome_iff]
  simp

theorem contains_iff : p.contains h ↔ h ∈ p.ids := by
  rw [contains, get?_eq_bind, ← position?_isSome_iff]
  cases hk : p.position? h with
  | none => simp
  | some k =>
    have hlt := lt_size_of_position? hk
    rw [← length_instructions] at hlt
    simp [List.getElem?_eq_getElem hlt]

theorem WellFormed.ids_nodup (hp : p.WellFormed) : p.ids.Nodup := by
  rw [ids_eq_map_slots]
  exact hp.nodup.map fun a b => handle_inj.mp

/-- No handle is at two places. -/
theorem WellFormed.place_inj {j : Nat} (hp : p.WellFormed) (hj : p.ids[j]? = some h)
    (hk : p.ids[k]? = some h) : j = k := by
  have hlt : j < p.ids.length := (List.getElem?_eq_some_iff.mp hj).1
  exact (List.getElem?_inj hlt hp.ids_nodup).mp (hj.trans hk.symm)

theorem WellFormed.position?_eq_some_iff (hp : p.WellFormed) :
    p.position? h = some k ↔ p.ids[k]? = some h := by
  constructor
  · exact getElem?_ids_of_position?
  intro hk
  cases hj : p.position? h with
  | none => exact absurd (List.mem_of_getElem? hk) (position?_eq_none_iff.mp hj)
  | some j => rw [hp.place_inj (getElem?_ids_of_position? hj) hk]

theorem WellFormed.get?_eq (hp : p.WellFormed) (hk : p.ids[k]? = some h) :
    p.get? h = p.instructions[k]? := by
  rw [get?_eq_bind, hp.position?_eq_some_iff.mpr hk, Option.bind_some]

theorem WellFormed.next?_eq (hp : p.WellFormed) (hk : p.ids[k]? = some h) :
    p.next? h = p.ids[k + 1]? := by
  rw [next?, hp.position?_eq_some_iff.mpr hk]
  rfl

/-- Where control goes from an instruction with the given next and last instructions. -/
def leadsTo (i : Instruction) (next last : List Handle) : List Handle :=
  match i.statement with
  | .goto => if i.guard.isTrue then i.targets else i.targets ++ next
  | .throws _ _ => []
  | .returns _ => last
  | .assume => if i.guard.isFalse then [] else next
  | _ => next

/-- Except from a return, control follows the jumps and the next instruction wherever they move. -/
theorem leadsTo_map {next last last' : List Handle} {image : Handle → Handle}
    {number : Option Nat} {location : Nat} (hi : i.isReturn = false) :
    leadsTo { i with
        targets := i.targets.map image
        targetNumber := number
        locationNumber := location } (next.map image) last' =
      (leadsTo i next last).map image := by
  unfold leadsTo Instruction.isReturn at *
  split <;> simp_all [apply_ite (List.map image)]

theorem leadsTo_of_isReturn {next last : List Handle} (hi : i.isReturn) :
    leadsTo i next last = last := by
  unfold Instruction.isReturn at hi
  unfold leadsTo
  split at hi
  · rename_i hs
    rw [hs]
  · cases hi

theorem leadsTo_of_isGoto {next last : List Handle} (hi : i.isGoto) :
    leadsTo i next last = if i.guard.isTrue then i.targets else i.targets ++ next := by
  unfold Instruction.isGoto at hi
  unfold leadsTo
  split at hi
  · rename_i hs
    rw [hs]
  · cases hi

theorem successors_eq (hi : p.get? h = some i) :
    p.successors h = leadsTo i (p.next? h).toList p.last?.toList := by
  rw [successors, hi]
  rfl

theorem WellFormed.successors_eq (hp : p.WellFormed) (hk : p.ids[k]? = some h)
    (hi : p.instructions[k]? = some i) :
    p.successors h = leadsTo i p.ids[k + 1]?.toList p.last?.toList := by
  rw [← hp.next?_eq hk]
  exact Program.successors_eq ((hp.get?_eq hk).trans hi)

/-- The instructions from the place `first` up to and without the place `last`. -/
def between (p : Program) (first last : Nat) : List Instruction :=
  (p.instructions.drop first).take (last - first)

section OfList
variable {tag : Nat} {is : List Instruction}

theorem slots_ofList : (ofList tag is).slots = List.range is.length := by
  rw [List.range_eq_range', ← List.zipIdx_map_snd 0 is]
  simp [slots, ofList, Function.comp_def]

@[simp] theorem ids_ofList : (ofList tag is).ids = (List.range is.length).map (Handle.mk tag) := by
  rw [ids_eq_map_slots, slots_ofList]
  rfl

@[simp] theorem instructions_ofList (tag : Nat) (is : List Instruction) :
    (ofList tag is).instructions = is := by
  simp [instructions, ofList, Function.comp_def]

theorem wellFormed_ofList : (ofList tag is).WellFormed where
  nodup := slots_ofList ▸ List.nodup_range
  issued := by
    intro s hs
    rw [slots_ofList] at hs
    exact List.mem_range.mp hs

end OfList

end GotoCheck.Program
