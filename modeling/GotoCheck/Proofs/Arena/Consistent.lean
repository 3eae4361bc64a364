import GotoCheck.Proofs.Arena.Refinement

/-! Tables in step. Where the three tables agree, an arena is an ordered list of instructions under
handles of their own, whichever table is asked. -/
namespace GotoCheck.Arena
variable {a : Arena} {p : Program} {h : Handle} {i : Instruction} {s k : Nat}

/-- The order names each instruction once, under the tag of the program, and each slot knows its
place in the order as long as it has an instruction. -/
structure Consistent (a : Arena) : Prop where
  tagged : ∀ h ∈ a.order, h.program = a.tag
  distinct : a.order.Nodup
  places : ∀ (s k : Nat), a.positions[s]? = some (some k) ↔ a.order[k]?.map Handle.slot = some s
  filled : ∀ s : Nat, (∃ i, a.slots[s]? = some (some i)) ↔ ∃ k, a.positions[s]? = some (some k)
  parallel : a.positions.length = a.slots.length

/-- All questions are answered from one list of handles. -/
structure Answers (a : Arena) : Prop where
  contains_iff : ∀ h, a.contains h ↔ h ∈ a.order
  isSome_position?_iff : ∀ h, (a.position? h).isSome ↔ h ∈ a.order
  position?_iff : ∀ (h : Handle) (k : Nat), a.position? h = some k ↔ a.order[k]? = some h
  next?_eq : ∀ (h : Handle) (k : Nat), a.position? h = some k → a.next? h = a.order[k + 1]?
  next?_eq_none : ∀ h, h ∉ a.order → a.next? h = none
  handles : a.listing.map Prod.fst = a.order
  length_listing : a.listing.length = a.order.length
  contents : ∀ h i, (h, i) ∈ a.listing ↔ a.get? h = some i

section Lookups

theorem Consistent.position?_eq_some_iff (ha : a.Consistent) :
    a.position? h = some k ↔ a.order[k]? = some h := by
  unfold position?
  constructor
  · intro hk
    split at hk
    · rename_i htag
      obtain ⟨x, hx, hslot⟩ := Option.map_eq_some_iff.mp ((ha.places h.slot k).mp
        (Option.join_eq_some_iff.mp hk))
      have hprogram := ha.tagged x (List.mem_of_getElem? hx)
      obtain ⟨program, slot⟩ := x
      cases hslot
      cases hprogram.trans htag.symm
      exact hx
    · cases hk
  · intro hk
    have hplace : a.positions[h.slot]? = some (some k) := by
      rw [ha.places, hk]
      rfl
    rw [if_pos (ha.tagged h (List.mem_of_getElem? hk)), hplace]
    rfl

theorem Consistent.isSome_position?_iff (ha : a.Consistent) :
    (a.position? h).isSome ↔ h ∈ a.order := by
  rw [Option.isSome_iff_exists, List.mem_iff_getElem?]
  exact exists_congr fun _ => ha.position?_eq_some_iff

theorem Consistent.contains_iff (ha : a.Consistent) : a.contains h ↔ h ∈ a.order := by
  rw [← ha.isSome_position?_iff, contains, get?, position?]
  split
  · have hfilled := ha.filled h.slot
    simp only [Option.isSome_iff_exists, Option.join_eq_some_iff]
    exact hfilled
  · exact Iff.rfl

/-- What is listed stands under the handles of the order, which all lead to an instruction. -/
theorem Consistent.map_fst_listing (ha : a.Consistent) : a.listing.map Prod.fst = a.order := by
  have hsome : ∀ h ∈ a.order, ((a.get? h).map fun i => (h, i)).map Prod.fst = some h := by
    intro h hh
    obtain ⟨i, hi⟩ := Option.isSome_iff_exists.mp (ha.contains_iff.mpr hh)
    rw [hi]
    rfl
  rw [listing, List.map_filterMap]
  exact (List.filterMap_congr hsome).trans List.filterMap_some

theorem Consistent.mem_listing_iff (ha : a.Consistent) :
    (h, i) ∈ a.listing ↔ a.get? h = some i := by
  rw [listing, List.mem_filterMap]
  constructor
  · intro hx
    obtain ⟨g, -, hg⟩ := hx
    obtain ⟨j, hj, heq⟩ := Option.map_eq_some_iff.mp hg
    cases heq
    exact hj
  · intro hi
    have hh : h ∈ a.order := ha.contains_iff.mp (Option.isSome_iff_exists.mpr ⟨i, hi⟩)
    exact ⟨h, hh, by rw [hi]; rfl⟩

theorem Consistent.answers (ha : a.Consistent) : a.Answers where
  contains_iff := fun _ => ha.contains_iff
  isSome_position?_iff := fun _ => ha.isSome_position?_iff
  position?_iff := fun _ _ => ha.position?_eq_some_iff
  next?_eq := by
    intro h k hk
    rw [next?, hk]
    rfl
  next?_eq_none := by
    intro h hh
    have hnone : a.position? h = none := by
      rw [← Option.not_isSome_iff_eq_none, ha.isSome_position?_iff]
      exact hh
    rw [next?, hnone]
    rfl
  handles := ha.map_fst_listing
  length_listing := by rw [← ha.map_fst_listing, List.length_map]
  contents := fun _ _ => ha.mem_listing_iff

end Lookups

/-- The tables of a program are in step. -/
theorem consistent_ofProgram (hp : p.WellFormed) : (ofProgram p).Consistent := by
  have hlive : ∀ s, p.handle s ∈ p.ids → s < p.issued := fun s => hp.slot_lt
  have hpositions : ∀ s k : Nat, (ofProgram p).positions[s]? = some (some k) ↔
      p.position? (p.handle s) = some k := by
    intro s k
    by_cases hs : s < p.issued
    · rw [getElem?_positions_ofProgram hs, Option.some.injEq]
    · have hnone : p.position? (p.handle s) = none :=
        Program.position?_eq_none_iff.mpr fun hmem => hs (hlive s hmem)
      rw [List.getElem?_eq_none (by simpa using hs), hnone]
      exact ⟨nofun, nofun⟩
  have hslots : ∀ (s : Nat) (i : Instruction), (ofProgram p).slots[s]? = some (some i) ↔
      p.get? (p.handle s) = some i := by
    intro s i
    by_cases hs : s < p.issued
    · rw [getElem?_slots_ofProgram hs, Option.some.injEq]
    · have hnone : p.get? (p.handle s) = none :=
        Program.get?_eq_none_iff.mpr fun hmem => hs (hlive s hmem)
      rw [List.getElem?_eq_none (by simpa using hs), hnone]
      exact ⟨nofun, nofun⟩
  exact {
    tagged := by
      intro h hh
      rw [Program.eq_handle_of_mem hh]
      rfl
    distinct := hp.ids_nodup
    places := by
      intro s k
      rw [hpositions, hp.position?_eq_some_iff]
      change _ ↔ p.ids[k]?.map Handle.slot = some s
      rw [Program.getElem?_ids, Option.map_map]
      simp only [Option.map_eq_some_iff, Program.handle_inj, Function.comp_apply]
      exact Iff.rfl
    filled := by
      intro s
      simp only [hslots, hpositions]
      rw [← Option.isSome_iff_exists, ← Option.isSome_iff_exists, Program.position?_isSome_iff]
      exact Program.contains_iff
    parallel := by
      rw [length_positions_ofProgram, length_slots_ofProgram] }

end GotoCheck.Arena
