import Mathlib.Data.List.InsertIdx
import GotoCheck.Proofs.Arena.Tables
import GotoCheck.Proofs.History

/-! How programs lie in tables. A program leaves no choice in its tables, so edits of the tables are
right if they lead to the tables of the edited program. -/
namespace GotoCheck

namespace Program
variable {p : Program} {h g : Handle} {i : Instruction} {s k : Nat}

theorem eq_handle_of_mem (hh : h ∈ p.ids) : h = p.handle h.slot := by
  obtain ⟨r, -, rfl⟩ := List.mem_map.mp hh
  rfl

/-- The instructions with their handles, in program order. -/
def listing (p : Program) : List (Handle × Instruction) := p.rows.map fun r => (p.handle r.1, r.2)

theorem WellFormed.slot_lt (hp : p.WellFormed) (hh : p.handle s ∈ p.ids) : s < p.issued := by
  obtain ⟨r, hr, heq⟩ := List.mem_map.mp hh
  rw [← handle_inj.mp heq]
  exact hp.issued r.1 (List.mem_map_of_mem hr)

theorem WellFormed.get?_eq_some_iff (hp : p.WellFormed) :
    p.get? (p.handle s) = some i ↔ (s, i) ∈ p.rows := by
  rw [List.mem_iff_getElem?]
  constructor
  · intro hi
    rw [get?_eq_bind] at hi
    obtain ⟨k, hk, hi⟩ := Option.bind_eq_some_iff.mp hi
    exact ⟨k, getElem?_rows_eq_some_iff.mpr ⟨getElem?_ids_of_position? hk, hi⟩⟩
  · intro hx
    obtain ⟨k, hk⟩ := hx
    obtain ⟨hid, hi⟩ := getElem?_rows_eq_some_iff.mp hk
    rw [hp.get?_eq hid, hi]

theorem get?_eq_none_iff : p.get? h = none ↔ h ∉ p.ids := by
  rw [← contains_iff, contains, Bool.not_eq_true, Option.isSome_eq_false_iff,
    Option.isNone_iff_eq_none]

theorem get?_modify {f : Instruction → Instruction} :
    (p.modify h f).get? g = if g = h then (p.get? g).map f else p.get? g := by
  let change (r : Nat × Instruction) := if p.handle r.1 = h then (r.1, f r.2) else r
  -- a row is found under the same handle after the change
  have hsame : (fun r : Nat × Instruction => p.handle r.1 == g) ∘ change =
      fun r => p.handle r.1 == g := by
    funext r
    simp only [Function.comp_apply, change]
    split <;> rfl
  have hfind : (p.modify h f).get? g =
      ((p.rows.find? fun r => p.handle r.1 == g).map change).map Prod.snd := by
    calc (p.modify h f).get? g
        = ((p.rows.map change).find? fun r => p.handle r.1 == g).map Prod.snd := rfl
      _ = _ := by rw [List.find?_map, hsame]
  rw [hfind, get?]
  cases hr : p.rows.find? fun r => p.handle r.1 == g with
  | none => simp
  | some r =>
    have hg : p.handle r.1 = g := by simpa using List.find?_some hr
    simp only [Option.map_some, change, hg]
    split <;> rfl

theorem ids_insertAt :
    (p.insertAt k i).ids = p.ids.take k ++ p.nextHandle :: p.ids.drop k := by
  rw [ids, insertAt, List.map_append, List.map_cons, List.map_take, List.map_drop]
  rfl

theorem rows_add : (p.add i).rows = p.rows ++ [(p.issued, i)] := by
  rw [add, insertAt, size, List.take_length, List.drop_length]

theorem map_fst_listing : p.listing.map Prod.fst = p.ids := by
  rw [listing, List.map_map]
  rfl

theorem map_snd_listing : p.listing.map Prod.snd = p.instructions := by
  rw [listing, List.map_map]
  rfl

section Middle
variable {passed rest : List (Nat × Instruction)} {slot : Nat}

/-- All rows but one are under other handles. -/
theorem WellFormed.handle_ne_of_split (hp : p.WellFormed)
    (hrows : p.rows = passed ++ (slot, i) :: rest) :
    ∀ r ∈ passed ++ rest, p.handle r.1 ≠ p.handle slot := by
  have hslots : p.slots = passed.map Prod.fst ++ slot :: rest.map Prod.fst := by
    rw [slots, hrows, List.map_append, List.map_cons]
  have hnodup := hp.nodup
  rw [hslots, List.nodup_middle, List.nodup_cons, ← List.map_append] at hnodup
  intro r hr heq
  apply hnodup.1
  rw [← handle_inj.mp heq]
  exact List.mem_map_of_mem hr

theorem WellFormed.get?_of_split (hp : p.WellFormed)
    (hrows : p.rows = passed ++ (slot, i) :: rest) : p.get? (p.handle slot) = some i := by
  rw [hp.get?_eq_some_iff, hrows]
  exact List.mem_append_right passed List.mem_cons_self

theorem WellFormed.modify_middle {f : Instruction → Instruction} (hp : p.WellFormed)
    (hrows : p.rows = passed ++ (slot, i) :: rest) :
    p.modify (p.handle slot) f = { p with rows := passed ++ (slot, f i) :: rest } := by
  let change (r : Nat × Instruction) := if p.handle r.1 = p.handle slot then (r.1, f r.2) else r
  have hother := hp.handle_ne_of_split hrows
  have hpassed : passed.map change = passed :=
    (List.map_congr_left fun r hr =>
      if_neg (hother r (List.mem_append_left rest hr))).trans (List.map_id _)
  have hrest : rest.map change = rest :=
    (List.map_congr_left fun r hr =>
      if_neg (hother r (List.mem_append_right passed hr))).trans (List.map_id _)
  have hone : change (slot, i) = (slot, f i) := if_pos rfl
  calc p.modify (p.handle slot) f
      = { p with rows := p.rows.map change } := rfl
    _ = _ := by rw [hrows, List.map_append, List.map_cons, hpassed, hrest, hone]

/-- Changing what stands in one slot keeps a program well-formed. -/
theorem WellFormed.replace {j : Instruction} (hp : p.WellFormed)
    (hrows : p.rows = passed ++ (slot, i) :: rest) :
    ({ p with rows := passed ++ (slot, j) :: rest } : Program).WellFormed := by
  refine hp.of_slots ?_ rfl
  rw [slots, slots, hrows, List.map_append, List.map_cons, List.map_append, List.map_cons]

end Middle

theorem insertIdx_ids (hk : k ≤ p.size) :
    p.ids.insertIdx k p.nextHandle = (p.insertAt k i).ids := by
  have hk : k ≤ p.ids.length := by rwa [length_ids]
  rw [ids_insertAt]
  apply List.ext_getElem?
  grind

theorem mem_rows_insertAt {j : Instruction} :
    (s, j) ∈ (p.insertAt k i).rows ↔ (s, j) = (p.issued, i) ∨ (s, j) ∈ p.rows := by
  have hmem := List.mem_append (a := (s, j)) (s := p.rows.take k) (t := p.rows.drop k)
  rw [List.take_append_drop] at hmem
  rw [insertAt, List.mem_append, List.mem_cons, hmem]
  exact or_left_comm

theorem WellFormed.get?_insertAt (hp : p.WellFormed) (hs : s < p.issued) :
    (p.insertAt k i).get? (p.handle s) = p.get? (p.handle s) := by
  have hq : (p.insertAt k i).WellFormed := hp.insertAt
  apply Option.ext
  intro j
  rw [hp.get?_eq_some_iff]
  change (p.insertAt k i).get? ((p.insertAt k i).handle s) = some j ↔ _
  rw [hq.get?_eq_some_iff, mem_rows_insertAt]
  simp [Nat.ne_of_lt hs]

theorem WellFormed.get?_insertAt_nextHandle (hp : p.WellFormed) :
    (p.insertAt k i).get? p.nextHandle = some i := by
  have hq : (p.insertAt k i).WellFormed := hp.insertAt
  exact hq.get?_eq_some_iff.mpr (mem_rows_insertAt.mpr (.inl rfl))

theorem mem_ids_insertAt : h ∈ (p.insertAt k i).ids ↔ h = p.nextHandle ∨ h ∈ p.ids := by
  have hmem := List.mem_append (a := h) (s := p.ids.take k) (t := p.ids.drop k)
  rw [List.take_append_drop] at hmem
  rw [ids_insertAt, List.mem_append, List.mem_cons, hmem]
  exact or_left_comm

theorem mem_ids_of_insertAt (hh : h ∉ (p.insertAt k i).ids) : h ∉ p.ids ∧ h ≠ p.nextHandle := by
  rw [mem_ids_insertAt, not_or] at hh
  exact hh.symm

/-- The rows and the handles without one instruction. -/
def without (p : Program) (h : Handle) : Program :=
  { p with rows := p.rows.filter fun r => p.handle r.1 != h }

theorem ids_without : (p.without h).ids = p.ids.filter (· != h) := by
  rw [ids, ids, List.filter_map]
  rfl

theorem mem_ids_without : g ∈ (p.without h).ids ↔ g ∈ p.ids ∧ g ≠ h := by
  rw [ids_without, List.mem_filter, bne_iff_ne]

theorem WellFormed.get?_without (hp : p.WellFormed) : (p.without h).get? (p.handle s) =
    if p.handle s = h then none else p.get? (p.handle s) := by
  have hq : (p.without h).WellFormed := hp.filter
  apply Option.ext
  intro i
  change (p.without h).get? ((p.without h).handle s) = some i ↔ _
  rw [hq.get?_eq_some_iff, without, List.mem_filter]
  split
  · rename_i heq
    simp [heq]
  · rename_i hne
    simp [hne, hp.get?_eq_some_iff]

/-- The one instruction stands in one place. -/
theorem WellFormed.eraseIdx_ids (hp : p.WellFormed) (hk : p.position? h = some k) :
    p.ids.eraseIdx k = (p.without h).ids := by
  have hindex : List.idxOf? h p.ids = some k := hk
  have herase : p.ids.erase h = p.ids.eraseIdx k := by
    rw [List.erase_eq_eraseIdx, hindex]
  rw [← herase, ids_without, hp.ids_nodup.erase_eq_filter]

end Program

namespace Arena
variable {p q : Program} {a : Arena} {h x : Handle} {i : Instruction} {s j k : Nat}
variable {hs : List Handle} {positions : List (Option Nat)}

section OfProgram

/-- The tables of a program. -/
def ofProgram (p : Program) : Arena where
  tag := p.tag
  slots := (List.range p.issued).map fun s => p.get? (p.handle s)
  order := p.ids
  positions := (List.range p.issued).map fun s => p.position? (p.handle s)

theorem ofProgram_empty {tag : Nat} : ofProgram (.empty tag) = empty tag := rfl

@[simp] theorem length_slots_ofProgram : (ofProgram p).slots.length = p.issued := by
  simp [ofProgram]

@[simp] theorem length_positions_ofProgram : (ofProgram p).positions.length = p.issued := by
  simp [ofProgram]

theorem getElem?_slots_ofProgram (hs : s < p.issued) :
    (ofProgram p).slots[s]? = some (p.get? (p.handle s)) := by
  rw [ofProgram, List.getElem?_map, List.getElem?_range hs, Option.map_some]

theorem getElem?_positions_ofProgram (hs : s < p.issued) :
    (ofProgram p).positions[s]? = some (p.position? (p.handle s)) := by
  rw [ofProgram, List.getElem?_map, List.getElem?_range hs, Option.map_some]

@[simp] theorem nextHandle_ofProgram : (ofProgram p).nextHandle = p.nextHandle := by
  rw [nextHandle, length_slots_ofProgram]
  rfl

/-- Tables that say the same of every slot are the tables of the program. -/
theorem eq_ofProgram (htag : a.tag = q.tag) (horder : a.order = q.ids)
    (hslots : a.slots.length = q.issued) (hpositions : a.positions.length = q.issued)
    (hget : ∀ s < q.issued, a.slots[s]? = some (q.get? (q.handle s)))
    (hplace : ∀ s < q.issued, a.positions[s]? = some (q.position? (q.handle s))) :
    a = ofProgram q := by
  refine Arena.ext htag ?_ horder ?_
  · apply List.ext_getElem?
    intro s
    by_cases hs : s < q.issued
    · rw [hget s hs, getElem?_slots_ofProgram hs]
    · rw [List.getElem?_eq_none (by omega), List.getElem?_eq_none (by simpa using hs)]
  · apply List.ext_getElem?
    intro s
    by_cases hs : s < q.issued
    · rw [hplace s hs, getElem?_positions_ofProgram hs]
    · rw [List.getElem?_eq_none (by omega), List.getElem?_eq_none (by simpa using hs)]

/-- A look into a table that says, for each slot handed out, what the program says of its handle. -/
theorem lookup_ofProgram {α : Type} {f : Handle → Option α} (hp : p.WellFormed)
    (hf : ∀ h, h ∉ p.ids → f h = none) :
    (if h.program = p.tag then ((List.range p.issued).map fun s => f (p.handle s))[h.slot]?.join
      else none) = f h := by
  by_cases hh : h ∈ p.ids
  · have heq := Program.eq_handle_of_mem hh
    have hlt : h.slot < p.issued := hp.slot_lt (heq ▸ hh)
    have htag : h.program = p.tag := congrArg Handle.program heq
    rw [if_pos htag, List.getElem?_map, List.getElem?_range hlt, Option.map_some, ← heq]
    rfl
  · rw [hf h hh]
    split
    · rename_i htag
      have heq : p.handle h.slot = h := by
        rw [Program.handle, ← htag]
      by_cases hlt : h.slot < p.issued
      · rw [List.getElem?_map, List.getElem?_range hlt, Option.map_some, heq, hf h hh]
        rfl
      · rw [List.getElem?_eq_none (by simpa using hlt)]
        rfl
    · rfl

theorem get?_ofProgram (hp : p.WellFormed) : (ofProgram p).get? h = p.get? h :=
  lookup_ofProgram hp fun _ => Program.get?_eq_none_iff.mpr

theorem position?_ofProgram (hp : p.WellFormed) : (ofProgram p).position? h = p.position? h :=
  lookup_ofProgram hp fun _ => Program.position?_eq_none_iff.mpr

theorem listing_ofProgram (hp : p.WellFormed) : (ofProgram p).listing = p.listing := by
  have hids : (ofProgram p).order = p.rows.map fun r => p.handle r.1 := rfl
  rw [listing, Program.listing, hids, List.filterMap_map, ← List.filterMap_eq_map]
  apply List.filterMap_congr
  intro r hr
  rw [Function.comp_apply, get?_ofProgram hp, hp.get?_eq_some_iff.mpr hr]
  rfl

end OfProgram

section Reindex

theorem length_reindex : (reindex hs k positions).length = positions.length := by
  induction hs generalizing k positions with
  | nil => rfl
  | cons x rest ih => rw [reindex, ih, List.length_set]

theorem getElem?_reindex_of_ne (hne : ∀ x ∈ hs, x.slot ≠ s) :
    (reindex hs k positions)[s]? = positions[s]? := by
  induction hs generalizing k positions with
  | nil => rfl
  | cons x rest ih =>
    rw [reindex, ih fun y hy => hne y (List.mem_cons_of_mem x hy),
      List.getElem?_set_ne (hne x List.mem_cons_self)]

theorem getElem?_reindex_of_getElem? (hnodup : (hs.map Handle.slot).Nodup)
    (hx : hs[j]? = some x) (hlt : x.slot < positions.length) :
    (reindex hs k positions)[x.slot]? = some (some (k + j)) := by
  induction hs generalizing j k positions with
  | nil => cases hx
  | cons y rest ih =>
    obtain ⟨hy, hrest⟩ := List.nodup_cons.mp hnodup
    rw [reindex]
    cases j with
    | zero =>
      cases hx
      -- nothing behind it writes to the same slot
      have hlast : ∀ z ∈ rest, z.slot ≠ x.slot := fun z hz heq =>
        hy (heq ▸ List.mem_map_of_mem (f := Handle.slot) hz)
      rw [getElem?_reindex_of_ne hlast, List.getElem?_set_self hlt, Nat.add_zero]
    | succ j =>
      rw [ih hrest hx (by rwa [List.length_set]), Nat.add_right_comm, Nat.add_assoc]

/-- If the places before `k` and the lack of a place are right, reindexing from there on makes all
right. -/
theorem getElem?_reindex_ids (hq : q.WellFormed) (hlength : positions.length = q.issued)
    (hs : s < q.issued)
    (hold : ∀ j < k, q.position? (q.handle s) = some j → positions[s]? = some (some j))
    (hnone : q.position? (q.handle s) = none → positions[s]? = some none) :
    (reindex (q.ids.drop k) k positions)[s]? = some (q.position? (q.handle s)) := by
  have hslot : ∀ x ∈ q.ids.drop k, x.slot = s → q.handle s ∈ q.ids.drop k := by
    intro x hx heq
    rwa [← heq, ← Program.eq_handle_of_mem (List.mem_of_mem_drop hx)]
  cases hplace : q.position? (q.handle s) with
  | none =>
    rw [getElem?_reindex_of_ne, hnone hplace]
    intro x hx heq
    exact Program.position?_eq_none_iff.mp hplace (List.mem_of_mem_drop (hslot x hx heq))
  | some j =>
    have hj : q.ids[j]? = some (q.handle s) := Program.getElem?_ids_of_position? hplace
    by_cases hlt : j < k
    · rw [getElem?_reindex_of_ne, hold j hlt hplace]
      intro x hx heq
      obtain ⟨m, hm⟩ := List.mem_iff_getElem?.mp (hslot x hx heq)
      rw [List.getElem?_drop] at hm
      have := hq.place_inj hm hj
      omega
    · have hdrop : (q.ids.drop k)[j - k]? = some (q.handle s) := by
        rw [List.getElem?_drop, Nat.add_sub_cancel' (Nat.le_of_not_lt hlt), hj]
      have hnodup : ((q.ids.drop k).map Handle.slot).Nodup := by
        have hslots : q.ids.map Handle.slot = q.slots := by
          rw [Program.ids, List.map_map]
          rfl
        rw [List.map_drop, hslots]
        exact hq.nodup.sublist (List.drop_sublist k _)
      have hwritten := getElem?_reindex_of_getElem? (k := k) hnodup hdrop (hlength ▸ hs)
      rwa [Nat.add_sub_cancel' (Nat.le_of_not_lt hlt)] at hwritten

end Reindex

section Insert

theorem getElem?_slots_insertAt (hp : p.WellFormed) (hs : s < p.issued + 1) :
    ((ofProgram p).slots ++ [some i])[s]? = some ((p.insertAt k i).get? (p.handle s)) := by
  rcases Nat.lt_succ_iff_lt_or_eq.mp hs with hlt | rfl
  · rw [List.getElem?_append_left (by rwa [length_slots_ofProgram]), getElem?_slots_ofProgram hlt,
      hp.get?_insertAt hlt]
  · rw [List.getElem?_append_right (Nat.le_of_eq length_slots_ofProgram), length_slots_ofProgram,
      Nat.sub_self, List.getElem?_cons_zero]
    exact congrArg some hp.get?_insertAt_nextHandle.symm

theorem getElem?_positions_insertAt (hp : p.WellFormed) (hk : k ≤ p.size)
    (hs : s < p.issued + 1) :
    (reindex ((p.insertAt k i).ids.drop k) k ((ofProgram p).positions ++ [none]))[s]? =
      some ((p.insertAt k i).position? (p.handle s)) := by
  have hq : (p.insertAt k i).WellFormed := hp.insertAt
  have hkept : s < p.issued → ((ofProgram p).positions ++ [none])[s]? =
      some (p.position? (p.handle s)) := by
    intro hlt
    rw [List.getElem?_append_left (by rwa [length_positions_ofProgram]),
      getElem?_positions_ofProgram hlt]
  apply getElem?_reindex_ids hq
  · rw [List.length_append, length_positions_ofProgram]
    rfl
  · exact hs
  · intro j hj hplace
    -- before the new instruction nothing has moved
    have hsame : p.ids[j]? = some (p.handle s) := by
      have hj' := Program.getElem?_ids_of_position? hplace
      rwa [← Program.insertIdx_ids hk, List.getElem?_insertIdx_of_lt hj] at hj'
    rw [hkept (hp.slot_lt (List.mem_of_getElem? hsame)), hp.position?_eq_some_iff.mpr hsame]
  · intro hnone
    obtain ⟨hnot, hnew⟩ := Program.mem_ids_of_insertAt (Program.position?_eq_none_iff.mp hnone)
    have hlt : s < p.issued := by
      apply (Nat.lt_succ_iff_lt_or_eq.mp hs).resolve_right
      rintro rfl
      exact hnew rfl
    rw [hkept hlt]
    exact congrArg some (Program.position?_eq_none_iff.mpr hnot)

theorem insertAt_ofProgram (hp : p.WellFormed) (hk : k ≤ p.size) :
    (ofProgram p).insertAt k i = ofProgram (p.insertAt k i) := by
  have horder : (ofProgram p).order.insertIdx k (ofProgram p).nextHandle =
      (p.insertAt k i).ids := by
    rw [nextHandle_ofProgram]
    exact Program.insertIdx_ids hk
  unfold insertAt reindexFrom alloc
  dsimp only
  rw [horder]
  apply eq_ofProgram
  · rfl
  · rfl
  · rw [List.length_append, length_slots_ofProgram]
    rfl
  · rw [length_reindex, List.length_append, length_positions_ofProgram]
    rfl
  · exact fun s hs => getElem?_slots_insertAt hp hs
  · exact fun s hs => getElem?_positions_insertAt hp hk hs

/-- At the end of the order there is nothing to reindex. -/
theorem add_eq_insertAt : a.add i = a.insertAt a.order.length i := by
  have hdrop : (a.order ++ [a.nextHandle]).drop a.order.length = [a.nextHandle] :=
    List.drop_left
  unfold add insertAt reindexFrom alloc
  simp only [List.insertIdx_length_self, hdrop, reindex]

theorem add_ofProgram (hp : p.WellFormed) : (ofProgram p).add i = ofProgram (p.add i) := by
  have hlength : (ofProgram p).order.length = p.size := Program.length_ids
  rw [add_eq_insertAt, hlength, insertAt_ofProgram hp (Nat.le_refl _)]
  rfl

end Insert

section Modify

theorem modify_ofProgram {f : Instruction → Instruction} :
    (ofProgram p).modify h f = ofProgram (p.modify h f) := by
  have hids : (p.modify h f).ids = p.ids := by
    rw [Program.ids_eq_map_slots, Program.slots_modify, Program.ids_eq_map_slots]
    rfl
  have hposition : ∀ g, (p.modify h f).position? g = p.position? g := by
    intro g
    rw [Program.position?, hids]
    rfl
  unfold modify
  split
  · rename_i htag
    have hslot : ∀ s, h.slot = s ↔ p.handle s = h := by
      intro s
      constructor
      · rintro rfl
        rw [Program.handle]
        exact congrArg (Handle.mk · _) htag.symm
      · rintro rfl
        rfl
    apply eq_ofProgram
    · rfl
    · exact hids.symm
    · rw [List.length_modify, length_slots_ofProgram]
      rfl
    · rw [length_positions_ofProgram]
      rfl
    · intro s hs
      change s < p.issued at hs
      change ((ofProgram p).slots.modify h.slot (Option.map f))[s]? =
        some ((p.modify h f).get? (p.handle s))
      rw [List.getElem?_modify, getElem?_slots_ofProgram hs, Program.get?_modify]
      simp only [hslot]
      rfl
    · intro s hs
      change s < p.issued at hs
      change (ofProgram p).positions[s]? = _
      rw [getElem?_positions_ofProgram hs]
      exact congrArg some (hposition _).symm
  · rename_i htag
    have hnot : ∀ r ∈ p.rows, p.handle r.1 ≠ h := fun r _ heq => htag (heq ▸ rfl)
    have hrows : p.rows.map (fun r => if p.handle r.1 = h then (r.1, f r.2) else r) = p.rows :=
      (List.map_congr_left fun r hr => if_neg (hnot r hr)).trans (List.map_id _)
    rw [Program.modify, hrows]

end Modify

section Remove

theorem getElem?_slots_without (hp : p.WellFormed) (hs : s < p.issued) (hh : h ∈ p.ids) :
    ((ofProgram p).slots.set h.slot none)[s]? = some ((p.without h).get? (p.handle s)) := by
  rw [hp.get?_without]
  by_cases hsame : h.slot = s
  · have heq : p.handle s = h := hsame ▸ (Program.eq_handle_of_mem hh).symm
    rw [hsame, List.getElem?_set_self (by rwa [length_slots_ofProgram]), if_pos heq]
  · have hne : p.handle s ≠ h := fun heq => hsame (heq ▸ rfl)
    rw [List.getElem?_set_ne hsame, getElem?_slots_ofProgram hs, if_neg hne]

theorem getElem?_positions_without (hp : p.WellFormed) (hs : s < p.issued)
    (hk : p.position? h = some k) :
    (reindex ((p.without h).ids.drop k) k ((ofProgram p).positions.set h.slot none))[s]? =
      some ((p.without h).position? (p.handle s)) := by
  have hq : (p.without h).WellFormed := hp.filter
  have hkept : h.slot ≠ s → ((ofProgram p).positions.set h.slot none)[s]? =
      some (p.position? (p.handle s)) := by
    intro hne
    rw [List.getElem?_set_ne hne, getElem?_positions_ofProgram hs]
  apply getElem?_reindex_ids hq
  · rw [List.length_set, length_positions_ofProgram]
    rfl
  · exact hs
  · intro j hj hplace
    -- before the removed instruction nothing has moved
    have hj' := Program.getElem?_ids_of_position? hplace
    have hother : p.handle s ≠ h := (Program.mem_ids_without.mp (List.mem_of_getElem? hj')).2
    have heq : h = p.handle h.slot :=
      Program.eq_handle_of_mem (List.mem_of_getElem? (Program.getElem?_ids_of_position? hk))
    have hne : h.slot ≠ s := fun hsame => hother (hsame ▸ heq.symm)
    rw [← hp.eraseIdx_ids hk, List.getElem?_eraseIdx_of_lt hj] at hj'
    rw [hkept hne]
    exact congrArg some (hp.position?_eq_some_iff.mpr hj')
  · intro hnone
    by_cases hsame : h.slot = s
    · rw [hsame, List.getElem?_set_self (by rwa [length_positions_ofProgram])]
    · have hother : p.handle s ≠ h := fun heq => hsame (heq ▸ rfl)
      have hnot : p.handle s ∉ p.ids := fun hmem =>
        Program.position?_eq_none_iff.mp hnone (Program.mem_ids_without.mpr ⟨hmem, hother⟩)
      rw [hkept hsame, Program.position?_eq_none_iff.mpr hnot]

theorem remove_ofProgram (hp : p.WellFormed) : (ofProgram p).remove h =
    match p.get? h with
    | some i => (ofProgram (p.without h), .ok i)
    | none => (ofProgram p, .error (.notInProgram h)) := by
  rw [remove, position?_ofProgram hp]
  cases hk : p.position? h with
  | none =>
    have hget : p.get? h = none :=
      Program.get?_eq_none_iff.mpr (Program.position?_eq_none_iff.mp hk)
    rw [hget]
  | some k =>
    have hmem : h ∈ p.ids := List.mem_of_getElem? (Program.getElem?_ids_of_position? hk)
    have heq : h = p.handle h.slot := Program.eq_handle_of_mem hmem
    have hslot : h.slot < p.issued := hp.slot_lt (heq ▸ hmem)
    have hids : (ofProgram p).order.eraseIdx k = (p.without h).ids := hp.eraseIdx_ids hk
    obtain ⟨i, hi⟩ : ∃ i, p.get? h = some i := by
      rw [← Option.isSome_iff_exists]
      exact Program.contains_iff.mpr hmem
    have hread : (ofProgram p).slots[h.slot]?.join = some i := by
      rw [getElem?_slots_ofProgram hslot, ← heq, hi]
      rfl
    dsimp only [reindexFrom]
    rw [hids, hread, hi]
    refine Prod.ext ?_ rfl
    apply eq_ofProgram
    · rfl
    · rfl
    · rw [List.length_set, length_slots_ofProgram]
      rfl
    · rw [length_reindex, List.length_set, length_positions_ofProgram]
      rfl
    · exact fun s hs => getElem?_slots_without hp hs hmem
    · exact fun s hs => getElem?_positions_without hp hs hk

end Remove

end Arena
end GotoCheck
