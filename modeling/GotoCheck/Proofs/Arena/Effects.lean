import GotoCheck.Proofs.Arena.Consistent

/-! What commands do to the list of instructions. An edit changes the list where its name says and
nowhere else, and an edit that is refused changes nothing. -/
namespace GotoCheck

section Lists

/-- The instruction that an edit has to find. -/
def Edit.place? : Edit → Option Handle
  | .insertBefore h _ => some h
  | .insertAfter h _ => some h
  | .remove h => some h
  | .set h _ => some h
  | _ => none

def Instruction.dropTargetNumber (i : Instruction) : Instruction := { i with targetNumber := none }

def Instruction.dropLocationNumber (i : Instruction) : Instruction := { i with locationNumber := 0 }

def Instruction.dropLoopNumber (i : Instruction) : Instruction := { i with loopNumber := 0 }

/-- What to leave out of an instruction for an edit that numbers to change nothing. -/
def Edit.blur? : Edit → Option (Instruction → Instruction)
  | .computeTargetNumbers => some Instruction.dropTargetNumber
  | .update => some fun i => i.dropTargetNumber.dropLocationNumber
  | .numberLocations _ => some Instruction.dropLocationNumber
  | .numberLoops _ => some Instruction.dropLoopNumber
  | _ => none

/-- What an edit makes of a list of instructions and what it answers, if the handle `fresh` is the
next to be given out. Whatever stands in `before` and `behind` stays as it is. -/
inductive Edited (fresh : Handle) : List (Handle × Instruction) → Edit →
    List (Handle × Instruction) → Reply → Prop
  | add {before : List (Handle × Instruction)} {i : Instruction} :
      Edited fresh before (.add i) (before ++ [(fresh, i)]) (.issued fresh)
  | insertBefore {before behind : List (Handle × Instruction)} {h : Handle} {i j : Instruction} :
      Edited fresh (before ++ (h, j) :: behind) (.insertBefore h i)
        (before ++ (fresh, i) :: (h, j) :: behind) (.issued fresh)
  | insertAfter {before behind : List (Handle × Instruction)} {h : Handle} {i j : Instruction} :
      Edited fresh (before ++ (h, j) :: behind) (.insertAfter h i)
        (before ++ (h, j) :: (fresh, i) :: behind) (.issued fresh)
  | remove {before behind : List (Handle × Instruction)} {h : Handle} {j : Instruction} :
      Edited fresh (before ++ (h, j) :: behind) (.remove h) (before ++ behind) (.removed j)
  | set {before behind : List (Handle × Instruction)} {h : Handle} {i j : Instruction} :
      Edited fresh (before ++ (h, j) :: behind) (.set h i) (before ++ (h, i) :: behind) .done
  | refused {list : List (Handle × Instruction)} {change : Edit} {h : Handle} :
      change.place? = some h → h ∉ list.map Prod.fst →
      Edited fresh list change list (.failed (.notInProgram h))
  | numbered {list list' : List (Handle × Instruction)} {change : Edit} {reply : Reply}
      {blur : Instruction → Instruction} : change.blur? = some blur →
      list'.map (fun e => (e.1, blur e.2)) = list.map (fun e => (e.1, blur e.2)) →
      Edited fresh list change list' reply

end Lists

namespace Program
variable {p q : Program} {h : Handle} {i : Instruction} {k tag issued start : Nat}
variable {blur : Instruction → Instruction}

theorem listing_of_rows {passed rest : List (Nat × Instruction)}
    (hrows : p.rows = passed ++ rest) : p.listing =
      (passed.map fun r => (p.handle r.1, r.2)) ++ rest.map fun r => (p.handle r.1, r.2) := by
  rw [listing, hrows, List.map_append]

section Places

theorem split_of_position? (hk : p.position? h = some k) : ∃ passed j rest,
    p.rows = passed ++ (h.slot, j) :: rest ∧ passed.length = k ∧ p.handle h.slot = h := by
  have hid := getElem?_ids_of_position? hk
  have heq := eq_handle_of_mem (List.mem_of_getElem? hid)
  rw [getElem?_ids] at hid
  obtain ⟨r, hr, rfl⟩ := Option.map_eq_some_iff.mp hid
  obtain ⟨hlt, hget⟩ := List.getElem?_eq_some_iff.mp hr
  refine ⟨p.rows.take k, r.2, p.rows.drop (k + 1), ?_, ?_, rfl⟩
  · conv_lhs => rw [← List.take_append_drop k p.rows, List.drop_eq_getElem_cons hlt, hget]
    rfl
  · rw [List.length_take, Nat.min_eq_left (Nat.le_of_lt hlt)]

theorem edited_refused {change : Edit} {fresh : Handle} (hplace : change.place? = some h)
    (hnone : p.position? h = none) :
    Edited fresh p.listing change p.listing (.failed (.notInProgram h)) := by
  apply Edited.refused hplace
  rw [map_fst_listing]
  exact position?_eq_none_iff.mp hnone

theorem edited_insertBefore : Edited p.nextHandle p.listing (.insertBefore h i)
    ((Edit.insertBefore h i).apply p).1.listing ((Edit.insertBefore h i).apply p).2 := by
  rw [Edit.apply, Program.insertBefore, locate]
  cases hk : p.position? h with
  | none => exact edited_refused rfl hk
  | some k =>
    obtain ⟨passed, j, rest, hrows, rfl, heq⟩ := split_of_position? hk
    have hnew : (p.insertAt passed.length i).rows =
        passed ++ (p.issued, i) :: (h.slot, j) :: rest := by
      rw [insertAt, hrows, List.take_left, List.drop_left]
    change Edited _ _ _ (p.insertAt passed.length i).listing _
    rw [listing_of_rows hrows, listing_of_rows hnew, List.map_cons, List.map_cons, List.map_cons]
    change Edited _ (_ ++ (p.handle h.slot, j) :: _) _
      (_ ++ (p.nextHandle, i) :: (p.handle h.slot, j) :: _) _
    rw [heq]
    exact Edited.insertBefore

theorem edited_insertAfter : Edited p.nextHandle p.listing (.insertAfter h i)
    ((Edit.insertAfter h i).apply p).1.listing ((Edit.insertAfter h i).apply p).2 := by
  rw [Edit.apply, Program.insertAfter, locate]
  cases hk : p.position? h with
  | none => exact edited_refused rfl hk
  | some k =>
    obtain ⟨passed, j, rest, hrows, rfl, heq⟩ := split_of_position? hk
    have hnew : (p.insertAt (passed.length + 1) i).rows =
        passed ++ (h.slot, j) :: (p.issued, i) :: rest := by
      rw [insertAt, hrows, List.take_length_add_append, List.drop_length_add_append,
        List.append_assoc]
      rfl
    change Edited _ _ _ (p.insertAt (passed.length + 1) i).listing _
    rw [listing_of_rows hrows, listing_of_rows hnew, List.map_cons, List.map_cons, List.map_cons]
    change Edited _ (_ ++ (p.handle h.slot, j) :: _) _
      (_ ++ (p.handle h.slot, j) :: (p.nextHandle, i) :: _) _
    rw [heq]
    exact Edited.insertAfter

theorem WellFormed.edited_remove (hp : p.WellFormed) : Edited p.nextHandle p.listing (.remove h)
    ((Edit.remove h).apply p).1.listing ((Edit.remove h).apply p).2 := by
  rw [Edit.apply, Program.remove]
  cases hk : p.position? h with
  | none =>
    rw [get?_eq_none_iff.mpr (position?_eq_none_iff.mp hk)]
    exact edited_refused rfl hk
  | some k =>
    obtain ⟨passed, j, rest, hrows, -, heq⟩ := split_of_position? hk
    have hget : p.get? h = some j := heq ▸ hp.get?_of_split hrows
    have hnew : (p.without h).rows = passed ++ rest := by
      have hother : ∀ r ∈ passed ++ rest, (p.handle r.1 != h) = true := by
        intro r hr
        rw [bne_iff_ne, ← heq]
        exact hp.handle_ne_of_split hrows r hr
      rw [without, hrows, List.filter_append, List.filter_cons_of_neg (by simp [heq]),
        ← List.filter_append, List.filter_eq_self.mpr hother]
    rw [hget]
    change Edited _ _ _ (p.without h).listing _
    rw [listing_of_rows hrows, listing_of_rows hnew, List.map_cons]
    change Edited _ (_ ++ (p.handle h.slot, j) :: _) _ _ _
    rw [heq]
    exact Edited.remove

theorem WellFormed.edited_set (hp : p.WellFormed) : Edited p.nextHandle p.listing (.set h i)
    ((Edit.set h i).apply p).1.listing ((Edit.set h i).apply p).2 := by
  rw [Edit.apply, Program.set]
  cases hk : p.position? h with
  | none =>
    have hnot : ¬p.contains h := by
      rw [contains_iff]
      exact position?_eq_none_iff.mp hk
    rw [if_neg hnot]
    exact edited_refused rfl hk
  | some k =>
    obtain ⟨passed, j, rest, hrows, -, heq⟩ := split_of_position? hk
    have hmem : p.contains h := by
      rw [contains_iff]
      exact List.mem_of_getElem? (getElem?_ids_of_position? hk)
    have hmodify := hp.modify_middle (f := fun _ => i) hrows
    rw [heq] at hmodify
    have hnew : (p.modify h fun _ => i).rows = passed ++ (h.slot, i) :: rest := by
      rw [hmodify]
    rw [if_pos hmem]
    change Edited _ _ _ (p.modify h fun _ => i).listing _
    rw [listing_of_rows hrows, listing_of_rows hnew, List.map_cons, List.map_cons]
    change Edited _ (_ ++ (p.handle h.slot, j) :: _) _ (_ ++ (p.handle h.slot, i) :: _) _
    rw [heq]
    exact Edited.set

theorem edited_add : Edited p.nextHandle p.listing (.add i) (p.add i).listing
    (.issued p.nextHandle) := by
  rw [listing_of_rows rows_add]
  exact Edited.add

end Places

section Numbers

/-- The same instructions under the same handles, but for what `blur` takes away. -/
structure Renumbered (blur : Instruction → Instruction) (p q : Program) : Prop where
  tag : q.tag = p.tag
  rows : q.rows.map (fun r => (r.1, blur r.2)) = p.rows.map fun r => (r.1, blur r.2)

theorem Renumbered.trans {r : Program} (hpq : Renumbered blur p q) (hqr : Renumbered blur q r) :
    Renumbered blur p r where
  tag := hqr.tag.trans hpq.tag
  rows := hqr.rows.trans hpq.rows

theorem Renumbered.listing (hpq : Renumbered blur p q) :
    q.listing.map (fun e => (e.1, blur e.2)) = p.listing.map fun e => (e.1, blur e.2) := by
  have hhandles := congrArg (List.map fun r : Nat × Instruction => (p.handle r.1, r.2)) hpq.rows
  rw [List.map_map, List.map_map] at hhandles
  have htag : ∀ s, q.handle s = p.handle s := by
    intro s
    rw [handle, hpq.tag]
    rfl
  rw [Program.listing, Program.listing, List.map_map, List.map_map]
  simp only [htag, Function.comp_def] at hhandles ⊢
  exact hhandles

theorem renumbered_numberTargets (hblur : ∀ (i : Instruction) n,
    blur { i with targetNumber := n } = blur i) : Renumbered blur p p.numberTargets where
  tag := rfl
  rows := map_rows_numberTargets fun slot i n => congrArg (Prod.mk slot) (hblur i n)

theorem renumbered_numberLocations (hblur : ∀ (i : Instruction) n,
    blur { i with locationNumber := n } = blur i) :
    Renumbered blur p (p.numberLocations start) where
  tag := rfl
  rows := map_rows_numberLocations fun slot i n => congrArg (Prod.mk slot) (hblur i n)

theorem renumbered_modify {f : Instruction → Instruction} (hblur : ∀ i, blur (f i) = blur i) :
    Renumbered blur p (p.modify h f) where
  tag := rfl
  rows := by
    rw [modify, List.map_map]
    apply List.map_congr_left
    intro r _
    rw [Function.comp_apply]
    split
    · rw [hblur]
    · rfl

theorem renumbered_shareLoopNumber {n : Nat} (hblur : ∀ (i : Instruction) n,
    blur { i with loopNumber := n } = blur i) : Renumbered blur p (p.shareLoopNumber h n) := by
  have hnumber : ∀ i : Instruction, blur { i with loopNumber := n } = blur i := fun i => hblur i n
  unfold shareLoopNumber
  dsimp only
  split
  · exact (renumbered_modify hnumber).trans (renumbered_modify hnumber)
  · exact renumbered_modify hnumber

theorem renumbered_numberLoops (hblur : ∀ (i : Instruction) n,
    blur { i with loopNumber := n } = blur i) : Renumbered blur p (p.numberLoops start) := by
  unfold numberLoops
  generalize p.backwardsGotos.zipIdx start = gotos
  induction gotos generalizing p with
  | nil => exact ⟨rfl, rfl⟩
  | cons b rest ih => exact (renumbered_shareLoopNumber hblur).trans ih

theorem computeTargetNumbers_fst : p.computeTargetNumbers.1 = p.numberTargets := by
  unfold computeTargetNumbers
  dsimp only
  split <;> rfl

theorem renumbered_update (htargets : ∀ (i : Instruction) n,
    blur { i with targetNumber := n } = blur i) (hlocations : ∀ (i : Instruction) n,
    blur { i with locationNumber := n } = blur i) : Renumbered blur p p.update.1 := by
  have hq : Renumbered blur p p.computeTargetNumbers.1 :=
    computeTargetNumbers_fst ▸ renumbered_numberTargets htargets
  unfold update
  split
  · rename_i q heq
    rw [heq] at hq
    exact hq.trans (renumbered_numberLocations hlocations)
  · rename_i q e heq
    rw [heq] at hq
    exact hq

end Numbers

theorem WellFormed.edited_apply (hp : p.WellFormed) (change : Edit) :
    Edited p.nextHandle p.listing change (change.apply p).1.listing (change.apply p).2 := by
  cases change with
  | add i => exact edited_add
  | insertBefore h i => exact edited_insertBefore
  | insertAfter h i => exact edited_insertAfter
  | remove h => exact hp.edited_remove
  | set h i => exact hp.edited_set
  | computeTargetNumbers =>
    have hsame : Renumbered Instruction.dropTargetNumber p p.computeTargetNumbers.1 :=
      computeTargetNumbers_fst ▸ renumbered_numberTargets fun _ _ => rfl
    exact Edited.numbered rfl hsame.listing
  | update =>
    have hsame : Renumbered (fun i => i.dropTargetNumber.dropLocationNumber) p p.update.1 :=
      renumbered_update (fun _ _ => rfl) fun _ _ => rfl
    exact Edited.numbered rfl hsame.listing
  | numberLocations start =>
    have hsame : Renumbered Instruction.dropLocationNumber p (p.numberLocations start) :=
      renumbered_numberLocations fun _ _ => rfl
    exact Edited.numbered rfl hsame.listing
  | numberLoops start =>
    have hsame : Renumbered Instruction.dropLoopNumber p (p.numberLoops start) :=
      renumbered_numberLoops fun _ _ => rfl
    exact Edited.numbered rfl hsame.listing

end Program
end GotoCheck
