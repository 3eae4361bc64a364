import GotoCheck.Proofs.Arena.Passes
import GotoCheck.Proofs.Transfer

/-! Moving and copying whole arenas. Instructions are taken out of their slots one by one, added at
the other end, and then led over by the handles noted on the way. -/
namespace GotoCheck.Arena
variable {p q : Program} {h t u : Handle} {passed rest rows : List (Nat × Instruction)}
variable {slots : List (Option Instruction)} {moves : List (Handle × Handle)} {tag issued : Nat}

section Drain

theorem drain_rows (hnodup : (rows.map Prod.fst).Nodup)
    (hslots : ∀ r ∈ rows, slots[r.1]?.join = some r.2) :
    drain slots (rows.map fun r => q.handle r.1) = rows.map fun r => (q.handle r.1, r.2) := by
  induction rows generalizing slots with
  | nil => rfl
  | cons r rest ih =>
    obtain ⟨hr, hrest⟩ := List.nodup_cons.mp hnodup
    have hread : slots[(q.handle r.1).slot]?.join = some r.2 := hslots r List.mem_cons_self
    -- the slot that is emptied is none of those to come
    have hkept : ∀ r' ∈ rest, (slots.set r.1 none)[r'.1]?.join = some r'.2 := by
      intro r' hr'
      have hne : r.1 ≠ r'.1 := fun heq => hr (heq ▸ List.mem_map_of_mem (f := Prod.fst) hr')
      rw [List.getElem?_set_ne hne]
      exact hslots r' (List.mem_cons_of_mem r hr')
    rw [List.map_cons, drain, hread, List.map_cons]
    exact congrArg _ (ih hrest hkept)

/-- What is taken out of an arena is what it lists. -/
theorem drain_ofProgram (hq : q.WellFormed) :
    drain (ofProgram q).slots (ofProgram q).order = q.listing := by
  apply drain_rows hq.nodup
  intro r hr
  rw [getElem?_slots_ofProgram (hq.issued r.1 (List.mem_map_of_mem hr)),
    hq.get?_eq_some_iff.mpr hr]
  rfl

end Drain

section Receive

/-- The program after further instructions are added. -/
def received (p : Program) (is : List Instruction) : Program :=
  { p with
    issued := p.issued + is.length
    rows := p.rows ++ (is.zipIdx p.issued).map fun r => (r.2, r.1) }

theorem received_cons {i : Instruction} {is : List Instruction} :
    received (p.add i) is = received p (i :: is) := by
  unfold received
  rw [Program.rows_add, List.append_assoc, List.zipIdx_cons, List.length_cons,
    Nat.add_comm is.length, ← Nat.add_assoc]
  rfl

theorem receive_ofProgram (hp : p.WellFormed) {items : List (Handle × Instruction)} :
    (ofProgram p).receive items = (ofProgram (received p (items.map Prod.snd)),
      ((items.map Prod.fst).zipIdx p.issued).map fun m => (m.1, p.handle m.2)) := by
  induction items generalizing p with
  | nil =>
    rw [receive, received, List.map_nil, List.zipIdx_nil, List.map_nil, List.append_nil]
    rfl
  | cons e rest ih =>
    obtain ⟨h, i⟩ := e
    have hstep : p.add i = p.insertAt p.size i := rfl
    rw [receive, add_ofProgram hp, ih (hstep ▸ hp.insertAt), nextHandle_ofProgram, List.map_cons,
      received_cons, List.map_cons, List.zipIdx_cons, List.map_cons]
    rfl

end Receive

section Images

theorem imageOf_eq_some_iff (hmoves : (moves.map Prod.fst).Nodup) :
    imageOf moves t = some u ↔ (t, u) ∈ moves := by
  rw [imageOf, List.findRev?_eq_find?_reverse, Option.map_eq_some_iff]
  constructor
  · intro hx
    obtain ⟨m, hm, rfl⟩ := hx
    have ht : m.1 = t := by simpa using List.find?_some hm
    rw [← ht]
    exact List.mem_reverse.mp (List.mem_of_find?_eq_some hm)
  · intro hmem
    have hsome : (moves.reverse.find? fun m => m.1 == t).isSome := by
      rw [List.find?_isSome]
      exact ⟨(t, u), List.mem_reverse.mpr hmem, beq_self_eq_true t⟩
    obtain ⟨m, hm⟩ := Option.isSome_iff_exists.mp hsome
    have ht : m.1 = t := by simpa using List.find?_some hm
    -- no handle moves twice
    have hsame : m = (t, u) := List.inj_on_of_nodup_map hmoves
      (List.mem_reverse.mp (List.mem_of_find?_eq_some hm)) hmem ht
    exact ⟨m, hm, congrArg Prod.snd hsame⟩

theorem imageOf_ids (hq : q.WellFormed) :
    imageOf ((q.ids.zipIdx issued).map fun m => (m.1, ⟨tag, m.2⟩)) = q.moved tag issued := by
  have hkeys : (((q.ids.zipIdx issued).map fun m =>
      (m.1, Handle.mk tag m.2)).map Prod.fst).Nodup := by
    rw [List.map_map]
    exact (List.zipIdx_map_fst issued q.ids).symm ▸ hq.ids_nodup
  funext t
  apply Option.ext
  intro u
  rw [imageOf_eq_some_iff hkeys, Program.moved, Option.map_eq_some_iff, List.mem_map]
  constructor
  · intro hx
    obtain ⟨⟨x, s⟩, hx, heq⟩ := hx
    obtain ⟨hle, hid⟩ := List.mk_mem_zipIdx_iff_le_and_getElem?_sub.mp hx
    cases heq
    exact ⟨s - issued, hq.position?_eq_some_iff.mpr hid, by rw [Nat.add_sub_cancel' hle]⟩
  · intro hx
    obtain ⟨k, hk, rfl⟩ := hx
    have hid := Program.getElem?_ids_of_position? hk
    exact ⟨(t, issued + k), List.mk_mem_zipIdx_iff_le_and_getElem?_sub.mpr
      ⟨Nat.le_add_right _ _, by rwa [Nat.add_sub_cancel_left]⟩, rfl⟩

end Images

section Remap
variable {image : Handle → Option Handle}

theorem remap_ofProgram (hp : p.WellFormed) (hrows : p.rows = passed ++ rest) :
    (ofProgram p).remap image (rest.map fun r => p.handle r.1) =
      (ofProgram { p with rows := passed ++ (Program.retargetRows image rest).1 },
        (Program.retargetRows image rest).2) := by
  induction rest generalizing p passed with
  | nil => rw [Program.retargetRows, ← hrows, List.map_nil, remap]
  | cons r rest ih =>
    obtain ⟨slot, i⟩ := r
    have hget : (ofProgram p).get? (p.handle slot) = some i :=
      (get?_ofProgram hp).trans (hp.get?_of_split hrows)
    rw [List.map_cons, remap, hget, Program.retargetRows]
    dsimp only
    cases i.retarget image with
    | error e =>
      dsimp only
      rw [← hrows]
    | ok j =>
      have hq : ({ p with rows := passed ++ (slot, j) :: rest } : Program).WellFormed :=
        hp.replace hrows
      have hsplit : passed ++ (slot, j) :: rest = (passed ++ [(slot, j)]) ++ rest := by
        rw [List.append_assoc]
        rfl
      dsimp only
      rw [modify_ofProgram, hp.modify_middle hrows]
      refine (ih hq hsplit).trans ?_
      rw [List.append_assoc]
      rfl

end Remap

section Whole

theorem transferRows_eq : q.transferRows tag issued = Program.retargetRows (q.moved tag issued)
    ((q.instructions.zipIdx issued).map fun r => (r.2, r.1)) := rfl

/-- Leading jumps over keeps a program well-formed. -/
theorem wellFormed_retargetRows (image : Handle → Option Handle) (hp : p.WellFormed)
    (hrows : p.rows = passed ++ rest) :
    ({ p with rows := passed ++ (Program.retargetRows image rest).1 } : Program).WellFormed := by
  refine hp.of_slots ?_ rfl
  rw [Program.slots, Program.slots, hrows, List.map_append, Program.map_fst_retargetRows,
    List.map_append]

theorem wellFormed_received (hp : p.WellFormed) {is : List Instruction} :
    (received p is).WellFormed := by
  induction is generalizing p with
  | nil =>
    refine hp.of_slots ?_ rfl
    rw [received, List.zipIdx_nil, List.map_nil, List.append_nil]
    rfl
  | cons i is ih =>
    rw [← received_cons]
    exact ih hp.insertAt

theorem receive_listing (hp : p.WellFormed) : (ofProgram p).receive q.listing =
    (ofProgram (received p q.instructions), (q.ids.zipIdx p.issued).map fun m =>
      (m.1, ⟨p.tag, m.2⟩)) := by
  rw [receive_ofProgram hp, Program.map_snd_listing, Program.map_fst_listing]
  rfl

/-- The handles of what is received, told from either side. -/
theorem map_snd_moves : ((q.ids.zipIdx issued).map fun m => (m.1, Handle.mk tag m.2)).map Prod.snd =
    ((q.instructions.zipIdx issued).map fun r => (r.2, r.1)).map fun r => Handle.mk tag r.1 := by
  have hnumbers : (q.ids.zipIdx issued).map Prod.snd =
      (q.instructions.zipIdx issued).map Prod.snd := by
    rw [List.zipIdx_map_snd, List.zipIdx_map_snd, Program.length_ids, Program.length_instructions]
  have hhandles := congrArg (List.map (Handle.mk tag)) hnumbers
  rw [List.map_map, List.map_map] at hhandles
  rw [List.map_map, List.map_map]
  exact hhandles

theorem append_ofProgram (hp : p.WellFormed) (hq : q.WellFormed) :
    (ofProgram p).append (ofProgram q) = (ofProgram (p.append q).1, (p.append q).2) := by
  rw [append, drain_ofProgram hq, receive_listing hp]
  dsimp only
  rw [imageOf_ids hq, map_snd_moves]
  refine (remap_ofProgram (wellFormed_received hp) rfl).trans ?_
  rw [Program.append, transferRows_eq, received, Program.length_instructions]

theorem copy_ofProgram (hq : q.WellFormed) :
    (ofProgram q).copy tag = (ofProgram (q.copy tag).1, (q.copy tag).2) := by
  let r := received (.empty tag) q.instructions
  have hr : r.WellFormed := wellFormed_received Program.wellFormed_empty
  have hsize : r.issued = q.size := by
    change 0 + q.instructions.length = q.size
    rw [Nat.zero_add, Program.length_instructions]
  have hempty : r.rows = [] ++ r.rows := rfl
  let c : Program := ⟨tag, q.size, (q.transferRows tag 0).1⟩
  have hc : c.WellFormed := by
    have hretargeted := wellFormed_retargetRows (q.moved tag 0) hr hempty
    exact hretargeted.of_slots rfl hsize.symm
  have hremap : (ofProgram (received (.empty tag) q.instructions)).remap
      (q.moved (Program.empty tag).tag (Program.empty tag).issued)
      (ofProgram (received (.empty tag) q.instructions)).order =
      (ofProgram c, (q.transferRows tag 0).2) := by
    refine (remap_ofProgram hr hempty).trans ?_
    rw [hsize]
    rfl
  rw [copy, ← ofProgram_empty, listing_ofProgram hq, receive_listing Program.wellFormed_empty]
  dsimp only
  rw [imageOf_ids hq, hremap, Program.copy]
  cases ht : q.transferRows tag 0 with
  | mk rows outcome =>
    have hrows : c = ⟨tag, q.size, rows⟩ := by
      change (⟨tag, q.size, (q.transferRows tag 0).1⟩ : Program) = _
      rw [ht]
    cases outcome with
    | ok u =>
      dsimp only
      rw [computeTargetNumbers_ofProgram hc, hrows]
    | error e =>
      dsimp only
      rw [hrows]

end Whole

end GotoCheck.Arena
