import GotoCheck.Proofs.LoopNumbers
import GotoCheck.Proofs.LoopControl

/-! Heads and their back edges. A back edge and its head are given one number, and both keep it
unless a later jump leads to one of them; then their numbers differ. -/
namespace GotoCheck

namespace Program
variable {p q body : Program} {b c h u : Handle} {i j : Instruction} {k l m n start : Nat}

/-- Every back edge has one target. -/
def SingleTargets (body : Program) : Prop :=
  ∀ k i, body.IsBackEdge k → body.instructions[k]? = some i → i.targets.length = 1

section Places

theorem singleTargets_of_forall (hall : ∀ i ∈ body.instructions, i.isGoto → i.targets.length = 1) :
    body.SingleTargets := by
  rintro k i ⟨-, -, t, -, hjump⟩ hi
  exact hall i (List.mem_of_getElem? hi) ((jumpsTo_iff_of_getElem? hi).mp hjump).1

/-- Back edges are counted in the order of their places. -/
theorem WellFormed.backEdge_lt_iff (hp : p.WellFormed) (hm : p.backwardsGotos[m]? = some b)
    (hn : p.backwardsGotos[n]? = some c) (hk : p.ids[k]? = some b) (hl : p.ids[l]? = some c) :
    m < n ↔ k < l := by
  have hids : p.ids.Pairwise fun a d =>
      ∀ k l : Nat, p.ids[k]? = some a → p.ids[l]? = some d → k < l := by
    rw [List.pairwise_iff_getElem]
    intro x y hx hy hxy k l hk hl
    rw [hp.place_inj hk (List.getElem?_eq_getElem hx),
      hp.place_inj hl (List.getElem?_eq_getElem hy)]
    exact hxy
  have hlt : ∀ {m n k l : Nat} {b c : Handle}, p.backwardsGotos[m]? = some b →
      p.backwardsGotos[n]? = some c → p.ids[k]? = some b → p.ids[l]? = some c → m < n → k < l := by
    intro m n k l b c hm hn hk hl hmn
    obtain ⟨hm', rfl⟩ := List.getElem?_eq_some_iff.mp hm
    obtain ⟨hn', rfl⟩ := List.getElem?_eq_some_iff.mp hn
    exact List.pairwise_iff_getElem.mp (hids.filter _) m n hm' hn' hmn k l hk hl
  refine ⟨hlt hm hn hk hl, fun hkl => ?_⟩
  rcases Nat.lt_trichotomy m n with hmn | rfl | hnm
  · exact hmn
  · rw [hm] at hn
    cases hn
    exact absurd (hp.place_inj hk hl) (Nat.ne_of_lt hkl)
  · exact absurd (hlt hn hm hl hk hnm) (Nat.lt_asymm hkl)

theorem Located.exists_backwardsGoto (hbody : body.Located) (hk : body.ids[k]? = some b)
    (hback : body.IsBackEdge k) : ∃ m : Nat, body.backwardsGotos[m]? = some b := by
  obtain ⟨i, hi⟩ := exists_instruction hk
  have hgoto := (hbody.isBackwardsGoto_iff hk hi).mpr hback
  exact List.mem_iff_getElem?.mp (List.mem_filter.mpr ⟨List.mem_of_getElem? hk, hgoto⟩)

theorem Located.exists_place_backwardsGoto (hbody : body.Located)
    (hm : body.backwardsGotos[m]? = some b) :
    ∃ k : Nat, body.ids[k]? = some b ∧ body.IsBackEdge k := by
  obtain ⟨hmem, hgoto⟩ := List.mem_filter.mp (List.mem_of_getElem? hm)
  obtain ⟨k, hk⟩ := List.mem_iff_getElem?.mp hmem
  obtain ⟨i, hi⟩ := exists_instruction hk
  exact ⟨k, hk, (hbody.isBackwardsGoto_iff hk hi).mp hgoto⟩

theorem SingleTargets.exists_head (hsingle : body.SingleTargets) (hback : body.IsBackEdge k)
    (hi : body.instructions[k]? = some i) :
    ∃ h, i.targets = [h] ∧ ∀ t, body.JumpsTo k t ↔ t = h := by
  obtain ⟨-, -, u, -, hu⟩ := id hback
  obtain ⟨h, hh⟩ := List.length_eq_one_iff.mp (hsingle k i hback hi)
  have hgoto : i.isGoto := ((jumpsTo_iff_of_getElem? hi).mp hu).1
  refine ⟨h, hh, fun t => ?_⟩
  rw [jumpsTo_iff_of_getElem? hi, hh, List.mem_singleton]
  exact and_iff_right hgoto

/-- A back edge with one target jumps to no two instructions. -/
theorem SingleTargets.jumpsTo_inj (hsingle : body.SingleTargets) (hback : body.IsBackEdge k)
    (hh : body.JumpsTo k h) (hu : body.JumpsTo k u) : h = u := by
  obtain ⟨i, hi, -⟩ := id hh
  obtain ⟨c, -, hc⟩ := hsingle.exists_head hback hi
  exact ((hc h).mp hh).trans ((hc u).mp hu).symm

theorem SingleTargets.headOf?_eq_iff (hsingle : body.SingleTargets) (hbody : body.WellFormed)
    (hk : body.ids[k]? = some b) (hback : body.IsBackEdge k) :
    body.headOf? b = some h ↔ body.JumpsTo k h := by
  obtain ⟨i, hi⟩ := exists_instruction hk
  obtain ⟨c, hc, hjumps⟩ := hsingle.exists_head hback hi
  rw [headOf?, hbody.get?_eq hk, hi, Option.bind_some, hc, List.head?_cons, Option.some.injEq,
    hjumps, eq_comm]

/-- The loops at an instruction, by the places of their back edges. -/
theorem Located.mem_loopsAt_iff (hbody : body.Located) (hsingle : body.SingleTargets) :
    m ∈ body.loopsAt body.backwardsGotos h ↔ ∃ k b, body.backwardsGotos[m]? = some b ∧
      body.ids[k]? = some b ∧ body.IsBackEdge k ∧ (h = b ∨ body.JumpsTo k h) := by
  constructor
  · rintro ⟨b, hm, hends⟩
    obtain ⟨k, hk, hback⟩ := hbody.exists_place_backwardsGoto hm
    have hhead := hsingle.headOf?_eq_iff (h := h) hbody.wellFormed hk hback
    exact ⟨k, b, hm, hk, hback, hends.imp_right hhead.mp⟩
  · rintro ⟨k, b, hm, hk, hback, hends⟩
    have hhead := hsingle.headOf?_eq_iff (h := h) hbody.wellFormed hk hback
    exact ⟨b, hm, hends.imp_right hhead.mpr⟩

/-- A back edge and its head are at one loop at least. -/
theorem Located.exists_mem_loopsAt (hbody : body.Located) (hsingle : body.SingleTargets)
    (hk : body.ids[k]? = some b) (hback : body.IsBackEdge k) (hjump : body.JumpsTo k h) :
    ∃ m : Nat, body.backwardsGotos[m]? = some b ∧ m ∈ body.loopsAt body.backwardsGotos b ∧
      m ∈ body.loopsAt body.backwardsGotos h := by
  obtain ⟨m, hm⟩ := hbody.exists_backwardsGoto hk hback
  exact ⟨m, hm, (hbody.mem_loopsAt_iff hsingle).mpr ⟨k, b, hm, hk, hback, .inl rfl⟩,
    (hbody.mem_loopsAt_iff hsingle).mpr ⟨k, b, hm, hk, hback, .inr hjump⟩⟩

/-- A jump to an earlier place makes a back edge. -/
theorem JumpsTo.isBackEdge (hjump : body.JumpsTo k h) (hl : body.ids[l]? = some h)
    (hle : l ≤ k) : body.IsBackEdge k :=
  ⟨l, hle, h, hl, hjump⟩

theorem SingleTargets.place_le (hsingle : body.SingleTargets) (hbody : body.WellFormed)
    (hback : body.IsBackEdge k) (hjump : body.JumpsTo k h) (hl : body.ids[l]? = some h) :
    l ≤ k := by
  obtain ⟨l', hle, t, hl', ht⟩ := id hback
  rw [hsingle.jumpsTo_inj hback ht hjump] at hl'
  rwa [hbody.place_inj hl hl']

end Places

section Pairs

/-- A loop at an instruction is the last exactly if no jump behind its back edge leads there. -/
theorem Located.isGreatest_loopsAt_iff (hbody : body.Located) (hsingle : body.SingleTargets)
    (hm : body.backwardsGotos[m]? = some b) (hk : body.ids[k]? = some b)
    (hmem : m ∈ body.loopsAt body.backwardsGotos h) (hl : body.ids[l]? = some h) (hle : l ≤ k) :
    IsGreatest (body.loopsAt body.backwardsGotos h) m ↔ ∀ y > k, ¬body.JumpsTo y h := by
  constructor
  · intro hgreatest y hy hjump
    -- a later jump to the instruction is a back edge, and its loop comes later
    have hback := hjump.isBackEdge hl (Nat.le_trans hle (Nat.le_of_lt hy))
    obtain ⟨d, hd⟩ : ∃ d, body.ids[y]? = some d := by
      obtain ⟨i, hi, -⟩ := hjump
      exact exists_getElem?_ids (lt_size_of_getElem?_instructions hi)
    obtain ⟨z, hz⟩ := hbody.exists_backwardsGoto hd hback
    have hmz : m < z := (hbody.wellFormed.backEdge_lt_iff hm hz hk hd).mpr hy
    have hzm : z ≤ m :=
      hgreatest.2 ((hbody.mem_loopsAt_iff hsingle).mpr ⟨y, d, hz, hd, hback, .inr hjump⟩)
    exact Nat.not_lt_of_le hzm hmz
  · intro hlater
    refine ⟨hmem, fun n hn => ?_⟩
    obtain ⟨y, c, hc, hy, -, hends⟩ := (hbody.mem_loopsAt_iff hsingle).mp hn
    have hplace : y ≤ k := by
      rcases hends with rfl | hjump
      · rwa [hbody.wellFormed.place_inj hy hl]
      · exact Nat.le_of_not_lt fun hlt => hlater y hlt hjump
    apply Nat.le_of_not_lt
    intro hlt
    exact Nat.not_lt_of_le hplace ((hbody.wellFormed.backEdge_lt_iff hm hc hk hy).mp hlt)

/-- Of the loops at a back edge and at its head, the last are the same exactly if no later jump
leads to either, unless the back edge is its own head. -/
theorem Located.last_loop_eq_iff (hbody : body.Located) (hsingle : body.SingleTargets)
    (hk : body.ids[k]? = some b) (hback : body.IsBackEdge k) (hjump : body.JumpsTo k h)
    (hl : body.ids[l]? = some h) (hm : IsGreatest (body.loopsAt body.backwardsGotos b) m)
    (hn : IsGreatest (body.loopsAt body.backwardsGotos h) n) :
    m = n ↔ h = b ∨ ∀ k' > k, ¬body.JumpsTo k' b ∧ ¬body.JumpsTo k' h := by
  have hle : l ≤ k := hsingle.place_le hbody.wellFormed hback hjump hl
  obtain ⟨x, hx, hxb, hxh⟩ := hbody.exists_mem_loopsAt hsingle hk hback hjump
  have hlast {x : Nat} (hx : body.backwardsGotos[x]? = some b)
      (hxb : x ∈ body.loopsAt body.backwardsGotos b) :=
    hbody.isGreatest_loopsAt_iff hsingle hx hk hxb hk (Nat.le_refl k)
  have hlast' {x : Nat} (hx : body.backwardsGotos[x]? = some b)
      (hxh : x ∈ body.loopsAt body.backwardsGotos h) :=
    hbody.isGreatest_loopsAt_iff hsingle hx hk hxh hl hle
  constructor
  · rintro rfl
    obtain ⟨y, c, hc, hy, hback', hb⟩ := (hbody.mem_loopsAt_iff hsingle).mp hm.1
    obtain ⟨y', c', hc', hy', -, hh⟩ := (hbody.mem_loopsAt_iff hsingle).mp hn.1
    rw [hc] at hc'
    cases hc'
    rw [hbody.wellFormed.place_inj hy' hy] at hh
    rcases hb with rfl | hb
    · -- the last loop is that of the back edge itself
      exact .inr fun k' hk' => ⟨(hlast hc hm.1).mp hm k' hk', (hlast' hc hn.1).mp hn k' hk'⟩
    rcases hh with rfl | hh
    · -- it is that of the head, which is a back edge and no later one
      rcases Nat.eq_or_lt_of_le (hm.2 hxb) with rfl | hlt
      · exact .inl (Option.some.inj (hc.symm.trans hx))
      · have hkl := (hbody.wellFormed.backEdge_lt_iff hx hc hk hl).mp hlt
        exact absurd hkl (Nat.not_lt_of_le hle)
    · exact .inl (hsingle.jumpsTo_inj hback' hh hb)
  · rintro (rfl | hlater)
    · exact hm.unique hn
    · have hb := (hlast hx hxb).mpr fun y hy => (hlater y hy).1
      have hh := (hlast' hx hxh).mpr fun y hy => (hlater y hy).2
      calc m = x := hm.unique hb
        _ = n := hh.unique hn

end Pairs

section Numbers
variable (hq : p.LoopsNumbered start q)
include hq

theorem LoopsNumbered.exists_loopNumber (hi : p.instructions[k]? = some i) :
    ∃ n, q.instructions[k]? = some { i with loopNumber := n } := by
  obtain ⟨h, hh⟩ := exists_getElem?_ids (lt_size_of_getElem?_instructions hi)
  rcases hq.instructions k h i hh hi with ⟨m, -, hm⟩ | ⟨-, hsame⟩
  · exact ⟨start + m, hm⟩
  · exact ⟨i.loopNumber, hsame⟩

theorem LoopsNumbered.exists_instruction (hi : q.instructions[k]? = some i) :
    ∃ j, p.instructions[k]? = some j ∧ i = { j with loopNumber := i.loopNumber } := by
  have hlt := lt_size_of_getElem?_instructions hi
  rw [← length_ids, hq.ids, length_ids] at hlt
  obtain ⟨j, hj⟩ := exists_getElem?_instructions hlt
  obtain ⟨n, hn⟩ := hq.exists_loopNumber hj
  rw [hi] at hn
  cases hn
  exact ⟨j, hj, rfl⟩

theorem LoopsNumbered.jumpsTo_iff : q.JumpsTo k h ↔ p.JumpsTo k h := by
  constructor
  · rintro ⟨i, hi, hgoto, hh⟩
    obtain ⟨j, hj, heq⟩ := hq.exists_instruction hi
    rw [heq] at hgoto hh
    exact ⟨j, hj, hgoto, hh⟩
  · rintro ⟨i, hi, hgoto, hh⟩
    obtain ⟨n, hn⟩ := hq.exists_loopNumber hi
    exact ⟨_, hn, hgoto, hh⟩

theorem LoopsNumbered.isBackEdge_iff : q.IsBackEdge k ↔ p.IsBackEdge k := by
  simp only [IsBackEdge, hq.ids, hq.jumpsTo_iff]

theorem LoopsNumbered.singleTargets (hsingle : q.SingleTargets) : p.SingleTargets := by
  intro k i hback hi
  obtain ⟨n, hn⟩ := hq.exists_loopNumber hi
  have hlength := hsingle k { i with loopNumber := n } (hq.isBackEdge_iff.mpr hback) hn
  exact hlength

theorem LoopsNumbered.located (hp : p.Located) : q.Located where
  wellFormed := hp.wellFormed.of_slots ((ids_eq_iff hq.tag).mp hq.ids) hq.issued
  locations := by
    obtain ⟨first, hlocations⟩ := hp.locations
    refine ⟨first, fun k i hi => ?_⟩
    obtain ⟨j, hj, heq⟩ := hq.exists_instruction hi
    rw [heq]
    exact hlocations k j hj

/-- An instruction at some loop has the number of the last one. -/
theorem LoopsNumbered.loopNumber_of_mem (hk : p.ids[k]? = some h)
    (hi : q.instructions[k]? = some i) (hm : m ∈ p.loopsAt p.backwardsGotos h) :
    ∃ n, IsGreatest (p.loopsAt p.backwardsGotos h) n ∧ i.loopNumber = start + n := by
  obtain ⟨j, hj, -⟩ := hq.exists_instruction hi
  rcases hq.instructions k h j hk hj with ⟨n, hn, hsome⟩ | ⟨hempty, -⟩
  · rw [hi] at hsome
    cases hsome
    exact ⟨n, hn, rfl⟩
  · rw [hempty] at hm
    exact absurd hm (Set.notMem_empty m)

/-- Where locations count in program order, a back edge with one target and its head have the same
loop number exactly if no later jump leads to either, unless the back edge is its own head. -/
theorem LoopsNumbered.loopNumber_eq_iff (hp : p.Located) (hsingle : p.SingleTargets)
    (hk : p.ids[k]? = some b) (hback : p.IsBackEdge k) (hjump : p.JumpsTo k h)
    (hl : p.ids[l]? = some h) (hi : q.instructions[k]? = some i)
    (hj : q.instructions[l]? = some j) :
    i.loopNumber = j.loopNumber ↔ h = b ∨ ∀ k' > k, ¬p.JumpsTo k' b ∧ ¬p.JumpsTo k' h := by
  obtain ⟨x, -, hxb, hxh⟩ := hp.exists_mem_loopsAt hsingle hk hback hjump
  obtain ⟨m, hm, him⟩ := hq.loopNumber_of_mem hk hi hxb
  obtain ⟨n, hn, hjn⟩ := hq.loopNumber_of_mem hl hj hxh
  rw [← hp.last_loop_eq_iff hsingle hk hback hjump hl hm hn, him, hjn]
  exact Nat.add_left_cancel_iff

end Numbers
end Program

namespace FunctionTable
variable {t₀ t : FunctionTable} {name : String} {f : FunctionEntry} {b : Handle} {k : Nat}

theorem loopsNumbered_of_get? (ht : t.WellFormed) (hf : t.numberLoops.get? name = some f) :
    ∃ f₀, t.get? name = some f₀ ∧ f₀.body.LoopsNumbered (t.loopStart name) f.body := by
  have hname : name ∈ t.numberLoops.names := NameMap.get?_isSome_iff.mp (by
    rw [← get?, hf]
    rfl)
  rw [names_numberLoops] at hname
  obtain ⟨f₀, hf₀⟩ := Option.isSome_iff_exists.mp (NameMap.get?_isSome_iff.mpr hname)
  have hf' := get?_numberLoops ht hf₀
  rw [hf] at hf'
  cases hf'
  exact ⟨f₀, hf₀, Program.loopsNumbered_numberLoops f₀.body (t.loopStart name)⟩

/-- In an updated table with numbered loops, a back edge with one target has the loop number of its
head exactly if no later jump leads to one of the two, unless it is its own head. -/
theorem loopNumber_eq_head_iff (ht : t₀.WellFormed) (hok : t₀.update = (t, .ok ()))
    (hf : t.numberLoops.get? name = some f) (hsingle : f.body.SingleTargets)
    (hk : f.body.ids[k]? = some b) (hback : f.body.isBackwardsGoto b) :
    ∃ i h j, f.body.get? b = some i ∧ i.targets = [h] ∧ f.body.get? h = some j ∧
      (i.loopNumber = j.loopNumber ↔
        h = b ∨ ∀ k' > k, ¬f.body.JumpsTo k' b ∧ ¬f.body.JumpsTo k' h) := by
  have ht' : t.WellFormed := by
    have hupdate := ht.update
    rwa [hok] at hupdate
  obtain ⟨f₀, hf₀, hq⟩ := loopsNumbered_of_get? ht' hf
  have hbody : f₀.body.Numbered := numbered_of_update ht.bodies hok hf₀
  have hloc : f.body.Located := hq.located hbody.located
  obtain ⟨i, hi⟩ := Program.exists_instruction hk
  have hedge : f.body.IsBackEdge k := (hloc.isBackwardsGoto_iff hk hi).mp hback
  obtain ⟨h, hu, hjumps⟩ := hsingle.exists_head hedge hi
  have hjump : f.body.JumpsTo k h := (hjumps h).mpr rfl
  -- the head is there, since the update has checked the targets
  obtain ⟨l, -, hl, -, -⟩ := hbody.exists_place (hq.jumpsTo_iff.mp hjump)
  have hl' : f.body.ids[l]? = some h := by rw [hq.ids, hl]
  obtain ⟨j, hj⟩ := Program.exists_instruction hl'
  refine ⟨i, h, j, (hloc.wellFormed.get?_eq hk).trans hi, hu,
    (hloc.wellFormed.get?_eq hl').trans hj, ?_⟩
  rw [hq.ids] at hk
  simp only [hq.jumpsTo_iff]
  exact hq.loopNumber_eq_iff hbody.located (hq.singleTargets hsingle) hk
    (hq.isBackEdge_iff.mp hedge) (hq.jumpsTo_iff.mp hjump) hl hi hj

/-- `do { x++; if (x < 5) continue; } while (x < 9);` with a jump back for the `continue`. -/
def twoJumpsBack : FunctionTable :=
  let x := Samples.intVariable "c::main::x"
  let below (n : Int) := Expr.mkBinary .lt x (Samples.intConstant n)
  empty.insert Samples.mainName { body := .ofList 0 [
    .assign x (.mkBinary .add x (Samples.intConstant 1)),
    .goto (below 5) ⟨0, 0⟩,
    .goto (below 9) ⟨0, 0⟩,
    .endFunction] }

theorem wellFormed_twoJumpsBack : twoJumpsBack.WellFormed :=
  wellFormed_empty.insert Program.wellFormed_ofList

theorem update_twoJumpsBack : twoJumpsBack.update = (twoJumpsBack.update.1, .ok ()) :=
  Prod.ext rfl (by decide +kernel)

/-- No jump comes after the second jump back, so it has the number of the head. -/
theorem shared_number_of_second_jump : ∃ f i j,
    twoJumpsBack.update.1.numberLoops.get? Samples.mainName = some f ∧
    f.body.get? ⟨0, 2⟩ = some i ∧ i.targets = [⟨0, 0⟩] ∧ f.body.get? ⟨0, 0⟩ = some j ∧
    i.loopNumber = j.loopNumber := by
  obtain ⟨f, hf⟩ : ∃ f, twoJumpsBack.update.1.numberLoops.get? Samples.mainName = some f :=
    Option.isSome_iff_exists.mp (by decide +kernel)
  have hbody : (twoJumpsBack.update.1.numberLoops.get? Samples.mainName).map (fun f =>
      (f.body.ids, f.body.isBackwardsGoto ⟨0, 2⟩,
        f.body.instructions.map fun i => (i.isGoto, i.targets))) =
      some ([⟨0, 0⟩, ⟨0, 1⟩, ⟨0, 2⟩, ⟨0, 3⟩], true,
        [(false, []), (true, [⟨0, 0⟩]), (true, [⟨0, 0⟩]), (false, [])]) := by
    decide +kernel
  have htargets : ((twoJumpsBack.update.1.numberLoops.get? Samples.mainName).bind fun f =>
      f.body.get? ⟨0, 2⟩).map Instruction.targets = some [⟨0, 0⟩] := by
    decide +kernel
  simp only [hf, Option.map_some, Option.some.injEq, Prod.mk.injEq] at hbody
  obtain ⟨hids, hback, hjumps⟩ := hbody
  rw [hf, Option.bind_some] at htargets
  have hat : ∀ (k : Nat) i, f.body.instructions[k]? = some i →
      [(false, []), (true, [⟨0, 0⟩]), (true, [⟨0, 0⟩]), (false, [])][k]? =
        some (i.isGoto, i.targets) := by
    intro k i hi
    rw [← hjumps, List.getElem?_map, hi, Option.map_some]
  have hsingle : f.body.SingleTargets := by
    refine Program.singleTargets_of_forall fun i hi hgoto => ?_
    have hmem := List.mem_map_of_mem (f := fun i => (i.isGoto, i.targets)) hi
    rw [hjumps, hgoto] at hmem
    simp at hmem
    rw [hmem, List.length_singleton]
  have hnone : ∀ k' > 2, ∀ u, ¬f.body.JumpsTo k' u := by
    rintro k' hk' u ⟨i, hi, hgoto, -⟩
    have hplace := hat k' i hi
    have hlt := (List.getElem?_eq_some_iff.mp hplace).1
    have hlast : k' = 3 := by
      simp at hlt
      omega
    rw [hlast, hgoto] at hplace
    simp at hplace
  obtain ⟨i, h, j, hi, hh, hj, heq⟩ := loopNumber_eq_head_iff wellFormed_twoJumpsBack
    update_twoJumpsBack hf hsingle (k := 2) (by rw [hids]; rfl) hback
  rw [hi, Option.map_some, hh, Option.some.injEq, List.singleton_inj] at htargets
  subst htargets
  exact ⟨f, i, j, hf, hi, hh, hj, heq.mpr (.inr fun k' hk' => ⟨hnone k' hk' _, hnone k' hk' _⟩)⟩

/-- Every back edge has the loop number of the instruction it leads to. -/
def HeadsShareNumbers (t : FunctionTable) : Prop :=
  ∀ name f, t.get? name = some f → ∀ b, f.body.isBackwardsGoto b →
    ∀ i h j, f.body.get? b = some i → i.targets = [h] → f.body.get? h = some j →
      i.loopNumber = j.loopNumber

/-- Two loops with one head, which takes the number of the later one. -/
theorem first_jump_loses_number : twoJumpsBack.WellFormed ∧
    (∀ name f, twoJumpsBack.get? name = some f → f.body.SingleTargets) ∧
    twoJumpsBack.update = (twoJumpsBack.update.1, .ok ()) ∧
    ¬twoJumpsBack.update.1.numberLoops.HeadsShareNumbers := by
  refine ⟨wellFormed_twoJumpsBack, ?_, update_twoJumpsBack, ?_⟩
  · intro name f hf
    have hall : ∀ e ∈ twoJumpsBack.functions.entries,
        ∀ i ∈ e.2.body.instructions, i.isGoto → i.targets.length = 1 := by
      decide +kernel
    exact Program.singleTargets_of_forall (hall _ (NameMap.mem_of_get? hf))
  · intro hshare
    obtain ⟨f, hf⟩ : ∃ f, twoJumpsBack.update.1.numberLoops.get? Samples.mainName = some f :=
      Option.isSome_iff_exists.mp (by decide +kernel)
    have hbody : (twoJumpsBack.update.1.numberLoops.get? Samples.mainName).map (fun f =>
        (f.body.isBackwardsGoto ⟨0, 1⟩, (f.body.get? ⟨0, 1⟩).map fun i => (i.targets, i.loopNumber),
          (f.body.get? ⟨0, 0⟩).map Instruction.loopNumber)) =
        some (true, some ([⟨0, 0⟩], 0), some 1) := by
      decide +kernel
    simp only [hf, Option.map_some, Option.some.injEq, Prod.mk.injEq,
      Option.map_eq_some_iff] at hbody
    obtain ⟨hback, ⟨i, hi, htargets, hnumber⟩, j, hj, hhead⟩ := hbody
    have := hshare Samples.mainName f hf ⟨0, 1⟩ hback i ⟨0, 0⟩ j hi htargets hj
    omega

end FunctionTable
end GotoCheck
