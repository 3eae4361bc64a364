import GotoCheck.Proofs.BackEdges
import GotoCheck.Proofs.LoopControl
import GotoCheck.Proofs.ModifiedWalk

/-! Which loops are found. One for each head, closed by its last back edge, unless a back edge is at
fault; then those of the back edges before it. -/
namespace GotoCheck.LoopSearch
variable {table : FunctionTable} {function : String} {body : Program}
variable {s : LoopSearch} {l m : Loop} {loops : List Loop} {k : Nat}

/-- Why the search stops at the back edge at the place `k`: it has not one target, or its loop leads
to a function that the table lacks. A back edge to itself closes no loop. -/
inductive Fault (table : FunctionTable) (function : String) (body : Program) (k : Nat) :
    ProgramError → Prop
  | malformed {h : Handle} {i : Instruction} : body.IsBackEdge k → body.ids[k]? = some h →
      body.instructions[k]? = some i → i.targets.length ≠ 1 →
      Fault table function body k (.malformedBackEdge h i.targets.length)
  | missing {first : Nat} {head : Handle} {i : Instruction} {n : String} :
      body.Reenters k head → body.instructions[k]? = some i → i.targets = [head] →
      body.ids[first]? = some head → Called table function (body.between first k) n →
      table.get? n = none → Fault table function body k (.missingFunction n)

theorem Fault.lt_size {e : ProgramError} (h : Fault table function body k e) : k < body.size := by
  have hsome : ∃ i, body.instructions[k]? = some i := by
    cases h with
    | malformed _ _ hi _ => exact ⟨_, hi⟩
    | missing _ hi _ _ _ _ => exact ⟨_, hi⟩
  obtain ⟨i, hi⟩ := hsome
  exact Program.lt_size_of_getElem?_instructions hi

def FaultBefore (table : FunctionTable) (function : String) (body : Program) (k : Nat) : Prop :=
  ∃ j < k, ∃ e, Fault table function body j e

/-- One loop for each head of a back edge before the place `bound`, in the order of the first back
edges to them, each closed by the last. -/
structure LoopsBefore (body : Program) (bound : Nat) (loops : List Loop) : Prop where
  sound : ∀ l ∈ loops, ∃ k < bound, body.ids[k]? = some l.backEdge ∧ body.Reenters k l.head ∧
    ∀ j, k < j → j < bound → ¬body.Reenters j l.head
  complete : ∀ k < bound, ∀ t, body.Reenters k t → t ∈ loops.map Loop.head
  distinct : (loops.map Loop.head).Nodup
  ordered : (loops.map Loop.head).Pairwise fun t u =>
    ∃ k < bound, body.Reenters k t ∧ ∀ j ≤ k, ¬body.Reenters j u

section Put

theorem mem_put_iff (hdistinct : (loops.map Loop.head).Nodup) :
    m ∈ put l loops ↔ m = l ∨ m ∈ loops ∧ m.head ≠ l.head := by
  induction loops with
  | nil => simp [put]
  | cons k rest ih =>
    obtain ⟨hk, hrest⟩ := List.nodup_cons.mp hdistinct
    have hne : ∀ m ∈ rest, m.head ≠ k.head := fun m hm heq => hk (heq ▸ List.mem_map_of_mem hm)
    rw [put]
    split
    · rename_i heq
      rw [List.mem_cons, List.mem_cons]
      constructor
      · rintro (rfl | hm)
        · exact .inl rfl
        · exact .inr ⟨.inr hm, heq ▸ hne m hm⟩
      · rintro (rfl | ⟨rfl | hm, hm'⟩)
        · exact .inl rfl
        · exact absurd heq hm'
        · exact .inr hm
    · rename_i hkl
      rw [List.mem_cons, ih hrest, List.mem_cons]
      constructor
      · rintro (rfl | rfl | ⟨hm, hm'⟩)
        · exact .inr ⟨.inl rfl, hkl⟩
        · exact .inl rfl
        · exact .inr ⟨.inr hm, hm'⟩
      · rintro (rfl | ⟨rfl | hm, hm'⟩)
        · exact .inr (.inl rfl)
        · exact .inl rfl
        · exact .inr (.inr ⟨hm, hm'⟩)

/-- A loop with a known head keeps the place of the earlier one, another goes to the end. -/
theorem map_head_put : (put l loops).map Loop.head =
    if l.head ∈ loops.map Loop.head then loops.map Loop.head
    else loops.map Loop.head ++ [l.head] := by
  induction loops with
  | nil => rfl
  | cons k rest ih =>
    rw [put]
    split
    · rename_i heq
      rw [List.map_cons, List.map_cons, heq, if_pos List.mem_cons_self]
    · rename_i hne
      rw [List.map_cons, ih, List.map_cons]
      by_cases hmem : l.head ∈ rest.map Loop.head
      · rw [if_pos hmem, if_pos (List.mem_cons_of_mem _ hmem)]
      · have hnot : l.head ∉ k.head :: rest.map Loop.head := by
          intro h
          rcases List.mem_cons.mp h with heq | h
          · exact hne heq.symm
          · exact hmem h
        rw [if_neg hmem, if_neg hnot, List.cons_append]

end Put

section Steps

theorem loopsBefore_zero : LoopsBefore body 0 [] where
  sound := fun _ hl => absurd hl List.not_mem_nil
  complete := fun k hk => absurd hk (Nat.not_lt_zero k)
  distinct := List.nodup_nil
  ordered := List.Pairwise.nil

theorem LoopsBefore.ordered_succ (h : LoopsBefore body k loops) :
    (loops.map Loop.head).Pairwise fun t u =>
      ∃ q < k + 1, body.Reenters q t ∧ ∀ j ≤ q, ¬body.Reenters j u := by
  apply h.ordered.imp
  rintro t u ⟨q, hq, hx⟩
  exact ⟨q, Nat.lt_succ_of_lt hq, hx⟩

/-- A place without a back edge to another changes nothing. -/
theorem LoopsBefore.skip (h : LoopsBefore body k loops) (hk : ∀ t, ¬body.Reenters k t) :
    LoopsBefore body (k + 1) loops where
  sound := by
    intro l hl
    obtain ⟨q, hq, hid, henters, hlast⟩ := h.sound l hl
    refine ⟨q, Nat.lt_succ_of_lt hq, hid, henters, fun j hj hjk => ?_⟩
    rcases Nat.lt_succ_iff_lt_or_eq.mp hjk with hlt | rfl
    · exact hlast j hj hlt
    · exact hk l.head
  complete := by
    intro q hq t ht
    rcases Nat.lt_succ_iff_lt_or_eq.mp hq with hlt | rfl
    · exact h.complete q hlt t ht
    · exact absurd ht (hk t)
  distinct := h.distinct
  ordered := h.ordered_succ

/-- A back edge replaces the loop with its head or adds one. -/
theorem LoopsBefore.put (h : LoopsBefore body k loops) (hid : body.ids[k]? = some l.backEdge)
    (henters : body.Reenters k l.head) (honly : ∀ t, body.Reenters k t → t = l.head) :
    LoopsBefore body (k + 1) (put l loops) where
  sound := by
    intro m hm
    rcases (mem_put_iff h.distinct).mp hm with rfl | ⟨hm, hne⟩
    · exact ⟨k, Nat.lt_succ_self k, hid, henters, fun j hj hjk => absurd hjk (by omega)⟩
    · obtain ⟨q, hq, hmid, hmenters, hlast⟩ := h.sound m hm
      refine ⟨q, Nat.lt_succ_of_lt hq, hmid, hmenters, fun j hj hjk => ?_⟩
      rcases Nat.lt_succ_iff_lt_or_eq.mp hjk with hlt | rfl
      · exact hlast j hj hlt
      · exact fun hj => hne (honly m.head hj)
  complete := by
    intro q hq t ht
    have hmem : t = l.head ∨ t ∈ loops.map Loop.head := by
      rcases Nat.lt_succ_iff_lt_or_eq.mp hq with hlt | rfl
      · exact .inr (h.complete q hlt t ht)
      · exact .inl (honly t ht)
    rw [map_head_put]
    split
    · rename_i hknown
      exact hmem.elim (fun heq => heq ▸ hknown) id
    · exact List.mem_append.mpr (hmem.symm.imp_right fun heq => List.mem_singleton.mpr heq)
  distinct := by
    rw [map_head_put]
    split
    · exact h.distinct
    · rename_i hnew
      exact List.nodup_append.mpr ⟨h.distinct, List.nodup_singleton _, fun t ht u hu heq =>
        hnew (List.mem_singleton.mp hu ▸ heq ▸ ht)⟩
  ordered := by
    rw [map_head_put]
    split
    · exact h.ordered_succ
    · rename_i hnew
      refine List.pairwise_append.mpr ⟨h.ordered_succ, List.pairwise_singleton _ _, ?_⟩
      intro t ht u hu
      obtain ⟨m, hm, rfl⟩ := List.mem_map.mp ht
      obtain ⟨q, hq, -, hmenters, -⟩ := h.sound m hm
      -- no back edge so far led to the new head
      refine ⟨q, Nat.lt_succ_of_lt hq, hmenters, fun j hj hju => hnew ?_⟩
      rw [List.mem_singleton.mp hu] at hju
      exact h.complete j (Nat.lt_of_le_of_lt hj hq) l.head hju

end Steps

section Scan

/-- How the search ends: without a fault, or at the first. The loops are those of the back edges
that were passed, if there were none at the start. -/
def Searched (table : FunctionTable) (function : String) (body : Program) (fresh : Prop) :
    LoopSearch × Except ProgramError Unit → Prop
  | (s, .ok ()) => ¬FaultBefore table function body body.size ∧
      (fresh → LoopsBefore body body.size s.loops)
  | (s, .error e) => ∃ k, Fault table function body k e ∧ ¬FaultBefore table function body k ∧
      (fresh → LoopsBefore body k s.loops)

theorem not_faultBefore_succ (h : ¬FaultBefore table function body k)
    (hk : ∀ e, ¬Fault table function body k e) : ¬FaultBefore table function body (k + 1) := by
  rintro ⟨j, hj, e, he⟩
  rcases Nat.lt_succ_iff_lt_or_eq.mp hj with hlt | rfl
  · exact h ⟨j, hlt, e, he⟩
  · exact hk e he

/-- Cutting out the loop of a back edge fails exactly if the table lacks a function it leads to. -/
theorem addLoop_cases (table : FunctionTable) (function : String) (s : LoopSearch) {first : Nat}
    {head backEdge : Handle} (hbody : body.WellFormed) (hfirst : body.ids[first]? = some head)
    (hk : body.ids[k]? = some backEdge) :
    (∃ l, s.addLoop table function body head backEdge = (⟨put l s.loops, s.nextTag + 1⟩, .ok ()) ∧
        l.head = head ∧ l.backEdge = backEdge ∧
        ∀ n, Called table function (body.between first k) n → (table.get? n).isSome) ∨
      ∃ n, s.addLoop table function body head backEdge =
          ({ s with nextTag := s.nextTag + 1 }, .error (.missingFunction n)) ∧
        Called table function (body.between first k) n ∧ table.get? n = none := by
  have hspan : Loop.span body head backEdge = .ok ⟨first, k⟩ :=
    Loop.span_eq_ok_iff.mpr ⟨hbody.position?_eq_some_iff.mpr hfirst,
      hbody.position?_eq_some_iff.mpr hk⟩
  unfold addLoop
  rw [hspan]
  dsimp only
  cases hl : Loop.extract table function body head backEdge ⟨first, k⟩ s.nextTag with
  | ok l =>
    obtain ⟨walk, -, hl'⟩ := Loop.extract_eq_ok_iff.mp hl
    refine .inl ⟨l, rfl, ?_, ?_, (Loop.variablesOf_of_extract hl).declared⟩
    · rw [← hl']
      rfl
    · rw [← hl']
      rfl
  | error e =>
    obtain ⟨n, rfl, hcalled, hnone⟩ := Loop.missing_of_extract hl
    exact .inr ⟨n, rfl, hcalled, hnone⟩

/-- Behind the last place there is no back edge. -/
theorem LoopsBefore.atEnd (h : LoopsBefore body k loops) (hsize : body.size ≤ k) :
    LoopsBefore body body.size loops := by
  have hplace : ∀ j t, body.Reenters j t → j < body.size := by
    intro j t ht
    obtain ⟨i, hi, -⟩ := ht.jumpsTo
    exact Program.lt_size_of_getElem?_instructions hi
  refine ⟨?_, ?_, h.distinct, ?_⟩
  · intro l hl
    obtain ⟨q, -, hid, henters, hlast⟩ := h.sound l hl
    exact ⟨q, hplace q _ henters, hid, henters,
      fun j hj hjk => hlast j hj (Nat.lt_of_lt_of_le hjk hsize)⟩
  · exact fun q hq t ht => h.complete q (Nat.lt_of_lt_of_le hq hsize) t ht
  · apply h.ordered.imp
    rintro t u ⟨q, -, ht, hu⟩
    exact ⟨q, hplace q t ht, ht, hu⟩

/-- A back edge is not at fault if it has one target and its loop leads to declared functions. -/
theorem not_fault_of_declared {first : Nat} {head : Handle} {i : Instruction}
    (hbody : body.WellFormed) (hi : body.instructions[k]? = some i) (htargets : i.targets = [head])
    (hfirst : body.ids[first]? = some head)
    (hdeclared : ∀ n, Called table function (body.between first k) n → (table.get? n).isSome)
    (e : ProgramError) : ¬Fault table function body k e := by
  intro he
  cases he with
  | malformed _ _ hi' hlength =>
    rw [hi] at hi'
    cases hi'
    rw [htargets] at hlength
    exact hlength rfl
  | @missing first' head' i' n henters hi' htargets' hfirst' hcalled hmissing =>
    rw [hi] at hi'
    cases hi'
    rw [htargets] at htargets'
    cases htargets'
    rw [hbody.place_inj hfirst' hfirst] at hcalled
    have hsome := hdeclared n hcalled
    rw [hmissing] at hsome
    cases hsome

/-- Nor is what closes no loop. -/
theorem not_fault_of_no_loop {i : Instruction} (hi : body.instructions[k]? = some i)
    (hnone : ∀ t, ¬body.Reenters k t) (hone : body.IsBackEdge k → i.targets.length = 1)
    (e : ProgramError) : ¬Fault table function body k e := by
  intro he
  cases he with
  | malformed hedge _ hi' hlength =>
    rw [hi] at hi'
    cases hi'
    exact hlength (hone hedge)
  | missing henters => exact hnone _ henters

theorem scan_searched {fresh : Prop} {rest : List (Nat × Instruction)} {seen : List (Nat × Handle)}
    (hbody : body.Numbered) (hrest : body.rows.drop k = rest) (hseen : Noted body k seen)
    (hfault : ¬FaultBefore table function body k)
    (hloops : fresh → LoopsBefore body k s.loops) :
    Searched table function body fresh (scan table function body rest seen s) := by
  induction rest generalizing k seen s with
  | nil =>
    have hsize : body.size ≤ k := List.drop_eq_nil_iff.mp hrest
    refine ⟨?_, fun hfresh => (hloops hfresh).atEnd hsize⟩
    rintro ⟨j, hj, e, he⟩
    exact hfault ⟨j, Nat.lt_of_lt_of_le hj hsize, e, he⟩
  | cons r rest ih =>
    obtain ⟨slot, i⟩ := r
    obtain ⟨hk, hrest⟩ := row_of_drop hrest
    obtain ⟨hid, hi⟩ := Program.getElem?_rows_eq_some_iff.mp hk
    have hseen := hseen.note hk
    unfold scan
    dsimp only
    rcases loopHead?_cases hbody hseen hk with ⟨hedge, hlength, heq⟩ |
      ⟨first, hlt, head, hfirst, htargets, henters, heq⟩ | ⟨hnone, hone, heq⟩
    · rw [heq]
      exact ⟨k, .malformed hedge hid hi hlength, hfault, hloops⟩
    · rw [heq]
      have honly : ∀ t, body.Reenters k t → t = head := by
        intro t ht
        obtain ⟨-, hmem⟩ := (Program.jumpsTo_iff_of_getElem? hi).mp ht.jumpsTo
        rw [htargets] at hmem
        exact List.mem_singleton.mp hmem
      rcases addLoop_cases table function s hbody.wellFormed hfirst hid with
        ⟨l, hl, rfl, hback, hdeclared⟩ | ⟨n, hl, hcalled, hmissing⟩
      · dsimp only
        rw [hl]
        have hnofault := not_fault_of_declared hbody.wellFormed hi htargets hfirst hdeclared
        exact ih hrest hseen (not_faultBefore_succ hfault hnofault) fun hfresh =>
          (hloops hfresh).put (hback ▸ hid) henters honly
      · dsimp only
        rw [hl]
        exact ⟨k, .missing henters hi htargets hfirst hcalled hmissing, hfault, hloops⟩
    · rw [heq]
      exact ih hrest hseen (not_faultBefore_succ hfault (not_fault_of_no_loop hi hnone hone))
        fun hfresh => (hloops hfresh).skip hnone

end Scan

section Find
variable {t₀ t : FunctionTable} {f : FunctionEntry}

theorem findLoops_searched (hf : t.get? function = some f) (hbody : f.body.Numbered)
    (s : LoopSearch) :
    Searched t function f.body (s.loops = []) (s.findLoops t function) := by
  unfold findLoops
  rw [hf]
  apply scan_searched hbody (k := 0) rfl noted_nil
  · rintro ⟨j, hj, -⟩
    exact Nat.not_lt_zero j hj
  · intro hfresh
    rw [hfresh]
    exact loopsBefore_zero

/-- A search with a fault in the body ends at the first. -/
theorem Searched.at_fault {fresh : Prop} {r : LoopSearch × Except ProgramError Unit}
    (h : Searched table function body fresh r) (hfault : ∃ e, Fault table function body k e)
    (hfirst : ¬FaultBefore table function body k) :
    (∃ e, Fault table function body k e ∧ r.2 = .error e) ∧
      (fresh → LoopsBefore body k r.1.loops) := by
  obtain ⟨e', he'⟩ := hfault
  obtain ⟨s, outcome⟩ := r
  cases outcome with
  | ok u => exact absurd ⟨k, he'.lt_size, e', he'⟩ h.1
  | error e =>
    obtain ⟨j, hj, hbefore, hloops⟩ := h
    -- there is only one first fault
    have hsame : k = j := by
      rcases Nat.lt_trichotomy k j with hlt | heq | hgt
      · exact absurd ⟨k, hlt, e', he'⟩ hbefore
      · exact heq
      · exact absurd ⟨j, hgt, e, hj⟩ hfirst
    subst hsame
    exact ⟨⟨e, hj, rfl⟩, hloops⟩

/-- A search through a numbered function ends well exactly if no back edge is at fault, and
otherwise with the fault of the first that is; no other error comes of it. A fresh search has then
found one loop for each head of the back edges it has passed. -/
theorem findLoops_finds (hwf : ∀ n f₀, t₀.get? n = some f₀ → f₀.body.WellFormed)
    (hok : t₀.update = (t, .ok ())) (hf : t.get? function = some f) (s : LoopSearch) :
    (∀ e, (s.findLoops t function).2 = .error e → (∀ n, e ≠ .unknownLoopHead n) ∧
      (∀ h, e ≠ .notInProgram h) ∧ (∀ h, e ≠ .danglingTarget h) ∧
        ∀ h u, e ≠ .unnumberedTarget h u) ∧
    ((s.findLoops t function).2 = .ok () ↔ ∀ k e, ¬Fault t function f.body k e) ∧
    (∀ k, (∃ e, Fault t function f.body k e) → ¬FaultBefore t function f.body k →
      (∃ e, Fault t function f.body k e ∧ (s.findLoops t function).2 = .error e) ∧
        (s.loops = [] → LoopsBefore f.body k (s.findLoops t function).1.loops)) ∧
    ((s.findLoops t function).2 = .ok () → s.loops = [] →
      LoopsBefore f.body f.body.size (s.findLoops t function).1.loops) := by
  have hbody := FunctionTable.numbered_of_update hwf hok hf
  have hsearched := findLoops_searched hf hbody s
  have hends := fun k => hsearched.at_fault (k := k)
  cases hr : s.findLoops t function with
  | mk s' outcome =>
    rw [hr] at hsearched hends
    cases outcome with
    | ok u =>
      obtain ⟨hfirst, hloops⟩ := hsearched
      have hnone : ∀ k e, ¬Fault t function f.body k e := fun k e he =>
        hfirst ⟨k, he.lt_size, e, he⟩
      exact ⟨nofun, ⟨fun _ => hnone, fun _ => rfl⟩, hends, fun _ => hloops⟩
    | error e =>
      obtain ⟨k, hk, -⟩ := hsearched
      refine ⟨?_, ⟨nofun, fun h => absurd hk (h k e)⟩, hends, nofun⟩
      intro e' he'
      cases he'
      cases hk with
      | malformed => exact ⟨nofun, nofun, nofun, nofun⟩
      | missing => exact ⟨nofun, nofun, nofun, nofun⟩

/-- A jump to itself, then two back edges to one head. -/
def sharedHead : List (String × Program) :=
  [(Samples.mainName, Samples.ofShapes 0 [.goto 0, .assign, .goto 1, .skip, .goto 1])]

/-- There is one loop of them, from the place 1 up to the place 4. -/
theorem heads_of_sharedHead : ∃ f, (Samples.tableOf sharedHead).get? Samples.mainName = some f ∧
    (∀ k e, ¬Fault (Samples.tableOf sharedHead) Samples.mainName f.body k e) ∧
    ∃ loops, ((start 1).findLoops (Samples.tableOf sharedHead) Samples.mainName).1.loops = loops ∧
      LoopsBefore f.body f.body.size loops ∧
      loops.map (fun l => (f.body.position? l.head, f.body.position? l.backEdge)) =
        [(some 1, some 4)] := by
  have hwf : (FunctionTable.ofBodies sharedHead).WellFormed :=
    FunctionTable.wellFormed_ofBodies (by decide +kernel)
  have hok : (FunctionTable.ofBodies sharedHead).update = (Samples.tableOf sharedHead, .ok ()) :=
    FunctionTable.update_ofBodies (by decide +kernel)
  obtain ⟨f, hf⟩ : ∃ f, (Samples.tableOf sharedHead).get? Samples.mainName = some f :=
    Option.isSome_iff_exists.mp (by decide +kernel)
  have hend : ((start 1).findLoops (Samples.tableOf sharedHead) Samples.mainName).2 = .ok () := by
    decide +kernel
  have hrun : ((Samples.tableOf sharedHead).get? Samples.mainName).map (fun f =>
      ((start 1).findLoops (Samples.tableOf sharedHead) Samples.mainName).1.loops.map
        fun l => (f.body.position? l.head, f.body.position? l.backEdge)) =
      some [(some 1, some 4)] := by
    decide +kernel
  obtain ⟨-, hok_iff, -, hloops⟩ := findLoops_finds hwf.bodies hok hf (start 1)
  rw [hf] at hrun
  exact ⟨f, hf, hok_iff.mp hend, _, rfl, hloops hend rfl, Option.some.inj hrun⟩

end Find

end GotoCheck.LoopSearch
