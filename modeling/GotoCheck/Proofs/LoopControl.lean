import GotoCheck.Proofs.LoopSearch
import GotoCheck.Proofs.LoopSlice
import GotoCheck.Proofs.TableNumbers

/-! Control in loops. It goes through the copy of a stretch as it goes through the stretch itself,
and where it leaves the stretch by a jump it comes to the end marker. -/
namespace GotoCheck

namespace Loop
variable {body : Program} {s : Span} {k : Nat} {t h : Handle} {i : Instruction} {l : Loop}

/-- Control in the copy goes where it goes in the body: jumps and steps to the next instruction
keep to the stretch or lead to the marker, a return leads to the last instruction of the loop, and
the back edge leads to the copy of the head and, if it is conditional, on to the marker. -/
structure Follows (body : Program) (s : Span) (l : Loop) : Prop where
  before : ∀ (k : Nat) (h : Handle) (i : Instruction), s.first + k < s.last →
    body.ids[s.first + k]? = some h → body.instructions[s.first + k]? = some i →
      i.isReturn = false → l.program.successors ⟨l.program.tag, k⟩ =
        (body.successors h).map (s.image body l.program.tag)
  returns : ∀ (k : Nat) (i : Instruction), s.first + k < s.last →
    body.instructions[s.first + k]? = some i → i.isReturn →
      l.program.successors ⟨l.program.tag, k⟩ = l.program.last?.toList
  backEdge : ∃ i, body.instructions[s.last]? = some i ∧
    l.program.successors ⟨l.program.tag, s.last - s.first⟩ = ⟨l.program.tag, 0⟩ ::
      if i.guard.isTrue || !s.leaves body then [] else [⟨l.program.tag, s.length⟩]

theorem SliceOf.successors_before (hslice : SliceOf body s l) (hbody : body.WellFormed)
    (hlt : s.first + k < s.last) (hlast : s.last < body.size)
    (hid : body.ids[s.first + k]? = some h) (hi : body.instructions[s.first + k]? = some i)
    (hret : i.isReturn = false) : l.program.successors ⟨l.program.tag, k⟩ =
      (body.successors h).map (s.image body l.program.tag) := by
  have hle : s.first ≤ s.last := by omega
  have hk : k + 1 < s.length := by
    unfold Span.length
    omega
  obtain ⟨n, hcopy⟩ := hslice.copies k i ((getElem?_code hle (by omega)).trans hi)
  have hsize := hslice.length_le
  -- the next instruction is still in the stretch, so it has a copy behind this one
  obtain ⟨next, hnext⟩ : ∃ next, body.ids[s.first + (k + 1)]? = some next := by
    refine ⟨_, List.getElem?_eq_getElem ?_⟩
    rw [Program.length_ids]
    omega
  have hmove : (l.program.ids[k + 1]?).toList =
      (body.ids[s.first + k + 1]?).toList.map (s.image body l.program.tag) := by
    rw [hslice.getElem?_ids (by omega), Nat.add_assoc, hnext]
    exact congrArg (fun u => [u]) (image_of_getElem? hbody hle hk hnext).symm
  rw [hslice.wellFormed.successors_eq (hslice.getElem?_ids (by omega)) hcopy,
    hbody.successors_eq hid hi, hmove]
  exact Program.leadsTo_map hret

theorem SliceOf.successors_return (hslice : SliceOf body s l) (hle : s.first ≤ s.last)
    (hk : k < s.length) (hi : body.instructions[s.first + k]? = some i) (hret : i.isReturn) :
    l.program.successors ⟨l.program.tag, k⟩ = l.program.last?.toList := by
  obtain ⟨n, hcopy⟩ := hslice.copies k i ((getElem?_code hle hk).trans hi)
  have hid := hslice.getElem?_ids (Nat.lt_of_lt_of_le hk hslice.length_le)
  rw [hslice.wellFormed.successors_eq hid hcopy]
  exact Program.leadsTo_of_isReturn hret

theorem SliceOf.successors_backEdge (hslice : SliceOf body s l) (hbody : body.WellFormed)
    (hlt : s.first < s.last) (hi : body.instructions[s.last]? = some i) (hgoto : i.isGoto)
    (htargets : i.targets = [t]) (ht : body.ids[s.first]? = some t) :
    l.program.successors ⟨l.program.tag, s.last - s.first⟩ = ⟨l.program.tag, 0⟩ ::
      if i.guard.isTrue || !s.leaves body then [] else [⟨l.program.tag, s.length⟩] := by
  have hk : s.last - s.first < s.length := Nat.lt_succ_self _
  have hlast : s.first + (s.last - s.first) = s.last := by omega
  obtain ⟨n, hcopy⟩ := hslice.copies (s.last - s.first) i
    ((getElem?_code (Nat.le_of_lt hlt) hk).trans (by rw [hlast, hi]))
  have himage : s.image body l.program.tag t = ⟨l.program.tag, 0⟩ :=
    image_of_getElem? hbody (Nat.le_of_lt hlt) (Nat.zero_lt_of_lt hk) ht
  -- behind the copy of the back edge stands the marker or nothing
  have hnext : (l.program.ids[s.last - s.first + 1]?).toList =
      if s.leaves body then [⟨l.program.tag, s.length⟩] else [] := by
    have hsize := hslice.size
    cases hleaves : s.leaves body with
    | true =>
      have hlen : s.length < l.program.size := by simp [hsize, hleaves]
      exact congrArg Option.toList (hslice.getElem?_ids hlen)
    | false =>
      have hlen : l.program.size = s.length := by simp [hsize, hleaves]
      have hend : l.program.ids.length ≤ s.last - s.first + 1 :=
        Nat.le_of_eq (Program.length_ids.trans hlen)
      rw [List.getElem?_eq_none hend]
      rfl
  have hid := hslice.getElem?_ids (Nat.lt_of_lt_of_le hk hslice.length_le)
  rw [hslice.wellFormed.successors_eq hid hcopy, hnext, Program.leadsTo_of_isGoto]
  · simp only [htargets, List.map_cons, List.map_nil, himage]
    cases i.guard.isTrue <;> cases s.leaves body <;> rfl
  · exact hgoto

end Loop

/-- Numbers tell the places of a numbered body apart, so a goto that closes a loop leads back to
its head and nowhere else. -/
theorem Closes.target_eq_head {body : Program} {first last start : Nat}
    {head backEdge target : Handle} (h : Closes body first last head backEdge target)
    (hloc : ∀ k i, body.instructions[k]? = some i → i.locationNumber = start + k) :
    target = head := by
  obtain ⟨i, j, hi, hj, hij⟩ := h.location
  rw [Program.get?_eq_bind, Option.bind_eq_some_iff] at hj
  obtain ⟨q, hq, hj⟩ := hj
  -- the target has the number of the head, and only one place has it
  have hfirst : q = first := by
    have := hloc q j hj
    have := hloc first i hi
    omega
  have htarget := Program.getElem?_ids_of_position? hq
  rw [hfirst, h.headAt] at htarget
  exact (Option.some.inj htarget).symm

theorem Closes.follows {body : Program} {s : Loop.Span} {start : Nat} {l : Loop} {target : Handle}
    (h : Closes body s.first s.last l.head l.backEdge target) (hbody : body.WellFormed)
    (hloc : ∀ k i, body.instructions[k]? = some i → i.locationNumber = start + k)
    (hslice : Loop.SliceOf body s l) : Loop.Follows body s l := by
  have hlast : s.last < body.size := by
    have := (List.getElem?_eq_some_iff.mp h.backEdgeAt).1
    rwa [Program.length_ids] at this
  refine ⟨fun k id i hk hid hi hret => hslice.successors_before hbody hk hlast hid hi hret,
    fun k i hk hi hret => ?_, ?_⟩
  · have hlt : k < s.length := by
      unfold Loop.Span.length
      omega
    exact hslice.successors_return (Nat.le_of_lt h.lt) hlt hi hret
  · obtain ⟨i, hi, htargets⟩ := h.targets
    have hgoto : i.isGoto := by
      have hback := h.backwards
      rw [Program.isBackwardsGoto, hbody.get?_eq h.backEdgeAt, hi] at hback
      exact (Bool.and_eq_true_iff.mp hback).1
    have htarget := h.target_eq_head hloc
    exact ⟨i, hi, hslice.successors_backEdge hbody h.lt hi hgoto htargets (htarget ▸ h.headAt)⟩

namespace LoopSearch
variable {t₀ t : FunctionTable} {function : String} {f : FunctionEntry}

/-- Every loop found in a numbered function is a slice of its body, and control goes through it as
it goes through the body. -/
theorem findLoops_slices (hwf : ∀ n f₀, t₀.get? n = some f₀ → f₀.body.WellFormed)
    (hok : t₀.update = (t, .ok ())) (hf : t.get? function = some f) (tag : Nat) :
    ∀ l ∈ ((start tag).findLoops t function).1.loops, ∃ s : Loop.Span,
      f.body.position? l.head = some s.first ∧ f.body.position? l.backEdge = some s.last ∧
        s.first < s.last ∧ Loop.SliceOf f.body s l ∧ Loop.Follows f.body s l := by
  intro l hl
  obtain ⟨f₀, start, hf₀, -, hnumbered⟩ := FunctionTable.get?_of_update hok hf
  have hbody : f.body.WellFormed := by
    rw [hnumbered]
    exact (hwf function f₀ hf₀).numberLocations.numberTargets
  have hloc : ∀ k i, f.body.instructions[k]? = some i → i.locationNumber = start + k := by
    intro k i hi
    rw [hnumbered] at hi
    exact Program.locationNumber_of_numbered hi
  obtain ⟨first, last, target, s, tag', hc, hspan, hextract⟩ := (findLoops_sound hf tag).found l hl
  obtain ⟨hhead, hback⟩ := Loop.span_eq_ok_iff.mp hspan
  -- in a well-formed body the places that the scan saw are those that the span is made of
  have hfirst : first = s.first :=
    Option.some.inj ((hbody.position?_eq_some_iff.mpr hc.headAt).symm.trans hhead)
  have hlast : last = s.last :=
    Option.some.inj ((hbody.position?_eq_some_iff.mpr hc.backEdgeAt).symm.trans hback)
  subst hfirst hlast
  have hsize := Program.lt_size_of_position? hback
  have hslice := Loop.sliceOf_of_extract hbody (Nat.le_of_lt hc.lt) hsize hextract
  exact ⟨s, hhead, hback, hc.lt, hslice, hc.follows hbody hloc hslice⟩

/-- A search that finds one loop, told by what it shows of the loop. -/
theorem exists_loop_of_map {β : Type} {g : Loop → β} {tag first last : Nat} {v : β}
    (hrun : ((start tag).findLoops t function).1.loops.map (fun l =>
      ((t.get? function).map fun f => (f.body.position? l.head, f.body.position? l.backEdge),
        g l)) = [(some (some first, some last), v)]) :
    ∃ f l, t.get? function = some f ∧ ((start tag).findLoops t function).1.loops = [l] ∧
      f.body.position? l.head = some first ∧ f.body.position? l.backEdge = some last ∧ g l = v := by
  obtain ⟨l, hl, hshown⟩ := List.map_eq_singleton_iff.mp hrun
  obtain ⟨hplaces, hv⟩ := Prod.mk.inj hshown
  obtain ⟨f, hf, hplaces⟩ := Option.map_eq_some_iff.mp hplaces
  obtain ⟨hhead, hback⟩ := Prod.mk.inj hplaces
  exact ⟨f, l, hf, hl, hhead, hback, hv⟩

theorem update_loopWithHelper : ∃ t₀ : FunctionTable,
    (∀ n f₀, t₀.get? n = some f₀ → f₀.body.WellFormed) ∧
      t₀.update = (Samples.loopWithHelper, .ok ()) :=
  let bodies := [(Samples.mainName, Samples.counterLoop 0 Samples.helperName),
    (Samples.helperName, Samples.helperBody 1 "c::y" none)]
  have hwf : (FunctionTable.ofBodies bodies).WellFormed :=
    FunctionTable.wellFormed_ofBodies (by decide +kernel)
  ⟨.ofBodies bodies, hwf.bodies, FunctionTable.update_ofBodies (by decide +kernel)⟩

/-- A counting loop has its head at the place 1 and its back edge at the place 4, and the jump that
ends it needs the marker. -/
theorem slice_of_loopWithHelper : ∃ f l, Samples.loopWithHelper.get? Samples.mainName = some f ∧
    l ∈ ((start 7).findLoops Samples.loopWithHelper Samples.mainName).1.loops ∧
      l.program.size = 5 ∧ Loop.SliceOf f.body ⟨1, 4⟩ l ∧ Loop.Follows f.body ⟨1, 4⟩ l := by
  obtain ⟨t₀, hwf, hok⟩ := update_loopWithHelper
  have hrun : ((start 7).findLoops Samples.loopWithHelper Samples.mainName).1.loops.map
      (fun l => ((Samples.loopWithHelper.get? Samples.mainName).map fun f =>
        (f.body.position? l.head, f.body.position? l.backEdge), l.program.size)) =
      [(some (some 1, some 4), 5)] := by
    decide +kernel
  obtain ⟨f, l, hf, hl, hhead, hback, hsize⟩ := exists_loop_of_map hrun
  have hmem : l ∈ ((start 7).findLoops Samples.loopWithHelper Samples.mainName).1.loops :=
    hl ▸ List.mem_singleton_self l
  obtain ⟨⟨first, last⟩, hfirst, hlast, -, hslice, hfollows⟩ := findLoops_slices hwf hok hf 7 l hmem
  rw [hhead, Option.some.injEq] at hfirst
  rw [hback, Option.some.injEq] at hlast
  subst hfirst hlast
  exact ⟨f, l, hf, hmem, hsize, hslice, hfollows⟩

end LoopSearch
end GotoCheck
