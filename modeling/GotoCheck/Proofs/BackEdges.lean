import GotoCheck.Proofs.LoopSearch

/-! Back edges by their places. In a numbered body numbers and places say the same, so the scan for
loops sees a back edge where a goto leads to its own or an earlier place, and finds its head. -/
namespace GotoCheck

namespace Program
variable {body : Program} {h t : Handle} {i j : Instruction} {k : Nat}

/-- The goto at the place `k` has the target `t`. -/
def JumpsTo (body : Program) (k : Nat) (t : Handle) : Prop :=
  ∃ i, body.instructions[k]? = some i ∧ i.isGoto ∧ t ∈ i.targets

theorem jumpsTo_iff_of_getElem? (hi : body.instructions[k]? = some i) :
    body.JumpsTo k t ↔ i.isGoto ∧ t ∈ i.targets := by
  constructor
  · rintro ⟨j, hj, hjump⟩
    rw [hi] at hj
    cases hj
    exact hjump
  · intro hjump
    exact ⟨i, hi, hjump⟩

/-- A goto with some target at its own or an earlier place. -/
def IsBackEdge (body : Program) (k : Nat) : Prop :=
  ∃ p ≤ k, ∃ t, body.ids[p]? = some t ∧ body.JumpsTo k t

/-- The back edge at the place `k` leads to `t`, which is not the back edge itself. -/
structure Reenters (body : Program) (k : Nat) (t : Handle) : Prop where
  isBackEdge : body.IsBackEdge k
  jumpsTo : body.JumpsTo k t
  other : body.ids[k]? ≠ some t

/-- Locations count in program order. -/
structure Located (body : Program) : Prop where
  wellFormed : body.WellFormed
  locations : ∃ start, ∀ (k : Nat) (i : Instruction),
    body.instructions[k]? = some i → i.locationNumber = start + k

theorem Located.locationNumber_le_iff (hbody : body.Located) {p : Nat}
    (hi : body.instructions[k]? = some i) (hj : body.instructions[p]? = some j) :
    j.locationNumber ≤ i.locationNumber ↔ p ≤ k := by
  obtain ⟨start, hloc⟩ := hbody.locations
  rw [hloc k i hi, hloc p j hj]
  omega

/-- Back edges by location numbers are back edges by places. -/
theorem Located.isBackwardsGoto_iff (hbody : body.Located) (hk : body.ids[k]? = some h)
    (hi : body.instructions[k]? = some i) : body.isBackwardsGoto h ↔ body.IsBackEdge k := by
  rw [isBackwardsGoto, hbody.wellFormed.get?_eq hk, hi]
  simp only [Bool.and_eq_true, List.any_eq_true, Option.any_eq_true, decide_eq_true_eq]
  constructor
  · intro hx
    obtain ⟨hgoto, t, ht, j, hj, hle⟩ := hx
    rw [get?_eq_bind] at hj
    obtain ⟨p, hp, hj⟩ := Option.bind_eq_some_iff.mp hj
    exact ⟨p, (hbody.locationNumber_le_iff hi hj).mp hle, t, getElem?_ids_of_position? hp, i, hi,
      hgoto, ht⟩
  · intro hx
    obtain ⟨p, hle, t, hp, hjump⟩ := hx
    obtain ⟨hgoto, ht⟩ := (jumpsTo_iff_of_getElem? hi).mp hjump
    obtain ⟨j, hj⟩ := exists_instruction hp
    exact ⟨hgoto, t, ht, j, (hbody.wellFormed.get?_eq hp).trans hj,
      (hbody.locationNumber_le_iff hi hj).mpr hle⟩

/-- What numbering a closed program makes sure of: locations count in program order, and the
instructions with a target number are those that are jumped to. -/
structure Numbered (body : Program) : Prop where
  wellFormed : body.WellFormed
  closed : body.Closed
  locations : ∃ start, ∀ (k : Nat) (i : Instruction),
    body.instructions[k]? = some i → i.locationNumber = start + k
  targets : ∀ (k : Nat) (h : Handle) (i : Instruction), body.ids[k]? = some h →
    body.instructions[k]? = some i → (i.isTarget ↔ h ∈ body.targets)

theorem Numbered.located (hbody : body.Numbered) : body.Located where
  wellFormed := hbody.wellFormed
  locations := hbody.locations

theorem Numbered.locationNumber_inj (hbody : body.Numbered) {p : Nat}
    (hi : body.instructions[k]? = some i) (hj : body.instructions[p]? = some j)
    (heq : j.locationNumber = i.locationNumber) : p = k := by
  have hle := (hbody.located.locationNumber_le_iff hi hj).mp (Nat.le_of_eq heq)
  have hge := (hbody.located.locationNumber_le_iff hj hi).mp (Nat.le_of_eq heq.symm)
  exact Nat.le_antisymm hle hge

/-- A jump in a closed program leads to some place. -/
theorem Numbered.exists_place (hbody : body.Numbered) (hjump : body.JumpsTo k t) :
    ∃ (p : Nat) (j : Instruction), body.ids[p]? = some t ∧ body.instructions[p]? = some j ∧
      body.get? t = some j ∧ j.isTarget := by
  obtain ⟨i, hi, -, ht⟩ := hjump
  have htargets : t ∈ body.targets := List.mem_flatMap.mpr ⟨i, List.mem_of_getElem? hi, ht⟩
  obtain ⟨p, hp⟩ := List.mem_iff_getElem?.mp (hbody.closed htargets)
  obtain ⟨j, hj⟩ := exists_instruction hp
  exact ⟨p, j, hp, hj, (hbody.wellFormed.get?_eq hp).trans hj,
    (hbody.targets p t _ hp hj).mpr htargets⟩

end Program

namespace FunctionTable
variable {t₀ t : FunctionTable} {function : String} {f : FunctionEntry}

/-- A successful update of a table leaves numbered bodies behind. -/
theorem numbered_of_update (hwf : ∀ n f₀, t₀.get? n = some f₀ → f₀.body.WellFormed)
    (hok : t₀.update = (t, .ok ())) (hf : t.get? function = some f) : f.body.Numbered := by
  obtain ⟨f₀, start, hf₀, hclosed, hnumbered⟩ := get?_of_update hok hf
  have hbody : f.body = (f₀.body.numberLocations start).numberTargets := by rw [hnumbered]
  rw [hbody]
  exact {
    wellFormed := (hwf function f₀ hf₀).numberLocations.numberTargets
    closed := by
      unfold Program.Closed at hclosed ⊢
      simpa using hclosed
    locations := ⟨start, fun k i hi => Program.locationNumber_of_numbered hi⟩
    targets := by
      intro k h i hh hi
      rw [Program.ids_numberTargets] at hh
      rw [Program.targets_numberTargets]
      exact Program.isTarget_numberTargets_iff hh hi }

end FunctionTable

namespace LoopSearch
variable {body : Program} {seen : List (Nat × Handle)} {h head : Handle} {i : Instruction}
variable {k slot : Nat}

/-- Exactly the targets at places before `k` are noted so far. -/
structure Noted (body : Program) (k : Nat) (seen : List (Nat × Handle)) : Prop where
  before : SeenBefore body k seen
  all : ∀ q < k, ∀ r, body.rows[q]? = some r → r.2.isTarget →
    (r.2.locationNumber, body.handle r.1) ∈ seen

theorem noted_nil : Noted body 0 [] where
  before := fun _ he => absurd he List.not_mem_nil
  all := fun q hq => absurd hq (Nat.not_lt_zero q)

theorem Noted.note (hseen : Noted body k seen) (hk : body.rows[k]? = some (slot, i)) :
    Noted body (k + 1)
      (if i.isTarget then (i.locationNumber, body.handle slot) :: seen else seen) where
  before := hseen.before.note hk
  all := by
    intro q hq r hr htarget
    rcases Nat.lt_succ_iff_lt_or_eq.mp hq with hlt | rfl
    · have hmem := hseen.all q hlt r hr htarget
      split
      · exact List.mem_cons_of_mem _ hmem
      · exact hmem
    · rw [hk] at hr
      cases hr
      rw [if_pos htarget]
      exact List.mem_cons_self

/-- In a numbered body a location number leads to the one target that has it. -/
theorem Noted.find? (hbody : body.Numbered) (hseen : Noted body k seen) {p : Nat} {t : Handle}
    {j : Instruction} (hp : p < k) (ht : body.ids[p]? = some t)
    (hj : body.instructions[p]? = some j) (htarget : j.isTarget) :
    seen.find? (fun s => s.1 == j.locationNumber) = some (j.locationNumber, t) := by
  obtain ⟨r, hr, rfl⟩ := Option.map_eq_some_iff.mp (Program.getElem?_ids ▸ ht)
  obtain ⟨r', hr', rfl⟩ := Option.map_eq_some_iff.mp (Program.getElem?_instructions ▸ hj)
  rw [hr] at hr'
  cases hr'
  have hmem := hseen.all p hp r hr htarget
  cases hfind : seen.find? fun s => s.1 == r.2.locationNumber with
  | none =>
    have := List.find?_eq_none.mp hfind _ hmem
    simp at this
  | some e =>
    have heq : e.1 = r.2.locationNumber := by simpa using List.find?_some hfind
    obtain ⟨q, -, r', hr', rfl⟩ := hseen.before e (List.mem_of_find?_eq_some hfind)
    -- only one place has the number
    have hj' := (Program.getElem?_rows_eq_some_iff.mp hr').2
    have hqp : q = p := hbody.locationNumber_inj hj hj' heq
    rw [hqp, hr] at hr'
    cases hr'
    rfl

/-- What the scan makes of a row: a back edge with several targets is malformed, one with another
target closes the loop from there, and nothing else concerns it. -/
theorem loopHead?_cases (hbody : body.Numbered) (hseen : Noted body (k + 1) seen)
    (hk : body.rows[k]? = some (slot, i)) :
    (body.IsBackEdge k ∧ i.targets.length ≠ 1 ∧ loopHead? body seen (body.handle slot) i =
        .error (.malformedBackEdge (body.handle slot) i.targets.length)) ∨
      ((∃ first < k, ∃ head, body.ids[first]? = some head ∧ i.targets = [head] ∧
        body.Reenters k head ∧ loopHead? body seen (body.handle slot) i = .ok (some head)) ∨
      ((∀ t, ¬body.Reenters k t) ∧ (body.IsBackEdge k → i.targets.length = 1) ∧
        loopHead? body seen (body.handle slot) i = .ok none)) := by
  obtain ⟨hid, hi⟩ := Program.getElem?_rows_eq_some_iff.mp hk
  have hback := hbody.located.isBackwardsGoto_iff hid hi
  unfold loopHead?
  by_cases hedge : body.IsBackEdge k
  · rw [hback.mpr hedge]
    obtain ⟨p, hle, t, hp, hjump⟩ := hedge
    have hedge : body.IsBackEdge k := ⟨p, hle, t, hp, hjump⟩
    obtain ⟨-, ht⟩ := (Program.jumpsTo_iff_of_getElem? hi).mp hjump
    obtain ⟨p', j, hp', hj, hget, htarget⟩ := hbody.exists_place hjump
    have hsame : p' = p := hbody.wellFormed.place_inj hp' hp
    subst hsame
    match hts : i.targets with
    | [] =>
      rw [hts] at ht
      cases ht
    | u :: v :: rest => exact .inl ⟨hedge, by simp, rfl⟩
    | [u] =>
      refine .inr ?_
      rw [hts] at ht
      cases List.mem_singleton.mp ht
      simp only [Bool.not_true, Bool.false_eq_true, if_false, hget]
      rcases Nat.lt_or_eq_of_le hle with hlt | heq
      · -- the head stands before the back edge, so its number is another and has been noted
        have hne : j.locationNumber ≠ i.locationNumber := by
          intro heq
          exact Nat.ne_of_lt hlt (hbody.locationNumber_inj hi hj heq)
        have hother : body.ids[k]? ≠ some t := by
          intro hkt
          exact Nat.ne_of_lt hlt (hbody.wellFormed.place_inj hp hkt)
        rw [if_neg hne, hseen.find? hbody (Nat.lt_succ_of_lt hlt) hp hj htarget]
        exact .inl ⟨p', hlt, t, hp, rfl, ⟨hedge, hjump, hother⟩, rfl⟩
      · -- a jump to itself
        subst heq
        rw [hi] at hj
        cases hj
        rw [if_pos rfl]
        refine .inr ⟨fun u hu => ?_, fun _ => rfl, rfl⟩
        obtain ⟨-, hu'⟩ := (Program.jumpsTo_iff_of_getElem? hi).mp hu.jumpsTo
        rw [hts] at hu'
        cases List.mem_singleton.mp hu'
        exact hu.other hp
  · have hback : body.isBackwardsGoto (body.handle slot) = false := by
      rw [Bool.eq_false_iff]
      exact fun h => hedge (hback.mp h)
    rw [hback]
    exact .inr (.inr ⟨fun t ht => hedge ht.isBackEdge, fun h => absurd h hedge, rfl⟩)

end LoopSearch
end GotoCheck
