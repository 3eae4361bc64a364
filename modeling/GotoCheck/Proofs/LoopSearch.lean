import GotoCheck.Proofs.Extract

/-! What the search for loops finds. The scan only looks back, so a head that it accepts stands
before its back edge. -/
namespace GotoCheck

/-- The goto at the place `last` closes a loop whose head is at the place `first`: its only target
has the location number of that head. -/
structure Closes (body : Program) (first last : Nat) (head backEdge target : Handle) : Prop where
  lt : first < last
  headAt : body.ids[first]? = some head
  backEdgeAt : body.ids[last]? = some backEdge
  backwards : body.isBackwardsGoto backEdge
  targets : ∃ i, body.instructions[last]? = some i ∧ i.targets = [target]
  location : ∃ i j, body.instructions[first]? = some i ∧ body.get? target = some j ∧
    j.locationNumber = i.locationNumber

theorem Closes.span {body : Program} {first last : Nat} {head backEdge target : Handle}
    (h : Closes body first last head backEdge target) :
    ∃ span, Loop.span body head backEdge = .ok span := by
  obtain ⟨p, hp⟩ := Option.isSome_iff_exists.mp
    (Program.position?_isSome_iff.mpr (List.mem_of_getElem? h.headAt))
  obtain ⟨q, hq⟩ := Option.isSome_iff_exists.mp
    (Program.position?_isSome_iff.mpr (List.mem_of_getElem? h.backEdgeAt))
  exact ⟨⟨p, q⟩, Loop.span_eq_ok_iff.mpr ⟨hp, hq⟩⟩

namespace LoopSearch
variable {table : FunctionTable} {function : String} {body : Program}
variable {s : LoopSearch} {l m : Loop} {h head : Handle} {i : Instruction} {k slot : Nat}
variable {seen : List (Nat × Handle)}

theorem mem_put {ls : List Loop} (h : m ∈ put l ls) : m = l ∨ m ∈ ls := by
  induction ls with
  | nil => exact .inl (List.mem_singleton.mp h)
  | cons k rest ih =>
    simp only [put] at h
    split at h
    · rcases List.mem_cons.mp h with rfl | h
      · exact .inl rfl
      · exact .inr (List.mem_cons_of_mem k h)
    · rcases List.mem_cons.mp h with rfl | h
      · exact .inr List.mem_cons_self
      · exact (ih h).imp_right (List.mem_cons_of_mem k)

/-- The targets noted so far stand at places before `k`. -/
def SeenBefore (body : Program) (k : Nat) (seen : List (Nat × Handle)) : Prop :=
  ∀ e ∈ seen, ∃ q < k, ∃ r, body.rows[q]? = some r ∧ e = (r.2.locationNumber, body.handle r.1)

theorem SeenBefore.next (hseen : SeenBefore body k seen) : SeenBefore body (k + 1) seen := by
  intro e he
  obtain ⟨q, hq, hr⟩ := hseen e he
  exact ⟨q, Nat.lt_succ_of_lt hq, hr⟩

theorem SeenBefore.note (hseen : SeenBefore body k seen) (hk : body.rows[k]? = some (slot, i)) :
    SeenBefore body (k + 1)
      (if i.isTarget then (i.locationNumber, body.handle slot) :: seen else seen) := by
  split
  · intro e he
    rcases List.mem_cons.mp he with rfl | he
    · exact ⟨k, Nat.lt_succ_self k, _, hk, rfl⟩
    · exact hseen.next e he
  · exact hseen.next

/-- What a goto that closes a loop looks like, with the note of its head. -/
theorem loopHead?_eq_some (h' : loopHead? body seen h i = .ok (some head)) :
    body.isBackwardsGoto h ∧ ∃ t j n, i.targets = [t] ∧ body.get? t = some j ∧
      j.locationNumber ≠ i.locationNumber ∧ (n, head) ∈ seen ∧ n = j.locationNumber := by
  unfold loopHead? at h'
  split at h'
  · cases h'
  · rename_i hback
    have hback : body.isBackwardsGoto h := by simpa using hback
    split at h'
    · rename_i t ht
      split at h'
      · cases h'
      · rename_i j hj
        split at h'
        · cases h'
        · rename_i hne
          split at h'
          · rename_i e he
            cases h'
            have hmem := List.mem_of_find?_eq_some he
            have hloc : e.1 = j.locationNumber := by simpa using List.find?_some he
            exact ⟨hback, t, j, e.1, ht, hj, hne, hmem, hloc⟩
          · cases h'
    · cases h'

theorem closes_of_loopHead? (hseen : SeenBefore body (k + 1) seen)
    (hk : body.rows[k]? = some (slot, i))
    (hhead : loopHead? body seen (body.handle slot) i = .ok (some head)) :
    ∃ first target, Closes body first k head (body.handle slot) target := by
  obtain ⟨hid, hi⟩ := Program.getElem?_rows_eq_some_iff.mp hk
  obtain ⟨hback, t, j, n, ht, hj, hne, hmem, hn⟩ := loopHead?_eq_some hhead
  obtain ⟨q, hq, r, hr, hnote⟩ := hseen _ hmem
  cases hnote
  -- the goto may have noted itself, but under another location number
  have hqk : q ≠ k := by
    intro heq
    subst heq
    rw [hk] at hr
    cases hr
    exact hne hn.symm
  obtain ⟨hidq, hiq⟩ := Program.getElem?_rows_eq_some_iff.mp hr
  exact ⟨q, t, {
    lt := by omega
    headAt := hidq
    backEdgeAt := hid
    backwards := hback
    targets := ⟨i, hi, ht⟩
    location := ⟨r.2, j, hiq, hj, hn.symm⟩ }⟩

/-- A loop as the scan cuts it out of the body. -/
def Found (table : FunctionTable) (function : String) (body : Program) (l : Loop) : Prop :=
  ∃ first last target span tag, Closes body first last l.head l.backEdge target ∧
    Loop.span body l.head l.backEdge = .ok span ∧
    Loop.extract table function body l.head l.backEdge span tag = .ok l

/-- Cutting out the loop of some back edge fails for want of a function. -/
def Lacks (table : FunctionTable) (function : String) (body : Program) (n : String) : Prop :=
  ∃ first last head backEdge target span tag, Closes body first last head backEdge target ∧
    Loop.span body head backEdge = .ok span ∧
    Loop.extract table function body head backEdge span tag = .error (.missingFunction n)

/-- All loops are found ones, and a missing function is one that a loop lacks. -/
structure Sound (table : FunctionTable) (function : String) (body : Program)
    (r : LoopSearch × Except ProgramError Unit) : Prop where
  found : ∀ l ∈ r.1.loops, Found table function body l
  missing : ∀ n, r.2 = .error (.missingFunction n) → Lacks table function body n

theorem loopHead?_ne_missingFunction {n : String} :
    loopHead? body seen h i ≠ .error (.missingFunction n) := by
  intro hmissing
  unfold loopHead? at hmissing
  split at hmissing
  · cases hmissing
  · split at hmissing
    · split at hmissing
      · cases hmissing
      · split at hmissing
        · cases hmissing
        · split at hmissing <;> cases hmissing
    · cases hmissing

theorem addLoop_sound {first last : Nat} {backEdge target : Handle}
    (hs : ∀ l ∈ s.loops, Found table function body l)
    (hc : Closes body first last head backEdge target) :
    Sound table function body (s.addLoop table function body head backEdge) := by
  obtain ⟨span, hspan⟩ := hc.span
  unfold addLoop
  rw [hspan]
  dsimp only
  cases hl : Loop.extract table function body head backEdge span s.nextTag with
  | error e =>
    refine ⟨hs, fun n hn => ?_⟩
    cases hn
    exact ⟨first, last, head, backEdge, target, span, _, hc, hspan, hl⟩
  | ok l =>
    refine ⟨fun m hm => ?_, fun n hn => by cases hn⟩
    rcases mem_put hm with rfl | hm
    · obtain ⟨walk, -, rfl⟩ := Loop.extract_eq_ok_iff.mp hl
      exact ⟨first, last, target, span, _, hc, hspan, hl⟩
    · exact hs m hm

/-- What is left to scan begins with the row at the place. -/
theorem row_of_drop {rest : List (Nat × Instruction)}
    (hrest : body.rows.drop k = (slot, i) :: rest) :
    body.rows[k]? = some (slot, i) ∧ body.rows.drop (k + 1) = rest := by
  constructor
  · rw [← List.head?_drop, hrest, List.head?_cons]
  · rw [← List.tail_drop, hrest, List.tail_cons]

theorem scan_sound {rest : List (Nat × Instruction)} (hrest : body.rows.drop k = rest)
    (hseen : SeenBefore body k seen) (hs : ∀ l ∈ s.loops, Found table function body l) :
    Sound table function body (scan table function body rest seen s) := by
  induction rest generalizing k seen s with
  | nil => exact ⟨hs, fun n hn => by cases hn⟩
  | cons r rest ih =>
    obtain ⟨slot, i⟩ := r
    obtain ⟨hk, hrest⟩ := row_of_drop hrest
    have hseen := hseen.note hk
    unfold scan
    dsimp only
    -- a fault ends the scan, another row leaves the loops alone, and a back edge adds one
    split
    · rename_i e he
      refine ⟨hs, fun n hn => ?_⟩
      cases hn
      exact absurd he loopHead?_ne_missingFunction
    · exact ih hrest hseen hs
    · rename_i head hhead
      obtain ⟨first, target, hc⟩ := closes_of_loopHead? hseen hk hhead
      have hadd := addLoop_sound (s := s) hs hc
      split
      · rename_i s' e hs'
        rw [hs'] at hadd
        exact hadd
      · rename_i s' hs'
        rw [hs'] at hadd
        exact ih hrest hseen hadd.found

theorem findLoops_sound {f : FunctionEntry} (hf : table.get? function = some f) (tag : Nat) :
    Sound table function f.body ((start tag).findLoops table function) := by
  unfold findLoops
  rw [hf]
  apply scan_sound (k := 0) rfl
  · intro e he
    cases he
  · intro l hl
    cases hl

end LoopSearch
end GotoCheck
