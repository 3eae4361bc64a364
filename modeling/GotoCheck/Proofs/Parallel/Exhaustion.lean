import GotoCheck.Proofs.Parallel.Accounting

/-! A run that comes to nothing has tried everything. Only when all workers are through does the
coordinator give up, and then no proof is left aside: the base case has been asked to stop nowhere
and no prover has an answer. -/
namespace GotoCheck.Induction
variable {c : Config} {events : List Event} {x y : State} {v : Verdict}

/-- Every verdict comes of a look at a state of the run before it. -/
theorem Run.exists_decision (hx : Run c events x) (hd : x.stage = .done v) :
    ∃ es y, es <+: events ∧ Run c es y ∧ y.isDone = false ∧
      (y.poll.stage = .done v ∨ y.settle.stage = .done v) := by
  -- by induction on the run: the last event has decided, or what the earlier ones did stands
  induction hx with
  | start => cases hd
  | @next events x y e hx hy ih =>
    cases hopen : x.isDone with
    | true =>
      rw [State.stage_of_after? hopen hy] at hd
      obtain ⟨es, z, hes, hz⟩ := ih hd
      exact ⟨es, z, hes.trans (List.prefix_append _ _), hz⟩
    | false =>
      refine ⟨events, x, List.prefix_append _ _, hx, hopen, ?_⟩
      have hnot : x.stage ≠ .done v := by
        intro heq
        rw [State.isDone, heq] at hopen
        cases hopen
      cases Step.of_after? hy with
      | answered | read | sent | ended | cancelled => exact absurd hd hnot
      | polled hg => exact .inl hd
      | inspected hg => cases hd
      | settled hg => exact .inr hd

theorem State.verdict_eq_unknown (h : x.verdict = .unknown) :
    x.standing.baseCase.solution? = none ∧ x.proof? = none := by
  unfold State.verdict at h
  split at h
  · cases h
  · rename_i hb
    split at h
    · cases h
    · rename_i hp
      exact ⟨hb, hp⟩

/-- Only when all workers are through does the coordinator give up. -/
theorem State.allFinished_of_unknown
    (h : y.poll.stage = .done .unknown ∨ y.settle.stage = .done .unknown) :
    y.allFinished ∧ y.verdict = .unknown := by
  rcases h with h | h
  · unfold State.poll at h
    split at h
    · rename_i hfinished
      exact ⟨hfinished, Stage.done.inj h⟩
    · cases h
  · unfold State.settle at h
    split at h
    · rename_i hsome
      obtain ⟨hb, hp⟩ := State.verdict_eq_unknown (Stage.done.inj h)
      rw [hb, hp] at hsome
      simp at hsome
    · cases h

theorem State.standing_ne_running_of_allFinished (h : y.allFinished) (s : Strategy) :
    y.standing.get s ≠ .running := by
  simp only [State.allFinished, PerWorker.all, Bool.and_eq_true, decide_eq_true_eq] at h
  cases s with
  | baseCase => exact h.1.1
  | forwardCondition => exact h.1.2
  | inductiveStep => exact h.2

/-- A proof that is left aside lies above what the coordinator expects of the base case. -/
theorem State.expected_lt_of_proof?_eq_none (h : x.proof? = none)
    (hb : x.standing.baseCase = .reported 0) {s : Strategy} {k : Nat} (hs : s ≠ .baseCase)
    (hk : x.standing.get s = .reported k) (h0 : k ≠ 0) : x.expected < k := by
  have hsolution : (x.standing.get s).solution? = some k :=
    Standing.solution?_eq_some.mpr ⟨hk, h0⟩
  have hmem : s ∈ [Strategy.forwardCondition, .inductiveStep] := by
    cases s <;> simp at hs ⊢
  rw [State.proof?, if_pos hb, List.findSome?_eq_none_iff] at h
  have hnone := h s hmem
  rw [hsolution, Option.bind_some] at hnone
  refine Nat.lt_of_not_le fun hle => ?_
  rw [if_pos hle] at hnone
  cases hnone

/-- A run that no check has broken and that comes to nothing has had no violation up to the largest
bound, unless the base case has erred, and has been through all bounds of each prover. -/
theorem Run.exhausted_of_unknown (hx : Run c events x) (hunbroken : Unbroken events)
    (hd : x.stage = .done .unknown) :
    (SafeThrough c events (min c.largest (Config.boundLimit - 1)) ∨ BaseErred events) ∧
      ∀ s, c.proves s → Exhausted c events s := by
  obtain ⟨es, y, ⟨rest, rfl⟩, hy, hopen, hstage⟩ := hx.exists_decision hd
  have hsub : es ⊆ es ++ rest := List.subset_append_left _ _
  have hacc := hy.accounted hunbroken.of_append hopen
  have hbacked := hy.stateBacked
  obtain ⟨hfinished, hunknown⟩ := State.allFinished_of_unknown hstage
  obtain ⟨hbase, hproof⟩ := State.verdict_eq_unknown hunknown
  have hreported : ∀ s, ∃ k, y.standing.get s = .reported k := fun s =>
    Standing.exists_eq_reported (State.standing_ne_running_of_allFinished hfinished s)
      (hacc.alive s)
  have hzero : y.standing.baseCase = .reported 0 := by
    obtain ⟨k, hk⟩ := hreported .baseCase
    rw [PerWorker.get] at hk
    by_cases h0 : k = 0
    · exact h0 ▸ hk
    · rw [Standing.solution?_eq_some.mpr ⟨hk, h0⟩] at hbase
      cases hbase
  -- a proof is above what is expected, which is then no proof, so it is above the largest bound
  have hnoproof : ∀ s k, s ≠ .baseCase → y.standing.get s = .reported k → k = 0 := by
    intro s k hs hk
    by_cases h0 : k = 0
    · exact h0
    · exfalso
      have hlt := State.expected_lt_of_proof?_eq_none hproof hzero hs hk h0
      obtain ⟨-, -, hsafe⟩ := (hbacked.standing s k hk).proved hs h0
      have hsteps := (hy.asked_isPrefix_steps s).subset (mem_asked hsafe)
      obtain ⟨-, -, hle, -⟩ := Config.mem_steps_iff.mp hsteps
      rcases hacc.expected with heq | ⟨t, ht, hexpected, hne⟩
      · omega
      · exact Nat.lt_irrefl _ (State.expected_lt_of_proof?_eq_none hproof hzero ht hexpected hne)
  -- so nothing was ever asked for, and the base case has gone all the way
  have hlargest : y.expected = c.largest := by
    rcases hacc.expected with heq | ⟨s, hs, hk, h0⟩
    · exact heq
    · exact absurd (hnoproof s _ hs hk) h0
  constructor
  · have hcovered := (hbacked.standing .baseCase 0 hzero).covered rfl rfl
    rw [hlargest] at hcovered
    exact hcovered.imp (fun h => h.mono hsub (Nat.le_refl _)) fun h => h.mono hsub
  · intro s hs
    obtain ⟨k, hk⟩ := hreported s
    have h0 := hnoproof s k (Config.ne_baseCase_of_proves hs) hk
    exact (hacc.standing s hs (h0 ▸ hk)).mono hsub

end GotoCheck.Induction
