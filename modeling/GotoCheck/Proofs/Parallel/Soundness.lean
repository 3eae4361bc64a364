import GotoCheck.Proofs.Parallel.Invariant

/-! Soundness of the parallel checks under every schedule: as long as the base case does not err,
a proof comes with a base case that was safe at every smaller bound, and a failure with the first
bound that has a violation. -/
namespace GotoCheck.Induction

/-- With steps of one the base case tries every bound. -/
theorem SafeThrough.every {c : Config} (hc : c.increment ≤ 1) {events : List Event} {n j : Nat}
    (h : SafeThrough c events n) (hj : 1 ≤ j) (hn : j ≤ n) :
    Event.answered .baseCase j (.outcome .safe) ∈ events := by
  have hbound : c.baseBound (j - 1) = j := by
    unfold Config.baseBound
    rw [Config.stride_eq_one hc]
    omega
  have := h (j - 1) (by omega)
  rwa [hbound] at this

/-- The verdict of the coordinator rests on answers of the checker, whatever the order of events,
the answers and the workers that died. -/
theorem parallel_verdict_rests_on_answers {c : Config} (hc : c.increment ≤ 1)
    {events : List Event} {x : State} (hx : Run c events x)
    (herr : ∀ j e, Event.answered .baseCase j (.error e) ∉ events) :
    (∀ k s, x.stage = .done (.successful k s) →
      s ≠ .baseCase ∧ c.proves s ∧ Event.answered s k (.outcome .safe) ∈ events ∧
        ∀ j, 1 ≤ j → j ≤ k → Event.answered .baseCase j (.outcome .safe) ∈ events) ∧
    (∀ k, x.stage = .done (.failed k) →
      Event.answered .baseCase k (.outcome .violated) ∈ events ∧
        ∀ j, 1 ≤ j → j < k → Event.answered .baseCase j (.outcome .safe) ∈ events) := by
  have hverdict := hx.stateBacked.verdict
  constructor
  · intro k s hd
    obtain ⟨hp, hk, hbase⟩ := hverdict _ hd
    -- the other way to back a proof is an error of the base case, and there is none
    have hcov : SafeThrough c events k := by
      apply hbase.resolve_right
      intro hx
      obtain ⟨j, e, he⟩ := hx
      exact herr j e he
    exact ⟨Config.ne_baseCase_of_proves hp, hp, hk, fun j hj hjk => hcov.every hc hj hjk⟩
  · intro k hd
    obtain ⟨hk, hcov⟩ := hverdict _ hd
    exact ⟨hk, fun j hj hjk => hcov.every hc hj (by omega)⟩

/-- An order of events in which the forward condition is through first, a request overtakes the
base case, and the inductive step dies. -/
def overtakingEvents : List Event :=
  [.answered .forwardCondition 2 (.outcome .safe), .sent .forwardCondition 2,
    .answered .inductiveStep 2 .crash,
    .polled, .inspected .baseCase, .inspected .forwardCondition, .inspected .inductiveStep,
    .settled,
    .answered .baseCase 1 (.outcome .safe), .read, .answered .baseCase 2 (.outcome .safe), .read,
    .sent .baseCase 0,
    .polled, .inspected .baseCase, .inspected .forwardCondition, .inspected .inductiveStep,
    .settled]

theorem verdict_of_overtakingEvents :
    ∃ x, Run {} overtakingEvents x ∧
      (∀ j e, Event.answered .baseCase j (.error e) ∉ overtakingEvents) ∧
      x.stage = .done (.successful 2 .forwardCondition) ∧
      ∀ j, 1 ≤ j → j ≤ 2 → Event.answered .baseCase j (.outcome .safe) ∈ overtakingEvents := by
  have hfollow : ∃ x, (State.start {}).follow? {} overtakingEvents = some x ∧
      x.stage = .done (.successful 2 .forwardCondition) := ⟨_, rfl, rfl⟩
  have herr : ∀ j e, Event.answered .baseCase j (.error e) ∉ overtakingEvents := by
    intro j e
    simp [overtakingEvents]
  obtain ⟨x, hx, hd⟩ := hfollow
  have hrun := run_iff_follow?.mpr hx
  obtain ⟨-, -, -, hcov⟩ :=
    (parallel_verdict_rests_on_answers (by decide) hrun herr).1 2 .forwardCondition hd
  exact ⟨x, hrun, herr, hd, hcov⟩

end GotoCheck.Induction
