import GotoCheck.Proofs.Parallel.BaseError

/-! How far the base case is safe when a proof is accepted. It has been safe at all of its bounds up
to the proof, but with steps of two or more none of them need be as large as the proof: the base
case starts with one step and the provers with two. -/
namespace GotoCheck.Induction
variable {c : Config} {s t : Strategy} {i j k : Nat} {a : Answer}

section Events

theorem answer_of_mem_passing (h : Event.answered t j a ∈ passing s k) :
    t = s ∧ j = k ∧ a = .outcome (if s = .baseCase then .safe else .violated) := by
  cases s <;> simp_all [passing]

theorem answer_of_mem_passed (h : Event.answered t j a ∈ passed c s i) :
    t = s ∧ (∃ n < i, j = s.firstBound + n * c.stride) ∧
      a = .outcome (if s = .baseCase then .safe else .violated) := by
  obtain ⟨n, hn, hmem⟩ := List.mem_flatMap.mp h
  obtain ⟨ht, hj, ha⟩ := answer_of_mem_passing hmem
  exact ⟨ht, ⟨n, List.mem_range.mp hn, hj⟩, ha⟩

/-- A base case that has not erred has been safe at all of its bounds up to a proof. -/
theorem Run.safeThrough_of_successful {events : List Event} {x : State} (hx : Run c events x)
    (herr : ∀ j e, Event.answered .baseCase j (.error e) ∉ events)
    (hd : x.stage = .done (.successful k s)) : SafeThrough c events k := by
  obtain ⟨-, -, hbase⟩ := hx.stateBacked.verdict _ hd
  apply hbase.resolve_right
  rintro ⟨j, e, he⟩
  exact herr j e he

end Events

section Turns
variable {l e : Nat} {p : PerWorker Phase}

/-- Without a record of the base case nothing is decided. -/
theorem State.settle_of_running {x : State} (hb : x.standing.baseCase = .running) :
    x.settle = { x.requestConfirmation with stage := .polling } := by
  have hproof : x.proof? = none := by
    rw [State.proof?, if_neg (by simp [hb])]
  rw [State.settle, if_neg (by simp [hb, hproof, Standing.solution?])]

/-- The standings after the record of one prover. -/
def provedBy (s : Strategy) (k : Nat) : PerWorker Standing :=
  PerWorker.set ⟨.running, .running, .running⟩ s (.reported k)

theorem baseCase_provedBy (hs : c.proves s) : (provedBy s k).baseCase = .running := by
  cases s with
  | baseCase => cases hs
  | forwardCondition => rfl
  | inductiveStep => rfl

theorem smallestProof?_of_provedBy {x : State} (hs : c.proves s) (hk : k ≠ 0)
    (hx : x.standing = provedBy s k) : x.smallestProof? = some k := by
  have hsolution : (Standing.reported k).solution? = some k := if_neg hk
  cases s with
  | baseCase => cases hs
  | forwardCondition =>
    simp [State.smallestProof?, hx, provedBy, PerWorker.set, hsolution,
      show Standing.running.solution? = none from rfl]
  | inductiveStep =>
    simp [State.smallestProof?, hx, provedBy, PerWorker.set, hsolution,
      show Standing.running.solution? = none from rfl]

/-- The first record is that of a prover. The coordinator asks the base case to stop there. -/
theorem follow?_request (hs : c.proves s) (hp : ∀ t, p.get t ≠ .ended) (hk : k ≠ 0) (hle : k ≤ e) :
    (State.mk p l [⟨s, k⟩] [] ⟨.running, .running, .running⟩ e .polling).follow? c turn =
      some (State.mk p l [] (if k < e then [k] else []) (provedBy s k) k .polling) := by
  have haccept : (State.mk p l [] [] ⟨.running, .running, .running⟩ e .polling).accept ⟨s, k⟩ =
      State.mk p l [] [] (provedBy s k) e .polling := by
    cases s <;> rfl
  rw [follow?_turn rfl rfl rfl hp, haccept, State.settle_of_running (baseCase_provedBy hs),
    State.requestConfirmation, if_pos (baseCase_provedBy hs),
    smallestProof?_of_provedBy hs hk rfl]
  dsimp only
  split
  · rfl
  · rw [Nat.le_antisymm hle (by omega)]

/-- The base case has read the request when the next of its bounds is above it, and ends. -/
theorem follow?_stop {b : Nat} {g : PerWorker Standing} (hb : p.baseCase = .reading b)
    (hk : k < b + c.stride) (hle : k ≤ l) :
    (State.mk p l [] (if k < l then [k] else []) g k .polling).follow? c
      [.read, .sent .baseCase 0] =
      some (State.mk (p.set .baseCase .ending) k [⟨.baseCase, 0⟩] [] g k .polling) := by
  have hlimit : (if k < l then [k] else []).foldl min l = k := by
    split
    · exact Nat.min_eq_right hle
    · rename_i hge
      exact Nat.le_antisymm (Nat.le_of_not_lt hge) hle
  have hseek : Phase.seek k (c.next? b) = .reporting 0 := by
    unfold Config.next?
    split
    · exact if_neg (Nat.not_le.mpr hk)
    · rfl
  simp [State.follow?, State.after?, hb, hlimit, hseek, State.setPhase, PerWorker.get,
    PerWorker.set]

/-- Then the record of the base case confirms the proof. -/
theorem follow?_confirmation (hs : c.proves s) (hp : ∀ t, p.get t ≠ .ended) (hk : k ≠ 0) :
    ((State.mk p l [⟨.baseCase, 0⟩] [] (provedBy s k) k .polling).follow? c turn).map State.stage =
      some (.done (.successful k s)) := by
  have hrun : (State.mk p l [⟨.baseCase, 0⟩] [] (provedBy s k) k .polling).allFinished = false := by
    simp [State.allFinished, PerWorker.all, baseCase_provedBy hs]
  rw [follow?_turn rfl hrun rfl hp]
  cases s with
  | baseCase => cases hs
  | forwardCondition =>
    simp [State.settle, State.accept, provedBy, PerWorker.get, PerWorker.set, State.proof?,
      State.verdict, Standing.solution?, hk]
  | inductiveStep =>
    simp [State.settle, State.accept, provedBy, PerWorker.get, PerWorker.set, State.proof?,
      State.verdict, Standing.solution?, hk]

end Turns

/-- The base case waits at its bound before `k` until a request for `k` has come. -/
def overtaken (c : Config) (s : Strategy) (i : Nat) : List Event :=
  passed c .baseCase i ++ [.answered .baseCase (c.baseBound i) (.outcome .safe)] ++
    (passed c s i ++
      [.answered s (c.baseBound i + 1) (.outcome .safe), .sent s (c.baseBound i + 1)]) ++
    turn ++ [.read, .sent .baseCase 0] ++ turn

theorem answer_of_mem_overtaken (hs : c.proves s) (h : Event.answered t j a ∈ overtaken c s i) :
    (∃ o, a = .outcome o) ∧ (t = .baseCase → j ≤ c.baseBound i) := by
  have hne := Config.ne_baseCase_of_proves hs
  simp only [overtaken, turn, List.mem_append, List.mem_cons, List.not_mem_nil, or_false,
    Event.answered.injEq, reduceCtorEq] at h
  rcases h with (hpassed | ⟨rfl, rfl, rfl⟩) | hpassed | ⟨rfl, -, rfl⟩
  · obtain ⟨-, ⟨n, hn, rfl⟩, rfl⟩ := answer_of_mem_passed hpassed
    refine ⟨⟨_, rfl⟩, fun _ => ?_⟩
    exact Config.baseBound_le_iff.mpr (Nat.le_of_lt hn)
  · exact ⟨⟨_, rfl⟩, fun _ => Nat.le_refl _⟩
  · obtain ⟨rfl, -, rfl⟩ := answer_of_mem_passed hpassed
    exact ⟨⟨_, rfl⟩, fun ht => absurd ht hne⟩
  · exact ⟨⟨_, rfl⟩, fun ht => absurd ht hne⟩

/-- With steps of two or more the next bound of the base case is above the proof, so the base case
stops at the one before. -/
theorem run_overtaken (hc : 2 ≤ c.stride) (hs : c.proves s) (hk : c.baseBound i + 1 ≤ c.largest)
    (hi : i = 0 ∨ c.baseBound i + 1 < Config.boundLimit) :
    ∃ x, Run c (overtaken c s i) x ∧ x.stage = .done (.successful (c.baseBound i + 1) s) := by
  have hne := Config.ne_baseCase_of_proves hs
  have hfirst : s.firstBound + i * c.stride = c.baseBound i + 1 := by
    rw [Strategy.firstBound_of_ne hne, Config.baseBound]
    omega
  -- the base case goes up to its bound, and a prover through the one after it
  have hbase : (State.start c).follow? c
      (passed c .baseCase i ++ [.answered .baseCase (c.baseBound i) (.outcome .safe)]) =
      some ((State.start c).setPhase .baseCase (.reading (c.baseBound i))) := by
    rw [State.follow?_append (State.follow?_passed rfl (.inl rfl) rfl rfl (i := i)
      (Nat.le_of_succ_le hk) (hi.imp_right Nat.lt_of_succ_lt))]
    simp [State.follow?, State.after?, Config.phaseAfter, Strategy.firstBound, Config.baseBound,
      State.setPhase_setPhase]
  have hstart : ((State.start c).setPhase .baseCase (.reading (c.baseBound i))).phase.get s =
      c.startPhase s := by
    rw [State.setPhase, PerWorker.get_set_of_ne _ _ hne, State.phase_start]
  have hprover := State.follow?_record (i := i) (r := c.baseBound i + 1) hstart (.inr hs) rfl rfl
    (hfirst ▸ hk) (hfirst ▸ hi) (a := .outcome .safe) (by simp [Config.phaseAfter, hne, hfirst])
  rw [hfirst] at hprover
  -- then the coordinator, the base case and again the coordinator
  let p := ((State.start c).phase.set .baseCase (.reading (c.baseBound i))).set s .ending
  have hreading : p.baseCase = .reading (c.baseBound i) :=
    PerWorker.get_set_of_ne _ _ hne.symm
  have hlive : ∀ t, p.get t ≠ .ended := by
    intro t
    by_cases hts : t = s
    · subst hts
      simp [p]
    · by_cases ht : t = .baseCase
      · subst ht
        rw [PerWorker.get, hreading]
        exact Phase.noConfusion
      · simp only [p]
        rw [PerWorker.get_set_of_ne _ _ hts, PerWorker.get_set_of_ne _ _ ht, State.phase_start]
        exact startPhase_ne_ended c t
  have hlive' : ∀ t, (p.set .baseCase .ending).get t ≠ .ended := by
    intro t
    by_cases ht : t = .baseCase
    · subst ht
      simp
    · rw [PerWorker.get_set_of_ne _ _ ht]
      exact hlive t
  have hrequest := follow?_request (l := c.largest) hs hlive (Nat.succ_ne_zero _) hk
  have hstop := follow?_stop (c := c) (g := provedBy s (c.baseBound i + 1)) hreading
    (k := c.baseBound i + 1) (by omega) hk
  have hconfirmed := follow?_confirmation (l := c.baseBound i + 1) hs hlive'
    (Nat.succ_ne_zero (c.baseBound i))
  obtain ⟨y, hy, hdone⟩ := Option.map_eq_some_iff.mp hconfirmed
  have hrun := (((Run.start.follow hbase).follow hprover).follow hrequest).follow hstop
  exact ⟨y, hrun.follow hy, hdone⟩

/-- A proof without a base case that was safe at its bound or above comes about exactly where the
steps are of two or more, at every bound of every prover. -/
theorem exists_run_uncovered_proof_iff (c : Config) (k : Nat) (s : Strategy) :
    (∃ events x, Run c events x ∧ (∀ j e, Event.answered .baseCase j (.error e) ∉ events) ∧
      (∀ t j, Event.answered t j .crash ∉ events) ∧ x.stage = .done (.successful k s) ∧
        ∀ j, k ≤ j → Event.answered .baseCase j (.outcome .safe) ∉ events) ↔
      2 ≤ c.increment ∧ c.proves s ∧ k ∈ c.steps 2 := by
  have hstride : c.stride = max 1 c.increment := rfl
  constructor
  · rintro ⟨events, x, hx, herr, -, hd, hnone⟩
    obtain ⟨hs, hsafe, -⟩ := hx.stateBacked.verdict _ hd
    have hk : k ∈ c.steps 2 := by
      rw [← Strategy.firstBound_of_ne (Config.ne_baseCase_of_proves hs)]
      exact (hx.asked_isPrefix_steps s).subset (mem_asked hsafe)
    refine ⟨Nat.le_of_not_lt fun hsmall => ?_, hs, hk⟩
    -- with steps of one the base case has tried the bound of the proof itself
    obtain ⟨i, rfl, -, -⟩ := Config.mem_steps_iff.mp hk
    have hone : c.stride = 1 := by omega
    have hbound : c.baseBound (i + 1) = 2 + i * c.stride := by
      unfold Config.baseBound
      rw [hone]
      omega
    have hcovered := hx.safeThrough_of_successful herr hd (i + 1) (Nat.le_of_eq hbound)
    exact hnone _ (Nat.le_of_eq hbound.symm) hcovered
  · rintro ⟨hc, hs, hk⟩
    obtain ⟨i, hki, hle, hi⟩ := Config.mem_steps_iff.mp hk
    have hbound : k = c.baseBound i + 1 := by
      unfold Config.baseBound
      omega
    subst hbound
    obtain ⟨x, hx, hd⟩ := run_overtaken (by omega) hs hle hi
    refine ⟨_, x, hx, fun j e he => ?_, fun t j hcrash => ?_, hd, fun j hj hsafe => ?_⟩
    · obtain ⟨⟨o, ho⟩, -⟩ := answer_of_mem_overtaken hs he
      cases ho
    · obtain ⟨⟨o, ho⟩, -⟩ := answer_of_mem_overtaken hs hcrash
      cases ho
    · have := (answer_of_mem_overtaken hs hsafe).2 rfl
      omega

/-- The base case was only safe at one when the forward condition is accepted at two. -/
theorem proof_at_two_covered_to_one :
    ∃ events x, Run { maxBound := 2, increment := 2 } events x ∧
      (∀ j e, Event.answered .baseCase j (.error e) ∉ events) ∧
      (∀ t j, Event.answered t j .crash ∉ events) ∧
      x.stage = .done (.successful 2 .forwardCondition) ∧
      ∀ j, 2 ≤ j → Event.answered .baseCase j (.outcome .safe) ∉ events := by
  let c : Config := { maxBound := 2, increment := 2 }
  have hrun : ((State.start c).follow? c
      ([.answered .forwardCondition 2 (.outcome .safe), .sent .forwardCondition 2] ++ turn ++
        [.answered .baseCase 1 (.outcome .safe), .read, .sent .baseCase 0] ++ turn)).map
      State.stage = some (.done (.successful 2 .forwardCondition)) := by
    decide +kernel
  obtain ⟨x, hx, hd⟩ := Option.map_eq_some_iff.mp hrun
  refine ⟨_, x, run_iff_follow?.mpr hx, by simp [turn], by simp [turn], hd, fun j hj => ?_⟩
  simp only [turn, List.cons_append, List.nil_append, List.mem_cons, List.not_mem_nil, or_false,
    Event.answered.injEq, reduceCtorEq, false_and, true_and, and_true, false_or]
  omega

end GotoCheck.Induction
