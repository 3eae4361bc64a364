import GotoCheck.Proofs.Parallel.Exhaustion
import GotoCheck.Proofs.Parallel.Soundness
import GotoCheck.Proofs.KInduction

/-! The search and the parallel checks agree where the order of the answers cannot matter. What
either of them says rests on the answers alone, and the answers bear out only one verdict. -/
namespace GotoCheck.Induction
variable {f : Query → Except CheckerError Outcome} {c : Config} {events : List Event} {x : State}
variable {v w : Verdict} {s : Strategy} {b j k : Nat}

/-- The base case is violated at `b` and at no bound before it. Bounds count from one. -/
structure FirstViolation (f : Query → Except CheckerError Outcome) (b : Nat) : Prop where
  pos : 1 ≤ b
  violated : f ⟨.baseCase, b⟩ = .ok .violated
  before : ∀ j, 1 ≤ j → j < b → f ⟨.baseCase, j⟩ ≠ .ok .violated

/-- Answers by which the verdict cannot depend on timing: no error comes between, the forward
condition stays safe, and the first violation is within every proof. -/
structure Timeless (f : Query → Except CheckerError Outcome) (c : Config) : Prop where
  base : ∀ k e, f ⟨.baseCase, k⟩ ≠ .error e
  forward : ∀ k e, f ⟨.forwardCondition, k⟩ ≠ .error e
  step : (∀ k e, f ⟨.inductiveStep, k⟩ ≠ .error e) ∨ ∀ k, ∃ e, f ⟨.inductiveStep, k⟩ = .error e
  stays : ∀ j k, 1 ≤ j → j ≤ k → f ⟨.forwardCondition, j⟩ = .ok .safe →
    f ⟨.forwardCondition, k⟩ = .ok .safe
  first : ∀ b, FirstViolation f b → b ≤ c.largest → ∀ s k, c.proves s → 1 ≤ k →
    (s = .inductiveStep → 2 ≤ k) → f ⟨s, k⟩ = .ok .safe → b ≤ k

/-- A prover and a bound at which it may prove the property. -/
structure Config.Tries (c : Config) (s : Strategy) (k : Nat) : Prop where
  proves : c.proves s
  mem_steps : k ∈ c.steps 1
  two_le : s = .inductiveStep → 2 ≤ k

/-- What the answers have to be for a verdict. -/
def Rests (f : Query → Except CheckerError Outcome) (c : Config) : Verdict → Prop
  | .failed b => b ∈ c.steps 1 ∧ FirstViolation f b
  | .successful k s => (∀ j ∈ c.steps 1, f ⟨.baseCase, j⟩ ≠ .ok .violated) ∧
      c.Tries s k ∧ f ⟨s, k⟩ = .ok .safe
  | .unknown => (∀ j ∈ c.steps 1, f ⟨.baseCase, j⟩ ≠ .ok .violated) ∧
      ∀ s k, c.Tries s k → f ⟨s, k⟩ ≠ .ok .safe

section Verdicts

theorem FirstViolation.eq (hb : FirstViolation f b) (hk : FirstViolation f k) : b = k := by
  rcases Nat.lt_trichotomy b k with hlt | heq | hgt
  · exact absurd hb.violated (hk.before b hb.pos hlt)
  · exact heq
  · exact absurd hk.violated (hb.before k hk.pos hgt)

theorem exists_firstViolation (hk : 1 ≤ k) (h : f ⟨.baseCase, k⟩ = .ok .violated) :
    ∃ b ≤ k, FirstViolation f b := by
  induction k using Nat.strongRecOn with
  | _ k ih =>
    by_cases hbefore : ∃ j, 1 ≤ j ∧ j < k ∧ f ⟨.baseCase, j⟩ = .ok .violated
    · obtain ⟨j, hj, hjk, hviolated⟩ := hbefore
      obtain ⟨b, hb, hfirst⟩ := ih j hjk hj hviolated
      exact ⟨b, Nat.le_trans hb (Nat.le_of_lt hjk), hfirst⟩
    · exact ⟨k, Nat.le_refl k, hk, h, fun j hj hjk hj' => hbefore ⟨j, hj, hjk, hj'⟩⟩

/-- The answers bear out only one verdict, up to which of the proofs it names. -/
theorem Rests.agree (hv : Rests f c v) (hw : Rests f c w) :
    (∀ b, v = .failed b ↔ w = .failed b) ∧
      ((∃ k s, v = .successful k s ∧ c.proves s ∧ f ⟨s, k⟩ = .ok .safe) ↔
        ∃ k s, w = .successful k s) ∧
      (v = .unknown ↔ w = .unknown) := by
  cases v with
  | failed b =>
    obtain ⟨hb, hfirst⟩ := hv
    cases w with
    | failed b' => simp [hfirst.eq hw.2]
    | successful k s => exact absurd hfirst.violated (hw.1 b hb)
    | unknown => exact absurd hfirst.violated (hw.1 b hb)
  | successful k s =>
    obtain ⟨hnone, htries, hsafe⟩ := hv
    cases w with
    | failed b => exact absurd hw.2.violated (hnone b hw.1)
    | successful k' s' =>
      refine ⟨fun b => by simp, ?_, by simp⟩
      exact iff_of_true ⟨k, s, rfl, htries.proves, hsafe⟩ ⟨k', s', rfl⟩
    | unknown => exact absurd hsafe (hw.2 s k htries)
  | unknown =>
    obtain ⟨hnone, hproof⟩ := hv
    cases w with
    | failed b => exact absurd hw.2.violated (hnone b hw.1)
    | successful k s => exact absurd hw.2.2 (hproof s k hw.2.1)
    | unknown => simp

/-- A proof beside bounds without a violation up to it leaves no room for one above. -/
theorem Timeless.no_violation (hf : Timeless f c) (htries : c.Tries s k)
    (hsafe : f ⟨s, k⟩ = .ok .safe)
    (hbelow : ∀ j, 1 ≤ j → j ≤ k → f ⟨.baseCase, j⟩ ≠ .ok .violated) :
    ∀ j ∈ c.steps 1, f ⟨.baseCase, j⟩ ≠ .ok .violated := by
  intro j hj hviolated
  -- the first violation is within the proof, where there is none
  obtain ⟨i, -, hle, -⟩ := Config.mem_steps_iff.mp hj
  obtain ⟨b, hbj, hfirst⟩ := exists_firstViolation (Config.le_of_mem_steps hj) hviolated
  have hbk := hf.first b hfirst (Nat.le_trans hbj hle) s k htries.proves
    (Config.le_of_mem_steps htries.mem_steps) htries.two_le hsafe
  exact hbelow b hfirst.pos hbk hfirst.violated

end Verdicts

section Sequential

/-- With steps of one the bounds below a step are steps. -/
theorem mem_steps_of_le (hc : c.increment ≤ 1) (hk : k ∈ c.steps 1) (hj : 1 ≤ j) (hjk : j ≤ k) :
    j ∈ c.steps 1 := by
  rw [Config.mem_steps_iff_of_stride (Config.stride_eq_one hc)] at hk ⊢
  omega

/-- At a bound where a prover has a proof, something decides. -/
theorem Config.Tries.exists_decides (htries : c.Tries s k) (hsafe : f ⟨s, k⟩ = .ok .safe) :
    ∃ r, Decides f c k r := by
  cases hbase : f ⟨.baseCase, k⟩ with
  | error e => exact ⟨_, .baseError hbase⟩
  | ok o =>
    cases o with
    | violated => exact ⟨_, .violated hbase⟩
    | safe =>
      cases s with
      | baseCase => cases htries.proves
      | forwardCondition =>
        exact ⟨_, .covered hbase (by simpa [Config.proves] using htries.proves) hsafe⟩
      | inductiveStep =>
        have hon : c.inductiveDisabled = false := by simpa [Config.proves] using htries.proves
        have hone : 1 < k := htries.two_le rfl
        cases hforward : c.forwardDisabled with
        | true => exact ⟨_, .induced hbase (.inl hforward) hone hon hsafe⟩
        | false =>
          cases hcovered : f ⟨.forwardCondition, k⟩ with
          | error e => exact ⟨_, .forwardError hbase hforward hcovered⟩
          | ok o =>
            cases o with
            | violated => exact ⟨_, .induced hbase (.inr hcovered) hone hon hsafe⟩
            | safe => exact ⟨_, .covered hbase hforward hcovered⟩

theorem Timeless.rests_kInduction (hf : Timeless f c) (hc : c.increment ≤ 1) :
    ∃ w, (kInduction (.ofFunction f) c).verdict = .ok w ∧ Rests f c w := by
  generalize hr : (kInduction (.ofFunction f) c).verdict = r
  rcases verdict_kInduction_eq_iff.mp hr with ⟨k, hk, hdecides⟩ | ⟨hnone, rfl⟩
  · have hpos := Config.le_of_mem_steps hk.1
    -- the base case was safe at the bounds before
    have hbelow : ∀ j, 1 ≤ j → j < k → f ⟨.baseCase, j⟩ ≠ .ok .violated := by
      intro j hj hjk
      rw [hk.safe (mem_steps_of_le hc hk.1 hj (Nat.le_of_lt hjk)) hjk]
      exact nofun
    have hproof (s : Strategy) (hbase : f ⟨.baseCase, k⟩ = .ok .safe) (htries : c.Tries s k)
        (hsafe : f ⟨s, k⟩ = .ok .safe) : Rests f c (.successful k s) := by
      refine ⟨hf.no_violation htries hsafe fun j hj hjk => ?_, htries, hsafe⟩
      rcases Nat.lt_or_eq_of_le hjk with hlt | rfl
      · exact hbelow j hj hlt
      · rw [hbase]
        exact nofun
    cases hdecides with
    | violated hviolated => exact ⟨_, rfl, hk.1, hpos, hviolated, hbelow⟩
    | covered hbase hon hsafe =>
      exact ⟨_, rfl, hproof _ hbase ⟨by simp [Config.proves, hon], hk.1, nofun⟩ hsafe⟩
    | induced hbase _ hone hon hsafe =>
      exact ⟨_, rfl, hproof _ hbase ⟨by simp [Config.proves, hon], hk.1, fun _ => hone⟩ hsafe⟩
    | baseError he => exact absurd he (hf.base k _)
    | forwardError _ _ he => exact absurd he (hf.forward k _)
  · refine ⟨.unknown, rfl, fun j hj hviolated => hnone j hj _ (.violated hviolated), ?_⟩
    intro s k htries hsafe
    obtain ⟨r, hdecides⟩ := htries.exists_decides hsafe
    exact hnone k htries.mem_steps r hdecides

end Sequential

section Parallel

def Answer.ofResult : Except CheckerError Outcome → Answer
  | .ok o => .outcome o
  | .error e => .error e

/-- All workers have had the answers of `f`. -/
def AnswersLike (f : Query → Except CheckerError Outcome) (events : List Event) : Prop :=
  ∀ s k a, Event.answered s k a ∈ events → a = .ofResult (f ⟨s, k⟩)

theorem AnswersLike.outcome (h : AnswersLike f events) {o : Outcome}
    (hmem : Event.answered s k (.outcome o) ∈ events) : f ⟨s, k⟩ = .ok o := by
  have ha := h s k _ hmem
  cases hf : f ⟨s, k⟩ with
  | ok o' =>
    rw [hf] at ha
    cases ha
    rfl
  | error e =>
    rw [hf] at ha
    cases ha

theorem AnswersLike.error (h : AnswersLike f events) {e : CheckerError}
    (hmem : Event.answered s k (.error e) ∈ events) : f ⟨s, k⟩ = .error e := by
  have ha := h s k _ hmem
  cases hf : f ⟨s, k⟩ with
  | ok o =>
    rw [hf] at ha
    cases ha
  | error e' =>
    rw [hf] at ha
    cases ha
    rfl

theorem AnswersLike.unbroken (h : AnswersLike f events) : Unbroken events := by
  intro s k hmem
  have ha := h s k _ hmem
  cases hf : f ⟨s, k⟩ <;> rw [hf] at ha <;> cases ha

/-- A prover that is through without an answer is never safe where it counts. -/
theorem Timeless.not_safe_of_exhausted (hf : Timeless f c) (hc : c.increment ≤ 1)
    (hlarge : 2 ≤ c.largest) (hlike : AnswersLike f events) (h : Exhausted c events s)
    (htries : c.Tries s k) : f ⟨s, k⟩ ≠ .ok .safe := by
  have hfirst := Strategy.firstBound_of_ne (Config.ne_baseCase_of_proves htries.proves)
  have hstride := Config.stride_eq_one hc
  have hlimit : 2 < Config.boundLimit := by decide
  have hpos := Config.le_of_mem_steps htries.mem_steps
  intro hsafe
  rcases h with hall | ⟨j, e, he⟩
  -- it has been through all of its bounds
  · rw [hfirst] at hall
    rcases Nat.lt_or_ge k 2 with hsmall | hk
    · -- only the forward condition counts at one, and then it is safe at two as well
      cases s with
      | baseCase => cases htries.proves
      | forwardCondition =>
        have htwo := hf.stays k 2 hpos (Nat.le_of_lt hsmall) hsafe
        have hmem : 2 ∈ c.steps 2 :=
          (Config.mem_steps_iff_of_stride hstride).mpr ⟨Nat.le_refl 2, hlarge, .inl rfl⟩
        rw [hlike.outcome (hall 2 hmem)] at htwo
        cases htwo
      | inductiveStep =>
        have := htries.two_le rfl
        omega
    · have hmem : k ∈ c.steps 2 := by
        have := (Config.mem_steps_iff_of_stride hstride).mp htries.mem_steps
        rw [Config.mem_steps_iff_of_stride hstride]
        omega
      rw [hlike.outcome (hall k hmem)] at hsafe
      cases hsafe
  -- or it has erred, and then it is the inductive step and errs everywhere
  · have hj := hlike.error he
    cases s with
    | baseCase => cases htries.proves
    | forwardCondition => exact hf.forward j e hj
    | inductiveStep =>
      rcases hf.step with hnever | halways
      · exact hnever j e hj
      · obtain ⟨e', he'⟩ := halways k
        rw [he'] at hsafe
        cases hsafe

theorem SafeThrough.not_violated (hc : c.increment ≤ 1) (hlike : AnswersLike f events) {n : Nat}
    (h : SafeThrough c events n) (hj : 1 ≤ j) (hn : j ≤ n) :
    f ⟨.baseCase, j⟩ ≠ .ok .violated := by
  rw [hlike.outcome (h.every hc hj hn)]
  exact nofun

theorem Run.rests (hx : Run c events x) (hf : Timeless f c) (hc : c.increment ≤ 1)
    (hlarge : 2 ≤ c.largest) (hlike : AnswersLike f events) (hd : x.stage = .done v) :
    Rests f c v := by
  have hbase : ¬BaseErred events := by
    rintro ⟨j, e, he⟩
    exact hf.base j e (hlike.error he)
  have hstride := Config.stride_eq_one hc
  have hbacked := hx.stateBacked.verdict v hd
  -- failures and proofs come with their evidence; what comes to nothing has tried everything
  cases v with
  | failed b =>
    obtain ⟨hviolated, hsafe⟩ := hbacked
    have hmem := (hx.asked_isPrefix_steps .baseCase).subset (mem_asked hviolated)
    refine ⟨hmem, Config.le_of_mem_steps hmem, hlike.outcome hviolated, fun j hj hjb => ?_⟩
    exact hsafe.not_violated hc hlike hj (by omega)
  | successful k s =>
    obtain ⟨hproves, hsafe, hcovered⟩ := hbacked
    have hmem := (hx.asked_isPrefix_steps s).subset (mem_asked hsafe)
    rw [Strategy.firstBound_of_ne (Config.ne_baseCase_of_proves hproves),
      Config.mem_steps_iff_of_stride hstride] at hmem
    have hlimit : 2 < Config.boundLimit := by decide
    have htries : c.Tries s k :=
      ⟨hproves, (Config.mem_steps_iff_of_stride hstride).mpr (by omega), fun _ => hmem.1⟩
    refine ⟨hf.no_violation htries (hlike.outcome hsafe) fun j hj hjk => ?_, htries,
      hlike.outcome hsafe⟩
    exact (hcovered.resolve_right hbase).not_violated hc hlike hj hjk
  | unknown =>
    obtain ⟨hcovered, hexhausted⟩ := hx.exhausted_of_unknown hlike.unbroken hd
    refine ⟨fun j hj => ?_, fun s k htries => ?_⟩
    · have hsteps := (Config.mem_steps_iff_of_stride hstride).mp hj
      have hlimit : 1 < Config.boundLimit := by decide
      exact (hcovered.resolve_right hbase).not_violated hc hlike hsteps.1 (by omega)
    · exact hf.not_safe_of_exhausted hc hlarge hlike (hexhausted s htries.proves) htries

end Parallel

/-- Whatever the order of events, a run of the parallel checks that ends comes to what the search
comes to, but may name another proof. -/
theorem parallel_agrees_with_search (hf : Timeless f c) (hc : c.increment ≤ 1)
    (hlarge : 2 ≤ c.largest) (hx : Run c events x) (hlike : AnswersLike f events)
    (hd : x.stage = .done v) :
    ∃ w, (kInduction (.ofFunction f) c).verdict = .ok w ∧ (∀ b, v = .failed b ↔ w = .failed b) ∧
      ((∃ k s, v = .successful k s ∧ c.proves s ∧ f ⟨s, k⟩ = .ok .safe) ↔
        ∃ k s, w = .successful k s) ∧
      (v = .unknown ↔ w = .unknown) := by
  obtain ⟨w, hw, hrests⟩ := hf.rests_kInduction hc
  exact ⟨w, hw, (hx.rests hf hc hlarge hlike hd).agree hrests⟩

/-- Violated from two on, beside a forward condition that is safe from three on and an inductive
step that does not apply. -/
def bugAtTwo (q : Query) : Except CheckerError Outcome :=
  match q.strategy with
  | .baseCase => .ok (if 2 ≤ q.bound then .violated else .safe)
  | .forwardCondition => .ok (if 3 ≤ q.bound then .safe else .violated)
  | .inductiveStep => .error (.unsupported .inductiveStep "no single loop")

/-- The proof at three is known, and asked to be confirmed, before the base case has begun. -/
def requestBeforeBug : List Event :=
  [.answered .forwardCondition 2 (.outcome .violated),
    .answered .forwardCondition 3 (.outcome .safe), .sent .forwardCondition 3,
    .answered .inductiveStep 2 (.error (.unsupported .inductiveStep "no single loop")),
    .sent .inductiveStep 0] ++ turn ++
  [.answered .baseCase 1 (.outcome .safe), .read, .answered .baseCase 2 (.outcome .violated),
    .sent .baseCase 2] ++ turn ++ turn

theorem bugAtTwo_timeless : Timeless bugAtTwo { maxBound := 5 } where
  base _ _ := nofun
  forward _ _ := nofun
  step := .inr fun _ => ⟨_, rfl⟩
  stays j k _ hjk hj := by
    simp only [bugAtTwo, Except.ok.injEq, ite_eq_left_iff, reduceCtorEq, imp_false] at hj ⊢
    omega
  first b hb _ s k hs _ _ hk := by
    have hle : b ≤ 2 := Nat.le_of_not_lt fun hlt => hb.before 2 (by decide) hlt rfl
    cases s with
    | baseCase => cases hs
    | forwardCondition =>
      simp only [bugAtTwo, Except.ok.injEq, ite_eq_left_iff, reduceCtorEq, imp_false] at hk
      omega
    | inductiveStep => cases hk

theorem search_agrees_on_requestBeforeBug :
    ∃ x, Run { maxBound := 5 } requestBeforeBug x ∧ x.stage = .done (.failed 2) ∧
      (kInduction (.ofFunction bugAtTwo) { maxBound := 5 }).verdict = .ok (.failed 2) := by
  have hrun : ((State.start { maxBound := 5 }).follow? { maxBound := 5 } requestBeforeBug).map
      State.stage = some (.done (.failed 2)) := by
    decide +kernel
  obtain ⟨x, hx, hd⟩ := Option.map_eq_some_iff.mp hrun
  have hlike : AnswersLike bugAtTwo requestBeforeBug := by
    intro s k a h
    simp only [requestBeforeBug, turn, List.cons_append, List.nil_append, List.mem_cons,
      List.not_mem_nil, or_false, false_or, reduceCtorEq, Event.answered.injEq] at h
    rcases h with ⟨rfl, rfl, rfl⟩ | ⟨rfl, rfl, rfl⟩ | ⟨rfl, rfl, rfl⟩ | ⟨rfl, rfl, rfl⟩ |
      ⟨rfl, rfl, rfl⟩ <;> rfl
  obtain ⟨w, hw, hfailed, -, -⟩ := parallel_agrees_with_search bugAtTwo_timeless (by decide)
    (by decide) (run_iff_follow?.mpr hx) hlike hd
  exact ⟨x, run_iff_follow?.mpr hx, hd, hw.trans (congrArg _ ((hfailed 2).mp rfl))⟩

end GotoCheck.Induction
