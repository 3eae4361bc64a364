import GotoCheck.Proofs.Parallel.Asked
import GotoCheck.Proofs.Parallel.Invariant

/-! A base case that errs. It reports as if it had found nothing, and the coordinator takes that for
the end of a search up to the bound it expects. So a proof is accepted beside an error at any bound
of the base case, and these runs are exactly those that the steps allow. -/
namespace GotoCheck.Induction

/-- How a worker passes a bound without a conclusive answer. -/
def passing : Strategy → Nat → List Event
  | .baseCase, k => [.answered .baseCase k (.outcome .safe), .read]
  | s, k => [.answered s k (.outcome .violated)]

/-- How a worker passes the first `i` of its bounds. -/
def passed (c : Config) (s : Strategy) (i : Nat) : List Event :=
  (List.range i).flatMap fun j => passing s (s.firstBound + j * c.stride)

theorem passed_succ (c : Config) (s : Strategy) (i : Nat) :
    passed c s (i + 1) = passed c s i ++ passing s (s.firstBound + i * c.stride) := by
  rw [passed, List.range_succ, List.flatMap_append, List.flatMap_singleton]
  rfl

namespace State

theorem setPhase_setPhase (x : State) (s : Strategy) (p q : Phase) :
    (x.setPhase s p).setPhase s q = x.setPhase s q := by
  cases s <;> rfl

theorem setPhase_get (x : State) (s : Strategy) : x.setPhase s (x.phase.get s) = x := by
  cases s <;> rfl

@[simp]
theorem phase_get_setPhase (x : State) (s : Strategy) (p : Phase) :
    (x.setPhase s p).phase.get s = p := by
  simp [setPhase]

variable {c : Config} {x : State} {s : Strategy} {k : Nat}

theorem follow?_passing (hon : s = .baseCase ∨ c.proves s) (hr : x.requests = [])
    (hl : x.limit = c.largest) (hk : k + c.stride ≤ c.largest)
    (hlt : k + c.stride < Config.boundLimit) :
    (x.setPhase s (.checking k)).follow? c (passing s k) =
      some (x.setPhase s (.checking (k + c.stride))) := by
  have hseek : Phase.seek c.largest (c.next? k) = .checking (k + c.stride) := by
    simp [Config.next?, hlt, Phase.seek, hk]
  -- the base case goes on after a safe answer, a prover after one that is not
  rcases hon with rfl | hp
  · have hread : ((x.setPhase .baseCase (.checking k)).setPhase .baseCase
        (.reading k)).after? c .read = some (x.setPhase .baseCase (.checking (k + c.stride))) := by
      simp only [after?, setPhase, PerWorker.set, hr, List.foldl_nil, hl, hseek]
    simpa [passing, follow?, after?, Config.phaseAfter] using hread
  · have hs : s ≠ .baseCase := Config.ne_baseCase_of_proves hp
    simp [passing, follow?, after?, Config.phaseAfter, hs, hseek, setPhase_setPhase]

/-- A worker at its start can be brought to each bound of its steps. -/
theorem follow?_passed {i : Nat} (hx : x.phase.get s = c.startPhase s)
    (hon : s = .baseCase ∨ c.proves s) (hr : x.requests = []) (hl : x.limit = c.largest)
    (hle : s.firstBound + i * c.stride ≤ c.largest)
    (hi : i = 0 ∨ s.firstBound + i * c.stride < Config.boundLimit) :
    x.follow? c (passed c s i) = some (x.setPhase s (.checking (s.firstBound + i * c.stride))) := by
  -- the induction is on the number of steps from the first bound
  induction i with
  | zero =>
    have hstart : c.startPhase s = .checking (s.firstBound + 0 * c.stride) := by
      rcases hon with rfl | hp
      · simp only [Strategy.firstBound] at hle ⊢
        simp [Config.startPhase, Phase.seek, show 1 ≤ c.largest by omega]
      · cases s <;> simp only [Strategy.firstBound, Config.proves] at hle hp ⊢
        · cases hp
        · simp_all [Config.startPhase, Phase.seek]
        · simp_all [Config.startPhase, Phase.seek]
    rw [passed, List.range_zero, List.flatMap_nil, follow?, ← hstart, ← hx, setPhase_get]
  | succ i ih =>
    have hpos := c.stride_pos
    have hadd : s.firstBound + (i + 1) * c.stride = s.firstBound + i * c.stride + c.stride := by
      rw [Nat.succ_mul]; omega
    have hlt : s.firstBound + (i + 1) * c.stride < Config.boundLimit :=
      hi.resolve_left (Nat.succ_ne_zero i)
    rw [passed_succ, follow?_append (ih (by omega) (.inr (by omega))),
      follow?_passing hon hr hl (by omega) (by omega), hadd]

/-- A worker at its start can be brought to report on an answer at each bound of its steps. -/
theorem follow?_record {i : Nat} (hx : x.phase.get s = c.startPhase s)
    (hon : s = .baseCase ∨ c.proves s) (hr : x.requests = []) (hl : x.limit = c.largest)
    (hle : s.firstBound + i * c.stride ≤ c.largest)
    (hi : i = 0 ∨ s.firstBound + i * c.stride < Config.boundLimit) {a : Answer} {r : Nat}
    (ha : c.phaseAfter s (s.firstBound + i * c.stride) a = .reporting r) :
    x.follow? c (passed c s i ++ [.answered s (s.firstBound + i * c.stride) a, .sent s r]) =
      some { x.setPhase s .ending with messages := x.messages ++ [⟨s, r⟩] } := by
  rw [follow?_append (follow?_passed hx hon hr hl hle hi)]
  simp only [follow?, after?, phase_get_setPhase, ha, if_true, Option.bind_some, setPhase_setPhase]
  rfl

end State

theorem State.inspect_of_ne_ended {c : Config} {x : State} {s : Strategy}
    (h : x.phase.get s ≠ .ended) : x.inspect c s = x := by
  rw [State.inspect, if_neg fun hi => h hi.2]

theorem follow?_inspections {c : Config} {x : State} (hp : ∀ s, x.phase.get s ≠ .ended) :
    { x with stage := .inspecting [.baseCase, .forwardCondition, .inductiveStep] }.follow? c
      [.inspected .baseCase, .inspected .forwardCondition, .inspected .inductiveStep, .settled] =
      some { x with stage := .inspecting [] }.settle := by
  have hsame (g : Stage) (s : Strategy) :
      State.inspect c { x with stage := g } s = { x with stage := g } :=
    State.inspect_of_ne_ended (hp s)
  simp [State.follow?, State.after?, hsame]

/-- A turn in which no worker has ended takes one record and then decides. -/
theorem follow?_turn {c : Config} {x : State} {m : Message} {rest : List Message}
    (hstage : x.stage = .polling) (hrun : x.allFinished = false) (hm : x.messages = m :: rest)
    (hp : ∀ s, x.phase.get s ≠ .ended) :
    x.follow? c turn =
      some { ({ x with messages := rest }.accept m) with stage := .inspecting [] }.settle := by
  have hphase : ({ x with messages := rest }.accept m).phase = x.phase :=
    congrArg Prod.fst (State.workers_accept _ m)
  have hpoll : x.after? c .polled = some { ({ x with messages := rest }.accept m) with
      stage := .inspecting [.baseCase, .forwardCondition, .inductiveStep] } := by
    simp [State.after?, State.poll, hstage, hrun, hm]
  rw [turn, State.follow?, hpoll, Option.bind_some]
  exact follow?_inspections fun s => by rw [hphase]; exact hp s

/-- With the records of the base case and of a prover on their way, from workers that still run,
the coordinator takes the proof in its second turn. -/
theorem follow?_turns {c : Config} {s : Strategy} {k l e : Nat} {p : PerWorker Phase}
    (hs : c.proves s) (hp : ∀ t, p.get t ≠ .ended) (hk : k ≠ 0) (hle : k ≤ e) :
    ((State.mk p l [⟨.baseCase, 0⟩, ⟨s, k⟩] [] ⟨.running, .running, .running⟩ e
      .polling).follow? c (turn ++ turn)).map State.stage = some (.done (.successful k s)) := by
  have hfirst : (State.mk p l [⟨.baseCase, 0⟩, ⟨s, k⟩] [] ⟨.running, .running, .running⟩ e
      .polling).follow? c turn =
      some (State.mk p l [⟨s, k⟩] [] ⟨.reported 0, .running, .running⟩ e .polling) := by
    rw [follow?_turn rfl rfl rfl hp]
    rfl
  rw [State.follow?_append hfirst, follow?_turn rfl rfl rfl hp]
  cases s with
  | baseCase => cases hs
  | forwardCondition =>
    simp [State.settle, State.accept, PerWorker.get, PerWorker.set, State.proof?, State.verdict,
      Standing.solution?, hk, hle]
  | inductiveStep =>
    simp [State.settle, State.accept, PerWorker.get, PerWorker.set, State.proof?, State.verdict,
      Standing.solution?, hk, hle]

theorem startPhase_ne_ended (c : Config) (s : Strategy) : c.startPhase s ≠ .ended := by
  rcases c.startPhase_eq s with ⟨k, hk⟩ | hk <;> rw [hk] <;> exact Phase.noConfusion

/-- The base case errs at one of its bounds, a prover is through at one of its own, and then the
coordinator takes the two records. -/
theorem exists_run_error_then_proof {c : Config} {j k : Nat} {s : Strategy} (err : CheckerError)
    (hj : j ∈ c.steps 1) (hs : c.proves s) (hk : k ∈ c.steps 2) :
    ∃ events x, Run c events x ∧ Event.answered .baseCase j (.error err) ∈ events ∧
      x.stage = .done (.successful k s) := by
  have hne : s ≠ .baseCase := Config.ne_baseCase_of_proves hs
  have hfirst := Strategy.firstBound_of_ne hne
  obtain ⟨n, rfl, hjle, hn⟩ := Config.mem_steps_iff.mp hj
  obtain ⟨i, hki, hle, hi⟩ := Config.mem_steps_iff.mp hk
  rw [← hfirst] at hki
  -- the base case runs first, up to its error, and sends the record of one that has found nothing
  have hbase := State.follow?_record (x := .start c) (s := .baseCase) (i := n) (r := 0) rfl
    (.inl rfl) rfl rfl hjle hn (a := .error err) rfl
  have hstart : ((State.start c).setPhase .baseCase .ending).phase.get s = c.startPhase s := by
    rw [State.setPhase, PerWorker.get_set_of_ne _ _ hne, State.phase_start]
  have hprover := State.follow?_record (i := i) (r := k)
    (x := { (State.start c).setPhase .baseCase .ending with messages := [⟨.baseCase, 0⟩] })
    hstart (.inr hs) rfl rfl (hki ▸ hle) (by rwa [← hki]) (a := .outcome .safe)
    (by simp [Config.phaseAfter, hne, hki])
  -- no worker has ended yet, so the coordinator does not look for dead ones
  have hlive (t : Strategy) :
      (((State.start c).phase.set .baseCase .ending).set s .ending).get t ≠ .ended := by
    by_cases hts : t = s
    · subst hts
      simp
    · rw [PerWorker.get_set_of_ne _ _ hts]
      by_cases ht : t = .baseCase
      · subst ht
        exact Phase.noConfusion
      · rw [PerWorker.get_set_of_ne _ _ ht, State.phase_start]
        exact startPhase_ne_ended c t
  have hturns := follow?_turns (l := c.largest) hs hlive (by omega) hle
  obtain ⟨y, hy, hdone⟩ := Option.map_eq_some_iff.mp hturns
  have hworkers := (Run.start.follow hbase).follow hprover
  refine ⟨_, y, hworkers.follow hy, ?_, hdone⟩
  simp [Strategy.firstBound]

/-- An error of the base case at one bound and a proof accepted at another go together whenever both
are bounds that the workers try. -/
theorem exists_run_error_and_proof_iff (c : Config) (err : CheckerError) (j k : Nat)
    (s : Strategy) :
    (∃ events x, Run c events x ∧ Event.answered .baseCase j (.error err) ∈ events ∧
      x.stage = .done (.successful k s)) ↔
      j ∈ c.steps 1 ∧ c.proves s ∧ k ∈ c.steps 2 := by
  constructor
  · intro hx
    obtain ⟨events, x, hx, herr, hd⟩ := hx
    -- both bounds were asked for, and nothing is asked for outside the steps
    obtain ⟨hs, hsafe, -⟩ := hx.stateBacked.verdict _ hd
    have hfirst := Strategy.firstBound_of_ne (Config.ne_baseCase_of_proves hs)
    refine ⟨(hx.asked_isPrefix_steps .baseCase).subset (mem_asked herr), hs, ?_⟩
    rw [← hfirst]
    exact (hx.asked_isPrefix_steps s).subset (mem_asked hsafe)
  · intro hx
    obtain ⟨hj, hs, hk⟩ := hx
    exact exists_run_error_then_proof err hj hs hk

/-- The base case errs at two, the forward condition is through at four. -/
theorem proof_at_four_after_error_at_two :
    ∃ events x err, Run { maxBound := 20 } events x ∧
      Event.answered .baseCase 2 (.error err) ∈ events ∧
      x.stage = .done (.successful 4 .forwardCondition) := by
  have hrun : ∃ x, (State.start { maxBound := 20 }).follow? { maxBound := 20 }
      ([.answered .baseCase 1 (.outcome .safe), .read,
        .answered .baseCase 2 (.error (.failed .baseCase 2 "")), .sent .baseCase 0,
        .answered .forwardCondition 2 (.outcome .violated),
        .answered .forwardCondition 3 (.outcome .violated),
        .answered .forwardCondition 4 (.outcome .safe), .sent .forwardCondition 4] ++
        (turn ++ turn)) = some x ∧ x.stage = .done (.successful 4 .forwardCondition) :=
    ⟨_, rfl, rfl⟩
  obtain ⟨x, hx, hd⟩ := hrun
  exact ⟨_, x, .failed .baseCase 2 "", run_iff_follow?.mpr hx, by simp, hd⟩

end GotoCheck.Induction
