import GotoCheck.Proofs.Parallel.Workers

/-! The bounds of the workers. A worker whose checker answers comes to its record, and the record
and the bounds that it has called the checker at tell of each other. Whatever requests reach the
base case, its bounds are the first ones of the configuration. -/
namespace GotoCheck.Induction
variable {c : Config} {s : Strategy} {e : Event} {events : List Event} {x y : State}
variable {limit k : Nat} {l received : List Nat} {a : Answer} {as : List (Nat × Answer)} {p : Phase}

/-- What a worker does by itself, where its checker answers as `f` says. -/
def OwnEvent (s : Strategy) (f : Nat → Answer) : Event → Prop
  | .answered t k a => t = s ∧ a = f k
  | .read => s = .baseCase
  | .sent t _ => t = s
  | _ => False

/-- The worker's own events lead to its record. -/
def Finishes (c : Config) (s : Strategy) (f : Nat → Answer) (events : List Event) (x : State) :
    Prop :=
  ∃ es received y k, (∀ e ∈ es, OwnEvent s f e) ∧ x.follow? c es = some y ∧
    RequestedRun c (events ++ es) received y ∧ Event.sent s k ∈ events ++ es

namespace Finishes
variable {f : Nat → Answer}

theorem of_sent (hx : RequestedRun c events received x) (hk : Event.sent s k ∈ events) :
    Finishes c s f events x :=
  ⟨[], received, x, k, nofun, rfl, by rwa [List.append_nil], by rwa [List.append_nil]⟩

theorem of_after (he : OwnEvent s f e) (hy : x.after? c e = some y)
    (h : Finishes c s f (events ++ [e]) y) : Finishes c s f events x := by
  obtain ⟨es, received, z, k, hown, hz, hrun, hk⟩ := h
  rw [List.append_assoc, List.singleton_append] at hrun hk
  refine ⟨e :: es, received, z, k, List.forall_mem_cons.mpr ⟨he, hown⟩, ?_, hrun, hk⟩
  rw [State.follow?, hy, Option.bind_some, hz]

theorem of_reporting (hx : RequestedRun c events received x) (hk : x.phase.get s = .reporting k) :
    Finishes c s f events x := by
  have hy : x.after? c (.sent s k) =
      some { x.setPhase s .ending with messages := x.messages ++ [⟨s, k⟩] } := if_pos hk
  have hown : OwnEvent s f (.sent s k) := rfl
  have hsent : Event.sent s k ∈ events ++ [.sent s k] := by simp
  exact of_after hown hy (of_sent (hx.next hy) hsent)

/-- After a check the worker reports or checks a greater bound. -/
theorem of_seek (hx : RequestedRun c events received x) (hlimit : limit ≤ c.largest)
    (hphase : x.phase.get s = .seek limit (c.next? k))
    (hgreater : ∀ n, k < n → n ≤ c.largest → x.phase.get s = .checking n →
      Finishes c s f events x) : Finishes c s f events x := by
  cases hn : c.next? k with
  | none => exact of_reporting hx (by rw [hphase, hn, Phase.seek])
  | some n =>
    obtain ⟨rfl, -⟩ := Config.next?_eq_some hn
    simp only [hn, Phase.seek] at hphase
    split at hphase
    · exact hgreater _ (by have := c.stride_pos; omega) (by omega) hphase
    · exact of_reporting hx hphase

theorem of_reading (hs : s = .baseCase) (hx : RequestedRun c events received x)
    (hk : x.phase.get s = .reading k)
    (hgreater : ∀ received' y, RequestedRun c (events ++ [.read]) received' y → ∀ n, k < n →
      n ≤ c.largest → y.phase.get s = .checking n → Finishes c s f (events ++ [.read]) y) :
    Finishes c s f events x := by
  subst hs
  have hbase : x.phase.baseCase = .reading k := hk
  have hread : ∃ y, x.after? c .read = some y ∧
      y.phase.get .baseCase = .seek (x.requests.foldl min x.limit) (c.next? k) := by
    simp only [State.after?, hbase]
    exact ⟨_, rfl, by simp [State.setPhase]⟩
  obtain ⟨y, hy, hphase⟩ := hread
  have hlimit : x.requests.foldl min x.limit ≤ c.largest :=
    Nat.le_trans (List.foldl_min_le _ _) (hx.stop_le .baseCase)
  have hown : OwnEvent .baseCase f .read := rfl
  exact of_after hown hy (of_seek (hx.next hy) hlimit hphase (hgreater _ y (hx.next hy)))

theorem of_checking {events : List Event} {received : List Nat} {x : State} {k : Nat}
    (hf : ∀ k, f k ≠ .crash) (hx : RequestedRun c events received x)
    (hk : x.phase.get s = .checking k) : Finishes c s f events x := by
  have hy : x.after? c (.answered s k (f k)) = some (x.setPhase s (c.phaseAfter s k (f k))) :=
    if_pos hk
  have hown : OwnEvent s f (.answered s k (f k)) := ⟨rfl, rfl⟩
  have hrun := hx.next hy
  have hphase : (x.setPhase s (c.phaseAfter s k (f k))).phase.get s = c.phaseAfter s k (f k) :=
    PerWorker.get_set_self _ _ _
  refine of_after hown hy ?_
  -- an answer that does not end in a record at once leads to a greater bound
  cases hfk : f k with
  | crash => exact absurd hfk (hf k)
  | error e =>
    rw [hfk] at hphase hrun
    exact of_reporting hrun hphase
  | outcome o =>
    rw [hfk] at hphase hrun
    by_cases hs : s = .baseCase
    · cases o with
      | violated =>
        have hafter : c.phaseAfter s k (.outcome .violated) = .reporting k := if_pos hs
        exact of_reporting hrun (hphase.trans hafter)
      | safe =>
        have hafter : c.phaseAfter s k (.outcome .safe) = .reading k := if_pos hs
        refine of_reading hs hrun (hphase.trans hafter) fun received' z hz n hlt hn hcheck => ?_
        exact of_checking hf hz hcheck
    · cases o with
      | violated =>
        have hafter : c.phaseAfter s k (.outcome .violated) = .seek c.largest (c.next? k) :=
          if_neg hs
        refine of_seek hrun (Nat.le_refl _) (hphase.trans hafter) fun n hlt hn hcheck => ?_
        exact of_checking hf hrun hcheck
      | safe =>
        have hafter : c.phaseAfter s k (.outcome .safe) = .reporting k := if_neg hs
        exact of_reporting hrun (hphase.trans hafter)
termination_by c.largest + 1 - k

end Finishes

/-- A worker that has neither crashed nor been cancelled comes to its record. -/
theorem RequestedRun.finishes {f : Nat → Answer} (hx : RequestedRun c events received x)
    (hs : c.runs s) (hcancelled : Event.cancelled s ∉ events)
    (hcrash : ∀ k, Event.answered s k .crash ∉ events) (hf : ∀ k, f k ≠ .crash) :
    Finishes c s f events x := by
  have hw := hx.workerFollows hs
  by_cases hover : (x.phase.get s).isOver
  · rcases hw.finished hover with ⟨k, hk⟩ | h | ⟨k, hk⟩
    · exact .of_sent hx hk
    · exact absurd h hcancelled
    · exact absurd hk (hcrash k)
  · cases hp : x.phase.get s with
    | checking k => exact .of_checking hf hx hp
    | reading k =>
      have hfollows := hw.phase
      rw [hp] at hfollows
      obtain ⟨hbase, -⟩ := hfollows
      exact .of_reading hbase hx hp fun _ y hy n _ _ hcheck => .of_checking hf hy hcheck
    | reporting k => exact .of_reporting hx hp
    | ending => exact absurd (congrArg Phase.isOver hp) hover
    | ended => exact absurd (congrArg Phase.isOver hp) hover

/-! The two kinds of worker. -/

theorem Config.firstSteps_eq_take (n k : Nat) : c.firstSteps n k = (c.steps k).take n := by
  induction n generalizing k with
  | zero => rfl
  | succ n ih =>
    by_cases hk : k ≤ c.largest
    · rw [firstSteps, if_pos hk, steps_of_le hk, List.take_succ_cons]
      cases c.next? k with
      | none => simp
      | some m => simp [ih]
    · rw [firstSteps, if_neg hk, steps, if_neg hk, List.take_nil]

/-- The bounds from `a` on are all numbers at the stride that the configuration allows, in ascending
order. -/
structure StepsExact (c : Config) (a : Nat) : Prop where
  ascending : (c.steps a).Pairwise (· < ·)
  complete : ∀ k, k ∈ c.steps a ↔ (∃ i, k = a + i * max 1 c.increment) ∧ k ≤ c.largest
  cut : ∀ n, c.firstSteps n a = (c.steps a).take n

theorem stepsExact (hc : c.maxBound < Config.boundLimit) (a : Nat) : StepsExact c a where
  ascending := Config.pairwise_steps c a
  complete k := by
    have hlargest : c.largest < Config.boundLimit := by
      unfold Config.largest
      split
      · decide
      · exact hc
    rw [Config.mem_steps_iff]
    constructor
    · rintro ⟨i, hi, hle, -⟩
      exact ⟨⟨i, hi⟩, hle⟩
    · rintro ⟨⟨i, hi⟩, hle⟩
      exact ⟨i, hi, hle, .inr (by omega)⟩
  cut n := c.firstSteps_eq_take n a

/-- The bounds that a worker has called the checker at, and the one that it is about to. -/
def called (events : List Event) (x : State) (s : Strategy) : List Nat :=
  asked events s ++ (x.phase.get s).pending

/-- What the base case has done in a run in which it has read the requests `received`. -/
structure BaseCaseFollows (c : Config) (events : List Event) (received : List Nat) (x : State) :
    Prop where
  bounds : called events x .baseCase <+: c.steps 1
  violated : ∀ k, Event.sent .baseCase k ∈ events → k ≠ 0 → ∃ l,
    answers events .baseCase = l.map (fun j => (j, .outcome .safe)) ++ [(k, .outcome .violated)] ∧
      called events x .baseCase = l ++ [k]
  covered : Event.sent .baseCase 0 ∈ events →
    (∀ k e, Event.answered .baseCase k (.error e) ∉ events) →
    ∀ k ∈ c.steps 1, k ≤ received.foldl min c.largest →
      Event.answered .baseCase k (.outcome .safe) ∈ events

/-- What a worker that may prove the property has done in a run. -/
structure ProverFollows (c : Config) (events : List Event) (x : State) (s : Strategy) : Prop where
  bounds : called events x s <+: c.steps 2
  proved : ∀ k, Event.sent s k ∈ events → ∀ j,
    (∃ l, answers events s = l.map (fun i => (i, .outcome .violated)) ++ [(j, .outcome .safe)] ∧
      called events x s = l ++ [j]) ↔ k = j ∧ j ≠ 0
  finishes : Event.cancelled s ∉ events → (∀ k, Event.answered s k .crash ∉ events) →
    ∀ f : Nat → Answer, (∀ k, f k ≠ .crash) → Finishes c s f events x

theorem Phase.pending_of_isOver (h : p.isOver) : p.pending = [] := by
  cases p with
  | ending => rfl
  | ended => rfl
  | checking k => cases h
  | reading k => cases h
  | reporting k => cases h

theorem WorkerFollows.called_of_sent (h : WorkerFollows c events s limit (x.phase.get s))
    (hk : Event.sent s k ∈ events) : called events x s = asked events s := by
  rw [called, Phase.pending_of_isOver (h.sent k hk).1, List.append_nil]

theorem zero_notMem_steps (s : Strategy) : 0 ∉ c.steps s.firstBound := fun h => by
  have hle := Config.le_of_mem_steps h
  cases s <;> cases hle

theorem Strategy.passing_ne_conclusive (s : Strategy) : s.passing ≠ s.conclusive := by
  cases s <;> decide

theorem Strategy.conclusive_notMem_through (s : Strategy) (l : List Nat) (k : Nat) :
    (k, s.conclusive) ∉ s.through l := fun h => by
  obtain ⟨j, -, hj⟩ := List.mem_map.mp h
  exact s.passing_ne_conclusive (congrArg Prod.snd hj)

/-- A conclusive answer is the last one. -/
theorem Reports.concludes (h : Reports c s limit as k) (hk : k ≠ 0) :
    ∃ l, as = s.through l ++ [(k, s.conclusive)] := by
  cases h with
  | @concluded l => exact ⟨l, rfl⟩
  | erred => exact absurd rfl hk
  | through => exact absurd rfl hk

/-- A worker that has had a conclusive answer reports its bound. -/
theorem Reports.eq_of_conclusive {j : Nat} (h : Reports c s limit as k)
    (hj : (j, s.conclusive) ∈ as) : k = j ∧ j ≠ 0 := by
  cases h with
  | @concluded l _ hl =>
    -- the answers before the last one let the worker go on, which a conclusive one does not
    rcases List.mem_append.mp hj with hearlier | hlast
    · exact absurd hearlier (s.conclusive_notMem_through l j)
    · obtain rfl : j = k := congrArg Prod.fst (List.mem_singleton.mp hlast)
      have hmem : j ∈ c.steps s.firstBound :=
        hl.subset (List.mem_append_right l (List.mem_singleton_self j))
      exact ⟨rfl, fun hzero => zero_notMem_steps s (hzero ▸ hmem)⟩
  | @erred l =>
    rcases List.mem_append.mp hj with hearlier | hlast
    · exact absurd hearlier (s.conclusive_notMem_through l j)
    · have herror := congrArg Prod.snd (List.mem_singleton.mp hlast)
      cases s <;> cases herror
  | @through l => exact absurd hj (s.conclusive_notMem_through l j)

/-- A worker that reports nothing has erred or is through with its bounds. -/
theorem Reports.passed (h : Reports c s limit as 0) (herror : ∀ k e, (k, Answer.error e) ∉ as)
    (hk : k ∈ c.steps s.firstBound) (hle : k ≤ limit) : (k, s.passing) ∈ as := by
  cases h with
  | @concluded l _ hl =>
    refine absurd (hl.subset ?_) (zero_notMem_steps s)
    exact List.mem_append_right l (List.mem_singleton_self 0)
  | @erred l j e => exact absurd (List.mem_append_right _ (List.mem_singleton_self _)) (herror j e)
  | through _ hall => exact List.mem_map.mpr ⟨k, hall k hk hle, rfl⟩

theorem RequestedRun.called_isPrefix (hx : RequestedRun c events received x) (hs : c.runs s) :
    called events x s <+: c.steps s.firstBound := by
  rw [called, ← map_fst_answers]
  exact (hx.workerFollows hs).phase.isPrefix

theorem RequestedRun.called_of_concluded (hx : RequestedRun c events received x) (hs : c.runs s)
    (hk : Event.sent s k ∈ events) (hl : answers events s = s.through l ++ [(k, a)]) :
    called events x s = l ++ [k] := by
  rw [(hx.workerFollows hs).called_of_sent hk, ← map_fst_answers, hl, List.map_append,
    s.map_fst_through]
  rfl

theorem RequestedRun.baseCaseFollows (hx : RequestedRun c events received x) :
    BaseCaseFollows c events received x := by
  have hs : c.runs .baseCase := .inl rfl
  have hw := hx.workerFollows hs
  -- where the base case stops is the smallest of what it has read
  refine ⟨hx.called_isPrefix hs, fun k hk hne => ?_, fun hk herror k hmem hle => ?_⟩
  · obtain ⟨l, hl⟩ := (hw.sent k hk).2.concludes hne
    exact ⟨l, hl, hx.called_of_concluded hs hk hl⟩
  · have hstop : k ≤ x.stop c .baseCase := by
      rw [← hx.limit_eq] at hle
      exact hle
    refine mem_answers_iff.mp ((hw.sent 0 hk).2.passed (fun j e hj => ?_) hmem hstop)
    exact herror j e (mem_answers_iff.mp hj)

theorem RequestedRun.proverFollows (hx : RequestedRun c events received x) (hs : c.proves s) :
    ProverFollows c events x s := by
  have hw := hx.workerFollows (.inr hs)
  have hne : s ≠ .baseCase := Config.ne_baseCase_of_proves hs
  have hthrough (l : List Nat) : s.through l = l.map fun i => (i, .outcome .violated) := by
    rw [Strategy.through, Strategy.passing_of_ne hne]
  refine ⟨?_, fun k hk j => ?_, fun hcancelled hcrash f hf => ?_⟩
  · rw [← Strategy.firstBound_of_ne hne]
    exact hx.called_isPrefix (.inr hs)
  · have hreports := (hw.sent k hk).2
    rw [← Strategy.conclusive_of_ne hne]
    constructor
    · rintro ⟨l, hl, -⟩
      exact hreports.eq_of_conclusive (hl ▸ List.mem_append_right _ (List.mem_singleton_self _))
    · rintro ⟨rfl, hzero⟩
      obtain ⟨l, hl⟩ := hreports.concludes hzero
      exact ⟨l, by rw [hl, hthrough], hx.called_of_concluded (.inr hs) hk hl⟩
  · exact hx.finishes (.inr hs) hcancelled hcrash hf

/-- The bounds of a configuration are the numbers at its stride, and each worker goes along them:
the base case up to a violation or as far as requests let it, the others up to a proof. -/
theorem workers_follow_steps (c : Config) (hc : c.maxBound < Config.boundLimit) :
    (∀ a, StepsExact c a) ∧
      ∀ events received x, RequestedRun c events received x →
        BaseCaseFollows c events received x ∧ ∀ s, c.proves s → ProverFollows c events x s :=
  ⟨stepsExact hc, fun _ _ _ hx => ⟨hx.baseCaseFollows, fun _ hs => hx.proverFollows hs⟩⟩

/-- A request for the second bound comes while the base case checks the first one. The forward
condition goes on to its own second bound. -/
theorem workers_follow_steps_requested :
    let c : Config := { maxBound := 5, increment := 2, inductiveDisabled := true }
    let events : List Event := [.answered .forwardCondition 2 (.outcome .violated),
      .answered .baseCase 1 (.outcome .safe), .read, .sent .baseCase 0,
      .answered .forwardCondition 4 (.outcome .safe), .sent .forwardCondition 4]
    ∃ x, RequestedRun c events [2] x ∧ BaseCaseFollows c events [2] x ∧
      ProverFollows c events x .forwardCondition := by
  intro c events
  have hforward : RequestedRun c [.answered .forwardCondition 2 (.outcome .violated)] [] _ :=
    .next .start rfl
  have hbase : RequestedRun c _ [] _ := (hforward.request 2).next
    (e := .answered .baseCase 1 (.outcome .safe)) rfl
  have hread : RequestedRun c _ [2] _ := hbase.next (e := .read) rfl
  have hsent : RequestedRun c _ [2] _ := hread.next (e := .sent .baseCase 0) rfl
  have hproved : RequestedRun c _ [2] _ := hsent.next
    (e := .answered .forwardCondition 4 (.outcome .safe)) rfl
  have hrun : RequestedRun c _ [2] _ := hproved.next (e := .sent .forwardCondition 4) rfl
  obtain ⟨hb, hp⟩ := (workers_follow_steps c (by decide)).2 _ _ _ hrun
  exact ⟨_, hrun, hb, hp .forwardCondition rfl⟩

end GotoCheck.Induction
