import GotoCheck.Proofs.Parallel.Accounting

/-! What the coordinator knows of the workers. What it takes down of a worker is the record that the
worker has sent, or that none will come, and stands from then on: whatever the order of events and
whichever checks take their workers down with them, no record is lost or overwritten. -/
namespace GotoCheck.Induction
variable {c : Config} {events : List Event} {x y : State} {e : Event} {s t : Strategy} {k : Nat}

/-- A worker that has ended without sending a record. -/
structure Silent (events : List Event) (x : State) (s : Strategy) : Prop where
  ended : x.phase.get s = .ended
  unsent : ∀ k, Event.sent s k ∉ events

/-! What one event can do. -/

namespace State

/-- A worker that an inspection takes for dead: it has ended, and neither has a record of it come in
nor is one on its way. -/
structure FoundDead (x : State) (s : Strategy) : Prop where
  ended : x.phase.get s = .ended
  running : x.standing.get s = .running
  noMessage : ∀ m ∈ x.messages, m.sender ≠ s

/-- What an event can make of the standing of a worker. -/
inductive StandingAfter (c : Config) (x : State) (e : Event) (s : Strategy) : Standing → Prop
  | kept : StandingAfter c x e s (x.standing.get s)
  | reported {k : Nat} : x.standing.get s = .running → ⟨s, k⟩ ∈ x.messages →
      StandingAfter c x e s (.reported k)
  | dead {t : Strategy} : x.standing.get s = .running → e = .inspected t → x.FoundDead t →
      s = t ∨ c.deadEndsRun → StandingAfter c x e s .dead

/-- Records that are taken in change the standing of their senders only. -/
theorem standing_foldl_accept_cases (x : State) (ms : List Message) (s : Strategy) :
    (ms.foldl accept x).standing.get s = x.standing.get s ∨
      x.standing.get s = .running ∧
        ∃ k, ⟨s, k⟩ ∈ ms ∧ (ms.foldl accept x).standing.get s = .reported k := by
  induction ms generalizing x with
  | nil => exact .inl rfl
  | cons m rest ih =>
    by_cases hs : x.standing.get s = .running
    · rw [List.foldl_cons]
      rcases standing_accept x m s with heq | ⟨rfl, heq⟩
      · refine (ih (x.accept m)).imp (fun h => h.trans heq) fun h => ⟨hs, ?_⟩
        obtain ⟨-, k, hk, hreported⟩ := h
        exact ⟨k, List.mem_cons_of_mem m hk, hreported⟩
      · refine .inr ⟨hs, m.bound, List.mem_cons_self, ?_⟩
        rw [standing_foldl_accept_of_ne_running rest (by rw [heq]; exact Standing.noConfusion), heq]
    · exact .inl (standing_foldl_accept_of_ne_running (m :: rest) hs)

theorem standing_drain_cases (x : State) (s : Strategy) :
    x.drain.standing.get s = x.standing.get s ∨
      x.standing.get s = .running ∧
        ∃ k, ⟨s, k⟩ ∈ x.messages ∧ x.drain.standing.get s = .reported k :=
  standing_foldl_accept_cases x x.messages s

theorem running_of_drain (h : x.drain.standing.get s = .running) :
    x.standing.get s = .running := by
  by_cases hs : x.standing.get s = .running
  · exact hs
  · rw [← h]
    exact (standing_foldl_accept_of_ne_running x.messages hs).symm

/-- A worker whose record does not come in with the others has none on its way. -/
theorem foundDead_of_drain (hended : x.phase.get s = .ended) (hs : x.standing.get s = .running)
    (hdrain : x.drain.standing.get s = .running) : x.FoundDead s where
  ended := hended
  running := hs
  noMessage m hm hsender := by
    have hreported : x.drain.standing.get m.sender ≠ .running := standing_foldl_accept_sender hm
    rw [hsender] at hreported
    exact hreported hdrain

theorem standingAfter_drain (x : State) (s : Strategy) :
    StandingAfter c x e s (x.drain.standing.get s) := by
  rcases standing_drain_cases x s with heq | ⟨hs, k, hk, hreported⟩
  · rw [heq]
    exact .kept
  · rw [hreported]
    exact .reported hs hk

theorem standingAfter_inspect (c : Config) (x : State) (t s : Strategy) :
    StandingAfter c x (.inspected t) s ((x.inspect c t).standing.get s) := by
  unfold inspect
  split
  · rename_i ht
    obtain ⟨hrunning, hended⟩ := ht
    dsimp only
    split
    · rename_i hdrain
      have hdead := foundDead_of_drain hended hrunning hdrain
      -- `t` itself is dead; the others keep what they have, unless all are given up
      have hset : StandingAfter c x (.inspected t) s
          ((x.drain.standing.set t .dead).get s) := by
        by_cases hst : s = t
        · subst hst
          rw [PerWorker.get_set_self]
          exact .dead hrunning rfl hdead (.inl rfl)
        · rw [PerWorker.get_set_of_ne _ _ hst]
          exact standingAfter_drain x s
      split
      · rename_i hends
        simp only [giveUp, PerWorker.get_map]
        split
        · rename_i hrest
          have hst : s ≠ t := by
            rintro rfl
            rw [PerWorker.get_set_self] at hrest
            cases hrest
          rw [PerWorker.get_set_of_ne _ _ hst] at hrest
          exact .dead (running_of_drain hrest) rfl hdead (.inr hends)
        · exact hset
      · exact hset
    · exact standingAfter_drain x s
  · exact .kept

theorem standingAfter_poll (x : State) (s : Strategy) :
    StandingAfter c x e s (x.poll.standing.get s) := by
  unfold poll
  split
  · exact .kept
  · split
    · exact .kept
    · rename_i m rest hm
      rw [accept_messages]
      rcases standing_accept x m s with heq | ⟨rfl, heq⟩
      · rw [heq]
        exact .kept
      · by_cases hs : x.standing.get m.sender = .running
        · rw [heq]
          exact .reported hs (hm ▸ List.mem_cons_self)
        · rw [standing_accept_of_ne_running hs]
          exact .kept

/-- To settle takes no record in and finds nobody dead. -/
theorem records_settle (x : State) :
    x.settle.standing = x.standing ∧ x.settle.messages = x.messages := by
  unfold settle requestConfirmation
  split
  · exact ⟨rfl, rfl⟩
  · split
    · split
      · split <;> exact ⟨rfl, rfl⟩
      · exact ⟨rfl, rfl⟩
    · exact ⟨rfl, rfl⟩

/-- Every event leaves a standing alone, or it takes down a running worker's record or its death. -/
theorem standingAfter_of_after? (hy : x.after? c e = some y) (s : Strategy) :
    StandingAfter c x e s (y.standing.get s) := by
  cases Step.of_after? hy with
  | answered | read | sent | ended | cancelled => exact .kept
  | polled hg => exact standingAfter_poll x s
  | @inspected t rest hg => exact standingAfter_inspect c x t s
  | settled hg =>
    rw [(records_settle x).1]
    exact .kept

/-- A worker that does not count as running any more is left as it is. -/
theorem standing_of_after? (hy : x.after? c e = some y) (hs : x.standing.get s ≠ .running) :
    y.standing.get s = x.standing.get s := by
  have hafter := standingAfter_of_after? hy s
  generalize y.standing.get s = z at hafter
  cases hafter with
  | kept => rfl
  | reported hrunning => exact absurd hrunning hs
  | dead hrunning => exact absurd hrunning hs

theorem standing_of_follow? {es : List Event} (hy : x.follow? c es = some y)
    (hs : x.standing.get s ≠ .running) : y.standing.get s = x.standing.get s := by
  induction es generalizing x with
  | nil =>
    cases hy
    rfl
  | cons e rest ih =>
    obtain ⟨z, hz, hrest⟩ := Option.bind_eq_some_iff.mp hy
    have hstanding := standing_of_after? hz hs
    rw [ih hrest (hstanding ▸ hs), hstanding]

theorem standing_giveUp_ne_running (x : State) (s : Strategy) :
    x.giveUp.standing.get s ≠ .running := by
  simp only [giveUp, PerWorker.get_map]
  split
  · exact Standing.noConfusion
  · assumption

/-- An inspection leaves the records on their way alone or takes all of them in. -/
theorem messages_inspect (c : Config) (x : State) (t : Strategy) :
    (x.inspect c t).messages = x.messages ∨ (x.inspect c t).messages = [] ∧
      ∀ m ∈ x.messages, (x.inspect c t).standing.get m.sender ≠ .running := by
  have hdrain : ∀ m ∈ x.messages, x.drain.standing.get m.sender ≠ .running :=
    fun m hm => standing_foldl_accept_sender hm
  unfold inspect
  split
  · dsimp only
    split
    · split
      · exact .inr ⟨rfl, fun m _ => standing_giveUp_ne_running _ _⟩
      · refine .inr ⟨rfl, fun m hm => ?_⟩
        by_cases hs : m.sender = t
        · rw [hs, PerWorker.get_set_self]
          exact Standing.noConfusion
        · rw [PerWorker.get_set_of_ne _ _ hs]
          exact hdrain m hm
    · exact .inr ⟨rfl, hdrain⟩
  · exact .inl rfl

theorem messages_poll (x : State) : x.poll.messages = x.messages ∨
    ∃ m, x.messages = m :: x.poll.messages ∧ x.poll.standing.get m.sender ≠ .running := by
  unfold poll
  split
  · exact .inl rfl
  · split
    · exact .inl rfl
    · rename_i m rest hm
      rw [accept_messages]
      exact .inr ⟨m, hm, standing_accept_sender x m⟩

/-- Only a worker that sends puts a record on its way. -/
theorem mem_messages_of_after? (hy : x.after? c e = some y) {m : Message} (hm : m ∈ y.messages) :
    m ∈ x.messages ∨ e = .sent m.sender m.bound := by
  cases Step.of_after? hy with
  | answered | read | ended | cancelled => exact .inl hm
  | sent hk =>
    rcases List.mem_append.mp hm with hm | hm
    · exact .inl hm
    · rw [List.mem_singleton.mp hm]
      exact .inr rfl
  | polled hg =>
    rcases messages_poll x with heq | ⟨n, heq, -⟩
    · exact .inl (heq ▸ hm)
    · exact .inl (heq ▸ List.mem_cons_of_mem n hm)
  | @inspected t rest hg =>
    rcases messages_inspect c x t with heq | ⟨heq, -⟩
    · exact .inl (heq ▸ hm)
    · exact absurd (heq ▸ hm) List.not_mem_nil
  | settled hg => exact .inl ((records_settle x).2 ▸ hm)

/-- A record is on its way until it is taken in. -/
theorem mem_messages_after? (hy : x.after? c e = some y) {m : Message} (hm : m ∈ x.messages) :
    m ∈ y.messages ∨ y.standing.get m.sender ≠ .running := by
  cases Step.of_after? hy with
  | answered | read | ended | cancelled => exact .inl hm
  | sent hk => exact .inl (List.mem_append_left _ hm)
  | polled hg =>
    rcases messages_poll x with heq | ⟨n, heq, hn⟩
    · exact .inl (heq ▸ hm)
    · rw [heq] at hm
      rcases List.mem_cons.mp hm with rfl | hm
      · exact .inr hn
      · exact .inl hm
  | @inspected t rest hg =>
    rcases messages_inspect c x t with heq | ⟨-, hgone⟩
    · exact .inl (heq ▸ hm)
    · exact .inr (hgone m hm)
  | settled hg => exact .inl ((records_settle x).2 ▸ hm)

/-- What an event can make of the phase of a worker. -/
inductive PhaseAfter (e : Event) (s : Strategy) : Phase → Phase → Prop
  | kept {p : Phase} : (∀ k, e ≠ .sent s k) → PhaseAfter e s p p
  | works {p q : Phase} : (∀ k, e ≠ .sent s k) → p ≠ .ending → p ≠ .ended → PhaseAfter e s p q
  | sends {k : Nat} : e = .sent s k → PhaseAfter e s (.reporting k) .ending
  | ends : (∀ k, e ≠ .sent s k) → PhaseAfter e s .ending .ended

theorem phaseAfter_setPhase {p : Phase} (h : PhaseAfter e t (x.phase.get t) p)
    (hother : s ≠ t → ∀ k, e ≠ .sent s k) :
    PhaseAfter e s (x.phase.get s) ((x.setPhase t p).phase.get s) := by
  by_cases hs : s = t
  · subst hs
    rwa [setPhase, PerWorker.get_set_self]
  · rw [setPhase, PerWorker.get_set_of_ne _ _ hs]
    exact .kept (hother hs)

/-- A worker sends once and then only ends. -/
theorem phaseAfter_of_after? (hy : x.after? c e = some y) (s : Strategy) :
    PhaseAfter e s (x.phase.get s) (y.phase.get s) := by
  have quiet (hw : y.workers = x.workers) (he : ∀ k, e ≠ .sent s k) :
      PhaseAfter e s (x.phase.get s) (y.phase.get s) := by
    have hphase : y.phase = x.phase := congrArg Prod.fst hw
    rw [hphase]
    exact .kept he
  cases Step.of_after? hy with
  | answered a hk =>
    exact phaseAfter_setPhase (.works nofun (by simp [hk]) (by simp [hk])) fun _ => nofun
  | read hk =>
    have hbase : x.phase.get .baseCase = .reading _ := hk
    exact phaseAfter_setPhase (x := { x with limit := _, requests := [] })
      (.works nofun (by simp [hbase]) (by simp [hbase])) fun _ => nofun
  | @sent t k hk =>
    refine phaseAfter_setPhase (p := .ending) (hk ▸ .sends rfl) fun hst j heq => ?_
    cases heq
    exact hst rfl
  | ended hs => exact phaseAfter_setPhase (hs ▸ .ends nofun) fun _ => nofun
  | cancelled hk hd =>
    exact phaseAfter_setPhase (.works nofun (by simp [hk]) (by simp [hk])) fun _ => nofun
  | polled hg => exact quiet (workers_poll x) nofun
  | @inspected t rest hg => exact quiet (workers_inspect c x t) nofun
  | settled hg => exact quiet (workers_settle x) nofun

/-- A worker that has sent its record or ended sends nothing any more and only ends. -/
theorem stopped_of_after? (hy : x.after? c e = some y)
    (hs : x.phase.get s = .ending ∨ x.phase.get s = .ended) :
    (∀ k, e ≠ .sent s k) ∧ (y.phase.get s = x.phase.get s ∨ y.phase.get s = .ended) := by
  have hafter := phaseAfter_of_after? hy s
  generalize x.phase.get s = p at hs hafter
  generalize y.phase.get s = q at hafter ⊢
  cases hafter with
  | kept he => exact ⟨he, .inl rfl⟩
  | works _ hending hended => exact absurd hs (not_or.mpr ⟨hending, hended⟩)
  | sends => simp at hs
  | ends he => exact ⟨he, .inr rfl⟩

theorem sent_of_after? (hy : x.after? c (.sent s k) = some y) :
    x.phase.get s = .reporting k ∧ y.phase.get s = .ending ∧ ⟨s, k⟩ ∈ y.messages := by
  cases Step.of_after? hy with
  | sent hk =>
    refine ⟨hk, ?_, List.mem_append_right _ List.mem_cons_self⟩
    exact PerWorker.get_set_self _ _ _

end State

/-! What a run keeps. -/

/-- The invariant of runs: what has been sent is what is on its way or has come in, and a worker is
dead only if one has been silent, itself or any if that ends the run. -/
structure Recorded (c : Config) (events : List Event) (x : State) : Prop where
  sender : ∀ s k, Event.sent s k ∈ events → x.phase.get s = .ending ∨ x.phase.get s = .ended
  once : ∀ s j k, Event.sent s j ∈ events → Event.sent s k ∈ events → j = k
  message : ∀ m ∈ x.messages, Event.sent m.sender m.bound ∈ events
  reported : ∀ s k, x.standing.get s = .reported k → Event.sent s k ∈ events
  underway : ∀ s k, Event.sent s k ∈ events → x.standing.get s = .running → ⟨s, k⟩ ∈ x.messages
  dead : ∀ s, x.standing.get s = .dead → ∃ t, Silent events x t ∧ (s = t ∨ c.deadEndsRun)

theorem Silent.after (h : Silent events x s) (hy : x.after? c e = some y) :
    Silent (events ++ [e]) y s := by
  obtain ⟨hsent, hphase⟩ := State.stopped_of_after? hy (.inr h.ended)
  rw [h.ended, or_self] at hphase
  refine ⟨hphase, fun k hk => ?_⟩
  rcases List.mem_append.mp hk with hk | hk
  · exact h.unsent k hk
  · exact hsent k (List.mem_singleton.mp hk).symm

namespace Recorded

theorem start (c : Config) : Recorded c [] (.start c) where
  sender _ _ hk := absurd hk List.not_mem_nil
  once _ _ _ hj := absurd hj List.not_mem_nil
  message _ hm := absurd hm List.not_mem_nil
  reported s _ hs := by cases s <;> cases hs
  underway _ _ hk := absurd hk List.not_mem_nil
  dead s hs := by cases s <;> cases hs

/-- Who is found dead has been silent. -/
theorem silent_of_foundDead (h : Recorded c events x) (ht : x.FoundDead t) : Silent events x t where
  ended := ht.ended
  unsent k hk := ht.noMessage _ (h.underway t k hk ht.running) rfl

/-- Who sends has not sent before. -/
theorem not_sent (h : Recorded c events x) (hy : x.after? c (.sent s k) = some y) (j : Nat) :
    Event.sent s j ∉ events := by
  intro hj
  have hreporting := (State.sent_of_after? hy).1
  rcases h.sender s j hj with hs | hs <;> rw [hs] at hreporting <;> cases hreporting

/-- What one event keeps. -/
theorem after (h : Recorded c events x) (hy : x.after? c e = some y) :
    Recorded c (events ++ [e]) y where
  sender s k hk := by
    rcases List.mem_append.mp hk with hk | hk
    · have hs := h.sender s k hk
      rcases (State.stopped_of_after? hy hs).2 with heq | heq
      · rwa [heq]
      · exact .inr heq
    · cases List.mem_singleton.mp hk
      exact .inl (State.sent_of_after? hy).2.1
  once s j k hj hk := by
    rcases List.mem_append.mp hj with hjold | hjnew
    · rcases List.mem_append.mp hk with hkold | hknew
      · exact h.once s j k hjold hkold
      · obtain rfl := List.mem_singleton.mp hknew
        exact absurd hjold (h.not_sent hy j)
    · obtain rfl := List.mem_singleton.mp hjnew
      rcases List.mem_append.mp hk with hkold | hknew
      · exact absurd hkold (h.not_sent hy k)
      · exact (Event.sent.inj (List.mem_singleton.mp hknew)).2.symm
  message m hm := by
    rcases State.mem_messages_of_after? hy hm with hm | rfl
    · exact List.mem_append_left _ (h.message m hm)
    · exact List.mem_append_right _ List.mem_cons_self
  reported s k hs := by
    have hafter := State.standingAfter_of_after? hy s
    rw [hs] at hafter
    refine List.mem_append_left _ ?_
    generalize hz : Standing.reported k = z at hafter
    cases hafter with
    | kept => exact h.reported s k hz.symm
    | reported _ hm =>
      cases hz
      exact h.message _ hm
    | dead => cases hz
  underway s k hk hs := by
    rcases List.mem_append.mp hk with hk | hk
    · have hx : x.standing.get s = .running := by
        by_cases hx : x.standing.get s = .running
        · exact hx
        · rwa [State.standing_of_after? hy hx] at hs
      exact (State.mem_messages_after? hy (h.underway s k hk hx)).resolve_right fun hne => hne hs
    · cases List.mem_singleton.mp hk
      exact (State.sent_of_after? hy).2.2
  dead s hs := by
    have hafter := State.standingAfter_of_after? hy s
    rw [hs] at hafter
    generalize hz : Standing.dead = z at hafter
    cases hafter with
    | kept =>
      obtain ⟨t, ht, hst⟩ := h.dead s hz.symm
      exact ⟨t, ht.after hy, hst⟩
    | reported => cases hz
    | dead _ _ hdead hst => exact ⟨_, (h.silent_of_foundDead hdead).after hy, hst⟩

/-- A dead worker has been silent, unless any dead worker ends the run. -/
theorem silent_of_dead (h : Recorded c events x) (hends : c.deadEndsRun = false)
    (hs : x.standing.get s = .dead) : Silent events x s := by
  obtain ⟨t, ht, hst⟩ := h.dead s hs
  rcases hst with rfl | hon
  · exact ht
  · rw [hends] at hon
    cases hon

end Recorded

theorem Run.recorded (hx : Run c events x) : Recorded c events x := by
  induction hx with
  | start => exact .start c
  | next _ hy ih => exact ih.after hy

theorem Run.follow?_of_append {es : List Event} (hx : Run c events x)
    (hy : Run c (events ++ es) y) : x.follow? c es = some y := by
  rw [← State.follow?_append (run_iff_follow?.mp hx)]
  exact run_iff_follow?.mp hy

/-- What the coordinator knows of a worker changes once at most, from running, and tells the record
that the worker has sent or that a worker has been silent. What has been sent has come in or is on
its way, unless the run is given up. Where a dead worker does not end the run, only the inspection
of a worker that never sends a record makes it dead. -/
theorem standing_tells_record (hx : Run c events x) (s : Strategy) :
    (∀ es y, Run c (events ++ es) y → y.standing.get s ≠ x.standing.get s →
      x.standing.get s = .running) ∧
    (∀ k, x.standing.get s = .reported k → Event.sent s k ∈ events) ∧
    (∀ k, Event.sent s k ∈ events → x.standing.get s = .reported k ∨
      x.standing.get s = .running ∧ ⟨s, k⟩ ∈ x.messages ∨
      c.deadEndsRun ∧ x.standing.get s = .dead) ∧
    (c.deadEndsRun = false → x.standing.get s = .dead →
      ∀ es y, Run c (events ++ es) y → Silent (events ++ es) y s) ∧
    (c.deadEndsRun = false → ∀ e y, x.after? c e = some y →
      y.standing.get s ≠ x.standing.get s →
        (∃ k, y.standing.get s = .reported k ∧ Event.sent s k ∈ events) ∨
          y.standing.get s = .dead ∧ e = .inspected s ∧ Silent events x s) ∧
    (c.deadEndsRun → x.standing.get s = .dead → ∃ t, Silent events x t) := by
  have hrecorded := hx.recorded
  have hstays : ∀ es y, Run c (events ++ es) y → x.standing.get s ≠ .running →
      y.standing.get s = x.standing.get s :=
    fun es y hy hs => State.standing_of_follow? (hx.follow?_of_append hy) hs
  refine ⟨fun es y hy hne => ?_, hrecorded.reported s, fun k hk => ?_, fun hends hs es y hy => ?_,
    fun hends e y hy hne => ?_, fun _ hs => ?_⟩
  · by_cases hs : x.standing.get s = .running
    · exact hs
    · exact absurd (hstays es y hy hs) hne
  · cases hs : x.standing.get s with
    | running => exact .inr (.inl ⟨rfl, hrecorded.underway s k hk hs⟩)
    | reported j => exact .inl (by rw [hrecorded.once s j k (hrecorded.reported s j hs) hk])
    | dead =>
      obtain ⟨t, ht, hst⟩ := hrecorded.dead s hs
      rcases hst with rfl | hon
      · exact absurd hk (ht.unsent k)
      · exact .inr (.inr ⟨hon, rfl⟩)
  · have hdead : y.standing.get s = .dead := by
      rw [hstays es y hy (by rw [hs]; exact Standing.noConfusion), hs]
    exact hy.recorded.silent_of_dead hends hdead
  · have hafter := State.standingAfter_of_after? hy s
    generalize y.standing.get s = z at hafter hne ⊢
    cases hafter with
    | kept => exact absurd rfl hne
    | reported _ hm => exact .inl ⟨_, rfl, hrecorded.message _ hm⟩
    | dead _ he hdead hst =>
      rcases hst with rfl | hon
      · exact .inr ⟨rfl, he, hrecorded.silent_of_foundDead hdead⟩
      · rw [hends] at hon
        cases hon
  · obtain ⟨t, ht, -⟩ := hrecorded.dead s hs
    exact ⟨t, ht⟩

/-- The inductive step reports nothing and the forward condition dies. The record of the base case
comes in when the forward condition is looked at. -/
def deathBesideRecord : List Event :=
  [.answered .forwardCondition 2 .crash, .answered .inductiveStep 2 (.outcome .violated),
    .sent .inductiveStep 0, .answered .baseCase 1 (.outcome .violated), .sent .baseCase 1,
    .polled, .inspected .baseCase, .inspected .forwardCondition]

/-- The forward condition dies before the base case has sent its record. -/
def deathBeforeRecord : List Event :=
  [.answered .forwardCondition 2 .crash, .polled, .inspected .baseCase,
    .inspected .forwardCondition, .answered .baseCase 1 (.outcome .violated), .sent .baseCase 1]

theorem standings_of_deaths :
    (∃ x, Run { maxBound := 2 } deathBesideRecord x ∧
      x.standing = ⟨.reported 1, .dead, .reported 0⟩ ∧
      Event.sent .baseCase 1 ∈ deathBesideRecord ∧
      Silent deathBesideRecord x .forwardCondition) ∧
    ∃ y, Run { maxBound := 2, deadEndsRun := true } deathBeforeRecord y ∧
      y.standing = ⟨.dead, .dead, .dead⟩ ∧ ∃ t, Silent deathBeforeRecord y t := by
  have hbeside : ∃ x, (State.start { maxBound := 2 }).follow? { maxBound := 2 }
      deathBesideRecord = some x ∧ x.standing = ⟨.reported 1, .dead, .reported 0⟩ := ⟨_, rfl, rfl⟩
  have hbefore : ∃ y, (State.start { maxBound := 2, deadEndsRun := true }).follow?
      { maxBound := 2, deadEndsRun := true } deathBeforeRecord = some y ∧
        y.standing = ⟨.dead, .dead, .dead⟩ := ⟨_, rfl, rfl⟩
  obtain ⟨x, hx, hxs⟩ := hbeside
  obtain ⟨y, hy, hys⟩ := hbefore
  have hxrun := run_iff_follow?.mpr hx
  have hyrun := run_iff_follow?.mpr hy
  refine ⟨⟨x, hxrun, hxs, ?_, ?_⟩, y, hyrun, hys, ?_⟩
  · obtain ⟨-, hsent, -⟩ := standing_tells_record hxrun .baseCase
    exact hsent 1 (by rw [hxs]; rfl)
  · obtain ⟨-, -, -, hsilent, -⟩ := standing_tells_record hxrun .forwardCondition
    have h := hsilent rfl (by rw [hxs]; rfl) [] x (by rwa [List.append_nil])
    rwa [List.append_nil] at h
  · obtain ⟨-, -, -, -, -, hsilent⟩ := standing_tells_record hyrun .baseCase
    exact hsilent rfl (by rw [hys]; rfl)

end GotoCheck.Induction
