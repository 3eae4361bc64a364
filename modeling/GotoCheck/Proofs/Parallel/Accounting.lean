import GotoCheck.Proofs.Parallel.Asked
import GotoCheck.Proofs.Parallel.Invariant

/-! Nothing is lost between the workers and the coordinator. As long as no check takes its worker
down, every worker ends with a record, the record reaches the coordinator, and the base case is only
asked to stop where there is a proof to confirm. -/
namespace GotoCheck.Induction

/-- No check took its worker down. -/
def Unbroken (events : List Event) : Prop :=
  ∀ s k, Event.answered s k .crash ∉ events

/-- A prover has been through all of its bounds without success, or has given up on an error. -/
def Exhausted (c : Config) (events : List Event) (s : Strategy) : Prop :=
  (∀ k ∈ c.steps s.firstBound, Event.answered s k (.outcome .violated) ∈ events) ∨
    ∃ k e, Event.answered s k (.error e) ∈ events

/-- What a prover that goes on or reports nothing has behind it. -/
def PhaseExhausting (c : Config) (events : List Event) (s : Strategy) : Phase → Prop
  | .checking _ => ∀ k ∈ asked events s, Event.answered s k (.outcome .violated) ∈ events
  | .reporting k => k = 0 → Exhausted c events s
  | _ => True

/-- The record of a worker has come in or is on its way. -/
def State.HasRecord (x : State) (s : Strategy) : Prop :=
  (∃ k, x.standing.get s = .reported k) ∨ ∃ m ∈ x.messages, m.sender = s

/-- The invariant of runs that are not over and in which no check took its worker down. Workers end
with a record, and the coordinator expects all of the base case or as much as some proof needs. -/
structure Accounted (c : Config) (events : List Event) (x : State) : Prop where
  alive : ∀ s, x.standing.get s ≠ .dead
  recorded : ∀ s, x.phase.get s = .ending ∨ x.phase.get s = .ended → x.HasRecord s
  expected : x.expected = c.largest ∨
    ∃ s, s ≠ .baseCase ∧ x.standing.get s = .reported x.expected ∧ x.expected ≠ 0
  phase : ∀ s, c.proves s → PhaseExhausting c events s (x.phase.get s)
  message : ∀ m ∈ x.messages, c.proves m.sender → m.bound = 0 → Exhausted c events m.sender
  standing : ∀ s, c.proves s → x.standing.get s = .reported 0 → Exhausted c events s

section Phases
variable {c : Config} {events events' : List Event} {s : Strategy} {k : Nat} {a : Answer}

theorem Unbroken.of_append {es : List Event} (h : Unbroken (events ++ es)) : Unbroken events :=
  fun s k hk => h s k (List.mem_append_left es hk)

theorem Exhausted.mono (h : Exhausted c events s) (hs : events ⊆ events') :
    Exhausted c events' s := by
  rcases h with hall | ⟨k, e, he⟩
  · exact .inl fun k hk => hs (hall k hk)
  · exact .inr ⟨k, e, hs he⟩

theorem PhaseExhausting.mono {p : Phase} (h : PhaseExhausting c events s p)
    (hs : events ⊆ events') (hasked : asked events' s = asked events s) :
    PhaseExhausting c events' s p := by
  cases p with
  | checking k => exact fun j hj => hs (h j (hasked ▸ hj))
  | reading k => trivial
  | reporting k => exact fun hk => (h hk).mono hs
  | ending => trivial
  | ended => trivial

theorem PhaseExhausting.startPhase (c : Config) (hs : c.proves s) :
    PhaseExhausting c [] s (c.startPhase s) := by
  have hfirst := Strategy.firstBound_of_ne (Config.ne_baseCase_of_proves hs)
  have hseek : PhaseExhausting c [] s (.seek c.largest (some 2)) := by
    simp only [Phase.seek]
    split
    · exact fun j hj => absurd hj List.not_mem_nil
    · rename_i hlarge
      intro _
      -- no bound is small enough to be tried
      have hnone : c.steps s.firstBound = [] := by rw [hfirst, Config.steps, if_neg hlarge]
      exact .inl fun k hk => absurd (hnone ▸ hk) List.not_mem_nil
  cases s with
  | baseCase => cases hs
  | forwardCondition =>
    have hon : c.forwardDisabled = false := by simpa [Config.proves] using hs
    simpa [Config.startPhase, hon] using hseek
  | inductiveStep =>
    have hon : c.inductiveDisabled = false := by simpa [Config.proves] using hs
    simpa [Config.startPhase, hon] using hseek

/-- Behind the last of its bounds a prover has tried all of them. -/
theorem PhaseExhausting.seek (hk : k ≤ c.largest)
    (hsteps : c.steps s.firstBound = asked events s ++ c.steps k)
    (hall : ∀ j ∈ asked events s ++ [k], Event.answered s j (.outcome .violated) ∈ events')
    (hasked : asked events' s = asked events s ++ [k]) :
    PhaseExhausting c events' s (.seek c.largest (c.next? k)) := by
  have hs := steps_append_cons hk hsteps
  have hgoes : ∀ j ∈ asked events' s, Event.answered s j (.outcome .violated) ∈ events' := by
    rw [hasked]
    exact hall
  have hstops : c.steps s.firstBound = asked events s ++ [k] → Exhausted c events' s := by
    intro heq
    rw [Exhausted, heq]
    exact .inl hall
  -- the bounds end where 32 bits do, or with the largest bound
  cases hn : c.next? k with
  | none =>
    rw [hn, Option.map_none, Option.getD_none, List.append_nil] at hs
    exact fun _ => hstops hs
  | some n =>
    rw [hn, Option.map_some, Option.getD_some] at hs
    simp only [Phase.seek]
    split
    · exact hgoes
    · rename_i hlarge
      rw [Config.steps.eq_def c n, if_neg hlarge, List.append_nil] at hs
      exact fun _ => hstops hs

theorem PhaseExhausting.phaseAfter (hs : c.proves s)
    (horder : PhaseInOrder c s (asked events s) (.checking k))
    (h : PhaseExhausting c events s (.checking k)) (a : Answer) :
    PhaseExhausting c (events ++ [.answered s k a]) s (c.phaseAfter s k a) := by
  have hne := Config.ne_baseCase_of_proves hs
  have hmem : Event.answered s k a ∈ events ++ [.answered s k a] :=
    List.mem_append_right _ List.mem_cons_self
  cases a with
  | outcome o =>
    cases o with
    | violated =>
      simp only [Config.phaseAfter, if_neg hne]
      refine PhaseExhausting.seek horder.1 horder.2 (fun j hj => ?_) ?_
      · rcases List.mem_append.mp hj with hj | hj
        · exact List.mem_append_left _ (h j hj)
        · rw [List.mem_singleton.mp hj]
          exact hmem
      · rw [asked_append_answered, if_pos rfl]
    | safe =>
      simp only [Config.phaseAfter, if_neg hne]
      -- the bound of an answer is not zero
      intro h0
      have hk : k ∈ c.steps s.firstBound := by
        rw [horder.2, c.steps_of_le horder.1]
        exact List.mem_append_right _ List.mem_cons_self
      obtain ⟨i, hi, -⟩ := Config.mem_steps_iff.mp hk
      rw [Strategy.firstBound_of_ne hne] at hi
      omega
  | error e => exact fun _ => .inr ⟨k, e, hmem⟩
  | crash => trivial

theorem not_stopped_phaseAfter (ha : a ≠ .crash) :
    ¬(c.phaseAfter s k a = .ending ∨ c.phaseAfter s k a = .ended) := by
  have hseek := Phase.seek_eq c.largest (c.next? k)
  cases a with
  | outcome o =>
    cases o with
    | violated =>
      simp only [Config.phaseAfter]
      split
      · simp
      · rcases hseek with ⟨n, hn⟩ | hn <;> simp [hn]
    | safe =>
      simp only [Config.phaseAfter]
      split <;> simp
  | error e => simp [Config.phaseAfter]
  | crash => exact absurd rfl ha

end Phases

namespace State
variable {x : State} {m : Message} {s t : Strategy}

theorem standing_accept_of_ne_running (hs : x.standing.get s ≠ .running) :
    (x.accept m).standing.get s = x.standing.get s := by
  unfold accept
  split
  · rename_i hm
    refine PerWorker.get_set_of_ne _ _ fun heq => ?_
    rw [heq] at hs
    exact hs hm
  · rfl

/-- An accepted record stands, unless an earlier one of the worker does. -/
theorem standing_accept (x : State) (m : Message) (s : Strategy) :
    (x.accept m).standing.get s = x.standing.get s ∨
      s = m.sender ∧ (x.accept m).standing.get s = .reported m.bound := by
  unfold accept
  split
  · by_cases hs : s = m.sender
    · subst hs
      exact .inr ⟨rfl, PerWorker.get_set_self _ _ _⟩
    · exact .inl (PerWorker.get_set_of_ne _ _ hs)
  · exact .inl rfl

theorem standing_accept_sender (x : State) (m : Message) :
    (x.accept m).standing.get m.sender ≠ .running := by
  unfold accept
  split
  · simp
  · assumption

theorem messages_accept (x : State) (m : Message) : (x.accept m).messages = x.messages := by
  unfold accept
  split <;> rfl

/-- A worker that does not count as running any more is left as it is. -/
theorem standing_foldl_accept_of_ne_running (ms : List Message)
    (hs : x.standing.get s ≠ .running) :
    (ms.foldl accept x).standing.get s = x.standing.get s := by
  induction ms generalizing x with
  | nil => rfl
  | cons m rest ih =>
    have hm := standing_accept_of_ne_running (m := m) hs
    rw [List.foldl_cons, ih (hm ▸ hs), hm]

/-- Who has sent one of the records does not count as running any more. -/
theorem standing_foldl_accept_sender {ms : List Message} (hm : m ∈ ms) :
    (ms.foldl accept x).standing.get m.sender ≠ .running := by
  induction ms generalizing x with
  | nil => cases hm
  | cons n rest ih =>
    rcases List.mem_cons.mp hm with rfl | hm
    · rw [List.foldl_cons, standing_foldl_accept_of_ne_running rest (standing_accept_sender x m)]
      exact standing_accept_sender x m
    · exact ih hm

theorem messages_foldl_accept (x : State) (ms : List Message) :
    (ms.foldl accept x).messages = x.messages := by
  induction ms generalizing x with
  | nil => rfl
  | cons m rest ih => rw [List.foldl_cons, ih, messages_accept]

theorem smallestProof?_eq_some {k : Nat} (h : x.smallestProof? = some k) :
    ∃ s, s ≠ .baseCase ∧ x.standing.get s = .reported k ∧ k ≠ 0 := by
  obtain ⟨t, ht, hk⟩ := List.mem_filterMap.mp (List.min?_mem h)
  obtain ⟨ht', h0⟩ := Standing.solution?_eq_some.mp hk
  rcases List.mem_cons.mp ht with rfl | ht
  · exact ⟨.forwardCondition, by decide, ht', h0⟩
  · rw [List.mem_singleton.mp ht] at ht'
    exact ⟨.inductiveStep, by decide, ht', h0⟩

theorem accept_messages (x : State) (ms : List Message) (m : Message) :
    { x with messages := ms }.accept m = { x.accept m with messages := ms } := by
  unfold accept
  dsimp only
  split <;> rfl

end State

theorem Standing.exists_eq_reported {t : Standing} (hrun : t ≠ .running) (hdead : t ≠ .dead) :
    ∃ k, t = .reported k := by
  cases t with
  | running => exact absurd rfl hrun
  | reported k => exact ⟨k, rfl⟩
  | dead => exact absurd rfl hdead

namespace Accounted
variable {c : Config} {events : List Event} {x : State} {m : Message} {s : Strategy}

theorem start (c : Config) : Accounted c [] (.start c) where
  alive s hs := by cases s <;> cases hs
  recorded s hs := by
    rw [State.phase_start] at hs
    rcases c.startPhase_eq s with ⟨k, hk⟩ | hk <;> rw [hk] at hs <;> simp at hs
  expected := .inl rfl
  phase s hs := by
    rw [State.phase_start]
    exact PhaseExhausting.startPhase c hs
  message _ hm := absurd hm List.not_mem_nil
  standing s _ hs := by cases s <;> cases hs

theorem setPhase (h : Accounted c events x) {p : Phase}
    (hrecord : p = .ending ∨ p = .ended → x.HasRecord s)
    (hphase : c.proves s → PhaseExhausting c events s p) :
    Accounted c events (x.setPhase s p) where
  alive := h.alive
  recorded t ht := by
    by_cases hts : t = s
    · subst hts
      exact hrecord (by simpa [State.setPhase] using ht)
    · exact h.recorded t (by simpa [State.setPhase, PerWorker.get_set_of_ne _ p hts] using ht)
  expected := h.expected
  phase t ht := by
    by_cases hts : t = s
    · subst hts
      simpa [State.setPhase] using hphase ht
    · simpa [State.setPhase, PerWorker.get_set_of_ne _ p hts] using h.phase t ht
  message := h.message
  standing := h.standing

theorem mono (h : Accounted c events x) {events' : List Event} (hs : events ⊆ events')
    (hasked : ∀ s, asked events' s = asked events s) : Accounted c events' x where
  alive := h.alive
  recorded := h.recorded
  expected := h.expected
  phase s hp := (h.phase s hp).mono hs (hasked s)
  message m hm hp h0 := (h.message m hm hp h0).mono hs
  standing s hp h0 := (h.standing s hp h0).mono hs

theorem setStage (h : Accounted c events x) (g : Stage) :
    Accounted c events { x with stage := g } := { h with }

section Records

/-- A record from the channel keeps what is reported. -/
theorem accept (h : Accounted c events x) (hm : m ∈ x.messages) :
    Accounted c events (x.accept m) := by
  have hphase : (x.accept m).phase = x.phase := congrArg Prod.fst (State.workers_accept x m)
  -- only the standing of a running worker can change
  have hkept : ∀ s k, x.standing.get s = .reported k →
      (x.accept m).standing.get s = .reported k := by
    intro s k hs
    rw [State.standing_accept_of_ne_running (by rw [hs]; exact Standing.noConfusion), hs]
  exact {
    alive := fun s hs => by
      rcases State.standing_accept x m s with heq | ⟨-, heq⟩
      · exact h.alive s (heq.symm.trans hs)
      · rw [heq] at hs
        cases hs
    recorded := fun s hs => by
      rw [hphase] at hs
      rcases h.recorded s hs with ⟨k, hk⟩ | hn
      · exact .inl ⟨k, hkept s k hk⟩
      · exact .inr (by rwa [State.messages_accept])
    expected := by
      rw [StateBacked.expected_accept]
      exact h.expected.imp_right fun ⟨s, hs, hk, h0⟩ => ⟨s, hs, hkept s _ hk, h0⟩
    phase := fun s hs => by
      rw [hphase]
      exact h.phase s hs
    message := by
      rw [State.messages_accept]
      exact h.message
    standing := fun s hp hs => by
      rcases State.standing_accept x m s with heq | ⟨rfl, heq⟩
      · exact h.standing s hp (heq.symm.trans hs)
      · rw [heq] at hs
        exact h.message m hm hp (Standing.reported.inj hs) }

theorem foldl_accept (h : Accounted c events x) {ms : List Message} (hms : ms ⊆ x.messages) :
    Accounted c events (ms.foldl State.accept x) := by
  induction ms generalizing x with
  | nil => exact h
  | cons m rest ih =>
    obtain ⟨hm, hrest⟩ := List.cons_subset.mp hms
    exact ih (h.accept hm) (by rwa [State.messages_accept])

/-- Records may leave the channel once their senders count as reported. -/
theorem setMessages (h : Accounted c events x) {ms : List Message} (hms : ms ⊆ x.messages)
    (hgone : ∀ m ∈ x.messages, m ∈ ms ∨ x.standing.get m.sender ≠ .running) :
    Accounted c events { x with messages := ms } :=
  { h with
    recorded := fun s hs => by
      rcases h.recorded s hs with hk | ⟨m, hm, rfl⟩
      · exact .inl hk
      · rcases hgone m hm with hin | hrun
        · exact .inr ⟨m, hin, rfl⟩
        · exact .inl (Standing.exists_eq_reported hrun (h.alive m.sender))
    message := fun m hm => h.message m (hms hm) }

theorem drain (h : Accounted c events x) : Accounted c events x.drain := by
  have hmessages := State.messages_foldl_accept x x.messages
  -- all records are accepted first, so none of them is missed when the channel is emptied
  refine (h.foldl_accept (List.Subset.refl _)).setMessages (List.nil_subset _) fun m hm => .inr ?_
  rw [hmessages] at hm
  exact State.standing_foldl_accept_sender hm

/-- A worker that has ended has left its record, so none is taken for dead. -/
theorem inspect (h : Accounted c events x) (s : Strategy) :
    Accounted c events (x.inspect c s) := by
  unfold State.inspect
  split
  · rename_i hs
    have hreported : x.drain.standing.get s ≠ .running := by
      rcases h.recorded s (.inr hs.2) with ⟨k, hk⟩ | ⟨m, hm, rfl⟩
      · rw [hk] at hs
        cases hs.1
      · exact State.standing_foldl_accept_sender hm
    dsimp only
    rw [if_neg hreported]
    exact h.drain
  · exact h

theorem poll (h : Accounted c events x) : Accounted c events x.poll := by
  unfold State.poll
  split
  · exact h.setStage _
  · split
    · exact h.setStage _
    · rename_i m rest hm
      rw [State.accept_messages]
      refine ((h.accept (hm ▸ List.mem_cons_self)).setMessages ?_ ?_).setStage _
      · rw [State.messages_accept, hm]
        exact List.subset_cons_self m rest
      · intro n hn
        rw [State.messages_accept, hm] at hn
        rcases List.mem_cons.mp hn with rfl | hn
        · exact .inr (State.standing_accept_sender x n)
        · exact .inl hn

end Records

/-- A request asks for as much as the smallest proof needs. -/
theorem requestConfirmation (h : Accounted c events x) :
    Accounted c events x.requestConfirmation := by
  unfold State.requestConfirmation
  split
  · split
    · rename_i k hk
      split
      · -- what is expected now is the bound of a proof that stands
        obtain ⟨s, hs, hreported, h0⟩ := State.smallestProof?_eq_some hk
        exact {
          alive := h.alive
          recorded := h.recorded
          expected := .inr ⟨s, hs, hreported, h0⟩
          phase := h.phase
          message := h.message
          standing := h.standing }
      · exact h
    · exact h
  · exact h

theorem settle (h : Accounted c events x) : Accounted c events x.settle := by
  unfold State.settle
  split
  · exact h.setStage _
  · exact h.requestConfirmation.setStage _

theorem answer (h : Accounted c events x) (horder : AskedInOrder c events x) {k : Nat}
    (hk : x.phase.get s = .checking k) {a : Answer} (ha : a ≠ .crash) :
    Accounted c (events ++ [.answered s k a]) (x.setPhase s (c.phaseAfter s k a)) where
  alive := h.alive
  recorded t ht := by
    by_cases hts : t = s
    · subst hts
      rw [State.setPhase, PerWorker.get_set_self] at ht
      exact absurd ht (not_stopped_phaseAfter ha)
    · exact h.recorded t (by simpa [State.setPhase, PerWorker.get_set_of_ne _ _ hts] using ht)
  expected := h.expected
  phase t ht := by
    by_cases hts : t = s
    · subst hts
      rw [State.setPhase, PerWorker.get_set_self]
      exact PhaseExhausting.phaseAfter ht (hk ▸ horder.phase t) (hk ▸ h.phase t ht) a
    · rw [State.setPhase, PerWorker.get_set_of_ne _ _ hts]
      refine (h.phase t ht).mono (List.subset_append_left _ _) ?_
      rw [asked_append_answered, if_neg (Ne.symm hts), List.append_nil]
  message m hm hp h0 := (h.message m hm hp h0).mono (List.subset_append_left _ _)
  standing t hp h0 := (h.standing t hp h0).mono (List.subset_append_left _ _)

theorem read (h : Accounted c events x) (limit k : Nat) :
    Accounted c events
      ({ x with limit, requests := [] }.setPhase .baseCase (.seek limit (c.next? k))) := by
  have hx : Accounted c events { x with limit, requests := [] } := { h with }
  refine hx.setPhase (fun hp => ?_) nofun
  rcases Phase.seek_eq limit (c.next? k) with ⟨n, hn⟩ | hn <;> simp [hn] at hp

theorem send (h : Accounted c events x) {k : Nat} (hk : x.phase.get s = .reporting k) :
    Accounted c events { x.setPhase s .ending with messages := x.messages ++ [⟨s, k⟩] } where
  alive := h.alive
  recorded t ht := by
    by_cases hts : t = s
    · subst hts
      exact .inr ⟨_, List.mem_append_right _ (List.mem_singleton_self _), rfl⟩
    · have ht' : x.phase.get t = .ending ∨ x.phase.get t = .ended := by
        simpa [State.setPhase, PerWorker.get_set_of_ne _ _ hts] using ht
      rcases h.recorded t ht' with hn | ⟨m, hm, hs⟩
      · exact .inl hn
      · exact .inr ⟨m, List.mem_append_left _ hm, hs⟩
  expected := h.expected
  phase t ht := by
    by_cases hts : t = s
    · subst hts
      simp [State.setPhase, PhaseExhausting]
    · simpa [State.setPhase, PerWorker.get_set_of_ne _ _ hts] using h.phase t ht
  message m hm hp h0 := by
    rcases List.mem_append.mp hm with hm | hm
    · exact h.message m hm hp h0
    · cases List.mem_singleton.mp hm
      have hphase := h.phase s hp
      rw [hk] at hphase
      exact hphase h0
  standing := h.standing

/-- What one event keeps, as long as the run is not over. -/
theorem after {y : State} {e : Event} (h : Accounted c events x)
    (horder : AskedInOrder c events x) (hopen : x.isDone = false)
    (hcrash : ∀ s k, e ≠ .answered s k .crash) (hy : x.after? c e = some y) :
    Accounted c (events ++ [e]) y := by
  have hsub : events ⊆ events ++ [e] := List.subset_append_left _ _
  -- answers are evidence for their worker; every other event only lengthens the run
  cases Step.of_after? hy with
  | @answered s k a hk =>
    exact h.answer horder hk fun ha => hcrash s k (by rw [ha])
  | @read k hk => exact (h.read _ k).mono hsub (asked_append_of_ne nofun)
  | sent hk => exact (h.send hk).mono hsub (asked_append_of_ne nofun)
  | @ended s hs =>
    have hended : Accounted c events (x.setPhase s .ended) :=
      h.setPhase (fun _ => h.recorded s (.inl hs)) fun _ => trivial
    exact hended.mono hsub (asked_append_of_ne nofun)
  | cancelled hk hd =>
    rw [hopen] at hd
    cases hd
  | polled hg => exact h.poll.mono hsub (asked_append_of_ne nofun)
  | @inspected s rest hg =>
    exact ((h.inspect s).setStage _).mono hsub (asked_append_of_ne nofun)
  | settled hg => exact h.settle.mono hsub (asked_append_of_ne nofun)

end Accounted

section Runs
variable {c : Config} {events : List Event} {x y : State}

/-- Nothing follows on a verdict. -/
theorem State.stage_of_after? {e : Event} (hdone : x.isDone) (hy : x.after? c e = some y) :
    y.stage = x.stage := by
  unfold State.isDone at hdone
  cases Step.of_after? hy with
  | answered | read | sent | ended | cancelled => rfl
  | polled hg => rw [hg] at hdone; cases hdone
  | inspected hg => rw [hg] at hdone; cases hdone
  | settled hg => rw [hg] at hdone; cases hdone

theorem Run.accounted (hx : Run c events x) (hunbroken : Unbroken events)
    (hopen : x.isDone = false) : Accounted c events x := by
  induction hx with
  | start => exact .start c
  | @next events x y e hx hy ih =>
    -- a run that is over stays over, so it was not over before either
    have hopen' : x.isDone = false := by
      cases hd : x.isDone with
      | false => rfl
      | true =>
        rw [State.isDone, State.stage_of_after? hd hy] at hopen
        rw [State.isDone, hopen] at hd
        cases hd
    refine (ih hunbroken.of_append hopen').after hx.askedInOrder hopen' (fun s k he => ?_) hy
    exact hunbroken s k (he ▸ List.mem_append_right _ List.mem_cons_self)

end Runs

end GotoCheck.Induction
