import GotoCheck.Proofs.Parallel.Asked
import GotoCheck.Proofs.Parallel.Evidence

/-! Each worker by itself. What an event of a run does to one worker is one of a few things, so the
answers that the worker has had can be followed to its record: up to the last of them it goes on
along its bounds, and the last one, or the end of the bounds, tells what it reports. The requests
that reach the base case may be any and may come at any time. -/
namespace GotoCheck.Induction
variable {c : Config} {s : Strategy} {e : Event} {events : List Event} {x y : State}
variable {limit k : Nat} {l received : List Nat} {a : Answer} {as : List (Nat × Answer)} {p : Phase}

/-- A run in which requests for any bound may reach the base case at any time, beside those that the
coordinator sends. `received` are the requests that the base case has read, the oldest first. -/
inductive RequestedRun (c : Config) : List Event → List Nat → State → Prop
  | start : RequestedRun c [] [] (.start c)
  | next {events : List Event} {received : List Nat} {x y : State} {e : Event} :
      RequestedRun c events received x → x.after? c e = some y →
      RequestedRun c (events ++ [e]) (received ++ if e = .read then x.requests else []) y
  | request {events : List Event} {received : List Nat} {x : State} (r : Nat) :
      RequestedRun c events received x →
      RequestedRun c events received { x with requests := x.requests ++ [r] }

/-- The answers that a worker has had, each with its bound, in order. -/
def answers (events : List Event) (s : Strategy) : List (Nat × Answer) :=
  events.filterMap fun
    | .answered t k a => if t = s then some (k, a) else none
    | _ => none

theorem answers_append_answered (events : List Event) (s : Strategy) (k : Nat) (a : Answer) :
    answers (events ++ [.answered s k a]) s = answers events s ++ [(k, a)] := by
  simp [answers]

/-- Only the answers that the worker itself has count. -/
theorem answers_append_of_ne (he : ∀ k a, e ≠ .answered s k a) :
    answers (events ++ [e]) s = answers events s := by
  cases e with
  | answered t k a =>
    have hne : t ≠ s := by
      rintro rfl
      exact he k a rfl
    simp [answers, hne]
  | read | sent _ _ | ended _ | cancelled _ | polled | inspected _ | settled => simp [answers]

theorem mem_answers_iff : (k, a) ∈ answers events s ↔ Event.answered s k a ∈ events := by
  simp only [answers, List.mem_filterMap]
  constructor
  · rintro ⟨e, he, hka⟩
    split at hka
    · split at hka
      · cases hka
        rename_i hts
        exact hts ▸ he
      · cases hka
    · cases hka
  · intro h
    exact ⟨_, h, by simp⟩

theorem map_fst_answers (events : List Event) (s : Strategy) :
    (answers events s).map Prod.fst = asked events s := by
  simp only [answers, asked, List.map_filterMap]
  refine congrArg (List.filterMap · events) (funext fun e => ?_)
  cases e with
  | answered t k a =>
    dsimp only
    split <;> rfl
  | read | sent _ _ | ended _ | cancelled _ | polled | inspected _ | settled => rfl

/-- The answer after which a worker goes on to its next bound. -/
def Strategy.passing : Strategy → Answer
  | .baseCase => .outcome .safe
  | .forwardCondition | .inductiveStep => .outcome .violated

/-- The answer after which a worker reports its bound. -/
def Strategy.conclusive : Strategy → Answer
  | .baseCase => .outcome .violated
  | .forwardCondition | .inductiveStep => .outcome .safe

theorem Strategy.passing_of_ne (hs : s ≠ .baseCase) : s.passing = .outcome .violated := by
  cases s with
  | baseCase => exact absurd rfl hs
  | forwardCondition => rfl
  | inductiveStep => rfl

theorem Strategy.conclusive_of_ne (hs : s ≠ .baseCase) : s.conclusive = .outcome .safe := by
  cases s with
  | baseCase => exact absurd rfl hs
  | forwardCondition => rfl
  | inductiveStep => rfl

/-- Answers at which a worker has gone on. -/
def Strategy.through (s : Strategy) (l : List Nat) : List (Nat × Answer) :=
  l.map fun k => (k, s.passing)

theorem Strategy.map_fst_through (s : Strategy) (l : List Nat) :
    (s.through l).map Prod.fst = l := by
  simp [through, Function.comp_def]

/-- The answers that lead to a record, for a worker whose bounds end at `limit`. -/
inductive Reports (c : Config) (s : Strategy) (limit : Nat) : List (Nat × Answer) → Nat → Prop
  | concluded {l : List Nat} {k : Nat} : l ++ [k] <+: c.steps s.firstBound →
      Reports c s limit (s.through l ++ [(k, s.conclusive)]) k
  | erred {l : List Nat} {k : Nat} {e : CheckerError} : l ++ [k] <+: c.steps s.firstBound →
      Reports c s limit (s.through l ++ [(k, .error e)]) 0
  | through {l : List Nat} : l <+: c.steps s.firstBound →
      (∀ j ∈ c.steps s.firstBound, j ≤ limit → j ∈ l) → Reports c s limit (s.through l) 0

/-- The answers that a worker has had in a phase. -/
def PhaseFollows (c : Config) (s : Strategy) (limit : Nat) (as : List (Nat × Answer)) : Phase → Prop
  | .checking k => ∃ l, as = s.through l ∧ k ≤ c.largest ∧ c.steps s.firstBound = l ++ c.steps k
  | .reading k => s = .baseCase ∧
    ∃ l, as = s.through (l ++ [k]) ∧ k ≤ c.largest ∧ c.steps s.firstBound = l ++ c.steps k
  | .reporting k => Reports c s limit as k
  | .ending | .ended => as.map Prod.fst <+: c.steps s.firstBound

/-- A check that is not switched off. -/
def Config.runs (c : Config) (s : Strategy) : Prop := s = .baseCase ∨ c.proves s

/-! What one event does to one worker. -/

/-- The bound that a worker goes up to: only the base case lets requests lower it. -/
def State.stop (c : Config) (x : State) (s : Strategy) : Nat :=
  if s = .baseCase then x.limit else c.largest

/-- What an event makes of where a worker stops and of its phase. -/
inductive WorkerStep (c : Config) (s : Strategy) (requests : List Nat) :
    Event → Nat → Phase → Nat → Phase → Prop
  | quiet {e : Event} {limit : Nat} {p : Phase} : (∀ k a, e ≠ .answered s k a) →
      (∀ k, e ≠ .sent s k) → WorkerStep c s requests e limit p limit p
  | answered {limit k : Nat} (a : Answer) :
      WorkerStep c s requests (.answered s k a) limit (.checking k) limit (c.phaseAfter s k a)
  | read {limit k : Nat} : s = .baseCase → WorkerStep c s requests .read limit (.reading k)
      (requests.foldl min limit) (.seek (requests.foldl min limit) (c.next? k))
  | sent {limit k : Nat} :
      WorkerStep c s requests (.sent s k) limit (.reporting k) limit .ending
  | ended {limit : Nat} : WorkerStep c s requests (.ended s) limit .ending limit .ended
  | cancelled {limit k : Nat} :
      WorkerStep c s requests (.cancelled s) limit (.checking k) limit .ended

theorem workerStep_setPhase {t : Strategy} {requests : List Nat}
    (h : WorkerStep c t requests e (x.stop c t) (x.phase.get t) (x.stop c t) p)
    (hother : s ≠ t → (∀ k a, e ≠ .answered s k a) ∧ ∀ k, e ≠ .sent s k) :
    WorkerStep c s requests e (x.stop c s) (x.phase.get s) (x.stop c s)
      ((x.setPhase t p).phase.get s) := by
  -- a worker sees nothing of what another one does
  by_cases hst : s = t
  · subst hst
    rwa [State.setPhase, PerWorker.get_set_self]
  · rw [State.setPhase, PerWorker.get_set_of_ne _ _ hst]
    exact .quiet (hother hst).1 (hother hst).2

theorem workerStep_of_after? (hy : x.after? c e = some y) (s : Strategy) :
    WorkerStep c s x.requests e (x.stop c s) (x.phase.get s) (y.stop c s) (y.phase.get s) := by
  have quiet (hw : y.workers = x.workers) (hanswered : ∀ k a, e ≠ .answered s k a)
      (hsent : ∀ k, e ≠ .sent s k) :
      WorkerStep c s x.requests e (x.stop c s) (x.phase.get s) (y.stop c s) (y.phase.get s) := by
    have hphase : y.phase = x.phase := congrArg Prod.fst hw
    have hlimit : y.limit = x.limit := congrArg Prod.snd hw
    have hstop : y.stop c s = x.stop c s := by
      unfold State.stop
      rw [hlimit]
    rw [hphase, hstop]
    exact .quiet hanswered hsent
  cases Step.of_after? hy with
  | @answered t k a hk =>
    refine workerStep_setPhase (hk ▸ .answered a) fun hst => ⟨fun j b heq => ?_, by simp⟩
    cases heq
    exact hst rfl
  | @read k hk =>
    -- requests lower where the base case stops and concern no other worker
    cases s with
    | baseCase =>
      have hbase : x.phase.get .baseCase = .reading k := hk
      rw [hbase, State.setPhase, PerWorker.get_set_self]
      exact .read rfl
    | forwardCondition => exact .quiet (by simp) (by simp)
    | inductiveStep => exact .quiet (by simp) (by simp)
  | @sent t k hk =>
    refine workerStep_setPhase (hk ▸ .sent) fun hst => ⟨by simp, fun j heq => ?_⟩
    cases heq
    exact hst rfl
  | @ended t ht => exact workerStep_setPhase (ht ▸ .ended) fun _ => ⟨by simp, by simp⟩
  | @cancelled t k hk hd => exact workerStep_setPhase (hk ▸ .cancelled) fun _ => ⟨by simp, by simp⟩
  | polled hg => exact quiet (State.workers_poll x) (by simp) (by simp)
  | @inspected t rest hg => exact quiet (State.workers_inspect c x t) (by simp) (by simp)
  | settled hg => exact quiet (State.workers_settle x) (by simp) (by simp)

/-- Only the base case's look at its requests lowers where it stops. -/
theorem limit_of_after? (hy : x.after? c e = some y) :
    y.limit = (if e = .read then x.requests else []).foldl min x.limit := by
  have quiet (hw : y.workers = x.workers) : y.limit = x.limit := congrArg Prod.snd hw
  cases Step.of_after? hy with
  | answered | read | sent | ended | cancelled => rfl
  | polled hg => exact quiet (State.workers_poll x)
  | @inspected t rest hg => exact quiet (State.workers_inspect c x t)
  | settled hg => exact quiet (State.workers_settle x)

/-! What a run keeps of one worker. -/

/-- Past its limit, or past 32 bits, a worker is through with all bounds up to where it stops. -/
theorem PhaseFollows.seek (hk : k ≤ c.largest) (hsteps : c.steps s.firstBound = l ++ c.steps k)
    (hlimit : limit ≤ c.largest) :
    PhaseFollows c s limit (s.through (l ++ [k])) (.seek limit (c.next? k)) := by
  have hs := steps_append_cons hk hsteps
  have hpre : l ++ [k] <+: c.steps s.firstBound := ⟨_, hs.symm⟩
  cases hn : c.next? k with
  | none =>
    rw [hn, Option.map_none, Option.getD_none, List.append_nil] at hs
    exact .through hpre fun j hj _ => hs ▸ hj
  | some n =>
    rw [hn, Option.map_some, Option.getD_some] at hs
    simp only [Phase.seek]
    split
    · exact ⟨_, rfl, by omega, hs⟩
    · refine .through hpre fun j hj hle => ?_
      rw [hs] at hj
      -- the bounds that are left out begin beyond the limit
      refine (List.mem_append.mp hj).resolve_right fun hlater => ?_
      have := Config.le_of_mem_steps hlater
      omega

theorem Config.startPhase_of_runs (hs : c.runs s) :
    c.startPhase s = .seek c.largest (some s.firstBound) := by
  cases s with
  | baseCase => rfl
  | forwardCondition =>
    have hon : c.forwardDisabled = false := by simpa [Config.runs, Config.proves] using hs
    exact if_neg (by simp [hon])
  | inductiveStep =>
    have hon : c.inductiveDisabled = false := by simpa [Config.runs, Config.proves] using hs
    exact if_neg (by simp [hon])

theorem PhaseFollows.startPhase (hs : c.runs s) :
    PhaseFollows c s c.largest [] (c.startPhase s) := by
  rw [Config.startPhase_of_runs hs]
  simp only [Phase.seek]
  split
  · exact ⟨[], rfl, by assumption, rfl⟩
  · rename_i hlarge
    refine .through (l := []) List.nil_prefix fun j hj _ => ?_
    rwa [Config.steps, if_neg hlarge] at hj

theorem PhaseFollows.phaseAfter (h : PhaseFollows c s limit as (.checking k))
    (hlimit : s ≠ .baseCase → limit = c.largest) (a : Answer) :
    PhaseFollows c s limit (as ++ [(k, a)]) (c.phaseAfter s k a) := by
  obtain ⟨l, rfl, hk, hsteps⟩ := h
  have hpre : l ++ [k] <+: c.steps s.firstBound := ⟨_, (steps_append_cons hk hsteps).symm⟩
  have hthrough : s.through l ++ [(k, s.passing)] = s.through (l ++ [k]) := by
    simp [Strategy.through]
  have hasked : (s.through l ++ [(k, a)]).map Prod.fst <+: c.steps s.firstBound := by
    rwa [List.map_append, s.map_fst_through]
  cases a with
  | error e => exact .erred hpre
  | crash => exact hasked
  | outcome o =>
    -- one outcome lets the worker go on and the other is its conclusion
    by_cases hs : s = .baseCase
    · subst hs
      cases o with
      | violated => exact .concluded hpre
      | safe => exact ⟨rfl, l, hthrough, hk, hsteps⟩
    · cases o with
      | violated =>
        simp only [Config.phaseAfter, if_neg hs]
        rw [← Strategy.passing_of_ne hs, hthrough, hlimit hs]
        exact .seek hk hsteps (Nat.le_refl _)
      | safe =>
        simp only [Config.phaseAfter, if_neg hs]
        rw [← Strategy.conclusive_of_ne hs]
        exact .concluded hpre

/-- The bound that a worker is about to check. -/
def Phase.pending : Phase → List Nat
  | .checking k => [k]
  | _ => []

theorem Reports.isPrefix (h : Reports c s limit as k) :
    as.map Prod.fst <+: c.steps s.firstBound := by
  cases h with
  | concluded hl => simpa [s.map_fst_through] using hl
  | erred hl => simpa [s.map_fst_through] using hl
  | through hl _ => rwa [s.map_fst_through]

theorem PhaseFollows.isPrefix (h : PhaseFollows c s limit as p) :
    as.map Prod.fst ++ p.pending <+: c.steps s.firstBound := by
  cases p with
  | checking k =>
    obtain ⟨l, rfl, hk, hsteps⟩ := h
    rw [s.map_fst_through]
    exact ⟨_, (steps_append_cons hk hsteps).symm⟩
  | reading k =>
    obtain ⟨-, l, rfl, hk, hsteps⟩ := h
    rw [s.map_fst_through]
    exact (List.append_nil _).symm ▸ ⟨_, (steps_append_cons hk hsteps).symm⟩
  | reporting k => exact (List.append_nil _).symm ▸ Reports.isPrefix h
  | ending => exact (List.append_nil _).symm ▸ h
  | ended => exact (List.append_nil _).symm ▸ h

/-- A worker that has sent its record or is gone. -/
def Phase.isOver : Phase → Bool
  | .ending | .ended => true
  | _ => false

theorem Phase.isOver_seek (limit : Nat) (next : Option Nat) :
    (Phase.seek limit next).isOver = false := by
  obtain ⟨k, hk⟩ | hr := Phase.seek_eq limit next
  · rw [hk]
    rfl
  · rw [hr]
    rfl

/-- Only a crash ends a worker at an answer. -/
theorem eq_crash_of_isOver (h : (c.phaseAfter s k a).isOver) : a = .crash := by
  cases a with
  | crash => rfl
  | error e => cases h
  | outcome o =>
    cases o with
    | violated =>
      simp only [Config.phaseAfter] at h
      split at h
      · cases h
      · rw [Phase.isOver_seek] at h
        cases h
    | safe =>
      simp only [Config.phaseAfter] at h
      split at h <;> cases h

/-- The answers and the records of a worker fit the phase that it is in. -/
structure WorkerFollows (c : Config) (events : List Event) (s : Strategy) (limit : Nat)
    (p : Phase) : Prop where
  phase : PhaseFollows c s limit (answers events s) p
  sent : ∀ k, Event.sent s k ∈ events → p.isOver ∧ Reports c s limit (answers events s) k
  finished : p.isOver → (∃ k, Event.sent s k ∈ events) ∨ Event.cancelled s ∈ events ∨
    ∃ k, Event.answered s k .crash ∈ events

namespace WorkerFollows
variable {limit' : Nat} {p' : Phase} {requests : List Nat}

theorem start (hs : c.runs s) : WorkerFollows c [] s c.largest (c.startPhase s) where
  phase := .startPhase hs
  sent := nofun
  finished h := by
    rw [Config.startPhase_of_runs hs, Phase.isOver_seek] at h
    cases h

theorem not_over (h : WorkerFollows c events s limit p) (hp : p.isOver = false) :
    Event.sent s k ∉ events := by
  intro hk
  have hover := (h.sent k hk).1
  rw [hp] at hover
  cases hover

/-- An event that is neither an answer nor a record of the worker changes nothing about it. -/
theorem quiet (h : WorkerFollows c events s limit p) (hanswered : ∀ k a, e ≠ .answered s k a)
    (hsent : ∀ k, e ≠ .sent s k) : WorkerFollows c (events ++ [e]) s limit p where
  phase := by
    rw [answers_append_of_ne hanswered]
    exact h.phase
  sent k hk := by
    rw [answers_append_of_ne hanswered]
    refine h.sent k ((List.mem_append.mp hk).resolve_right fun hnew => ?_)
    exact hsent k (List.mem_singleton.mp hnew).symm
  finished hp := by
    have hgrow : events ⊆ events ++ [e] := List.subset_append_left events [e]
    rcases h.finished hp with ⟨k, hk⟩ | hcancelled | ⟨k, hk⟩
    · exact .inl ⟨k, hgrow hk⟩
    · exact .inr (.inl (hgrow hcancelled))
    · exact .inr (.inr ⟨k, hgrow hk⟩)

/-- A worker that goes on has sent nothing before, nor does it send now. -/
theorem continued (h : WorkerFollows c events s limit p) (hp : p.isOver = false)
    (hsent : ∀ k, e ≠ .sent s k)
    (hphase : PhaseFollows c s limit' (answers (events ++ [e]) s) p')
    (hover : p'.isOver → Event.cancelled s ∈ events ++ [e] ∨
      ∃ k, Event.answered s k .crash ∈ events ++ [e]) :
    WorkerFollows c (events ++ [e]) s limit' p' where
  phase := hphase
  sent k hk := by
    rcases List.mem_append.mp hk with hold | hnew
    · exact absurd hold (h.not_over hp)
    · exact absurd (List.mem_singleton.mp hnew).symm (hsent k)
  finished hp' := .inr (hover hp')

theorem after (h : WorkerFollows c events s limit p) (hlimit : limit ≤ c.largest)
    (hprover : s ≠ .baseCase → limit = c.largest)
    (hstep : WorkerStep c s requests e limit p limit' p') :
    WorkerFollows c (events ++ [e]) s limit' p' := by
  -- a worker that gets an answer, reads or is cancelled has sent nothing so far
  have hlast (e : Event) : e ∈ events ++ [e] :=
    List.mem_append_right events (List.mem_singleton_self e)
  cases hstep with
  | quiet hanswered hsent => exact h.quiet hanswered hsent
  | @answered _ k a =>
    refine h.continued rfl nofun ?_ fun hover => .inr ⟨k, ?_⟩
    · rw [answers_append_answered]
      exact h.phase.phaseAfter hprover a
    · exact eq_crash_of_isOver hover ▸ hlast _
  | @read _ k hbase =>
    have has : answers (events ++ [.read]) s = answers events s := answers_append_of_ne nofun
    refine h.continued rfl nofun ?_ fun hover => ?_
    · obtain ⟨-, l, hl, hk, hsteps⟩ := h.phase
      rw [has, hl]
      exact .seek hk hsteps (Nat.le_trans (List.foldl_min_le _ _) hlimit)
    · rw [Phase.isOver_seek] at hover
      cases hover
  | @sent _ k =>
    have has : answers (events ++ [.sent s k]) s = answers events s := answers_append_of_ne nofun
    refine ⟨?_, fun j hj => ⟨rfl, ?_⟩, fun _ => .inl ⟨k, hlast _⟩⟩
    · rw [has]
      exact Reports.isPrefix h.phase
    · rw [has]
      rcases List.mem_append.mp hj with hold | hnew
      · exact absurd hold (h.not_over rfl)
      · cases List.mem_singleton.mp hnew
        exact h.phase
  | ended =>
    -- the phase before was over as well
    have hquiet : WorkerFollows c (events ++ [.ended s]) s limit .ending := h.quiet nofun nofun
    exact ⟨hquiet.phase, fun k hk => ⟨rfl, (hquiet.sent k hk).2⟩, fun _ => hquiet.finished rfl⟩
  | @cancelled _ k =>
    have has : answers (events ++ [.cancelled s]) s = answers events s :=
      answers_append_of_ne nofun
    refine h.continued rfl nofun ?_ fun _ => .inl (hlast _)
    rw [has]
    exact List.IsPrefix.trans (List.prefix_append _ _) h.phase.isPrefix

end WorkerFollows

theorem RequestedRun.limit_eq (hx : RequestedRun c events received x) :
    x.limit = received.foldl min c.largest := by
  induction hx with
  | start => rfl
  | next _ hy ih => rw [limit_of_after? hy, ih, List.foldl_append]
  | request r _ ih => exact ih

theorem RequestedRun.stop_le (hx : RequestedRun c events received x) (s : Strategy) :
    x.stop c s ≤ c.largest := by
  unfold State.stop
  split
  · rw [hx.limit_eq]
    exact List.foldl_min_le _ _
  · exact Nat.le_refl _

theorem RequestedRun.workerFollows (hx : RequestedRun c events received x) (hs : c.runs s) :
    WorkerFollows c events s (x.stop c s) (x.phase.get s) := by
  induction hx with
  | start =>
    have hstop : (State.start c).stop c s = c.largest := ite_self _
    rw [hstop, State.phase_start]
    exact .start hs
  | next hrun hy ih =>
    exact ih.after (hrun.stop_le s) (fun hne => if_neg hne) (workerStep_of_after? hy s)
  | request r _ ih => exact ih

end GotoCheck.Induction
