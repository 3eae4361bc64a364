import GotoCheck.Induction.Parallel

/-! States of the parallel checks and the runs that lead to them. Following a list of events
computes, so a run at fixed events is a matter of evaluation, and runs are put together from
stretches of events. -/
namespace GotoCheck.Induction

namespace PerWorker
variable {α β : Type}

@[simp]
theorem get_set_self (p : PerWorker α) (s : Strategy) (a : α) : (p.set s a).get s = a := by
  cases s <;> rfl

theorem get_set_of_ne (p : PerWorker α) {s t : Strategy} (a : α) (h : t ≠ s) :
    (p.set s a).get t = p.get t := by
  cases s <;> cases t <;> simp_all [get, set]

@[simp]
theorem get_map (f : α → β) (p : PerWorker α) (s : Strategy) : (p.map f).get s = f (p.get s) := by
  cases s <;> rfl

end PerWorker

theorem Phase.seek_eq (limit : Nat) (next : Option Nat) :
    (∃ k, Phase.seek limit next = .checking k) ∨ Phase.seek limit next = .reporting 0 := by
  cases next with
  | none => exact .inr rfl
  | some k =>
    simp only [Phase.seek]
    split
    · exact .inl ⟨k, rfl⟩
    · exact .inr rfl

theorem Config.startPhase_eq (c : Config) (s : Strategy) :
    (∃ k, c.startPhase s = .checking k) ∨ c.startPhase s = .reporting 0 := by
  cases s with
  | baseCase => exact Phase.seek_eq c.largest (some 1)
  | forwardCondition =>
    simp only [Config.startPhase]
    split
    · exact .inr rfl
    · exact Phase.seek_eq _ _
  | inductiveStep =>
    simp only [Config.startPhase]
    split
    · exact .inr rfl
    · exact Phase.seek_eq _ _

namespace State

theorem phase_start (c : Config) (s : Strategy) : (start c).phase.get s = c.startPhase s := by
  cases s <;> rfl

/-- The part of a state that belongs to the workers. The coordinator leaves it as it is. -/
def workers (x : State) : PerWorker Phase × Nat := (x.phase, x.limit)

theorem workers_accept (x : State) (m : Message) : (x.accept m).workers = x.workers := by
  unfold accept; split <;> rfl

theorem workers_foldl_accept (ms : List Message) (x : State) :
    (ms.foldl accept x).workers = x.workers := by
  induction ms generalizing x with
  | nil => rfl
  | cons m rest ih => rw [List.foldl_cons, ih, workers_accept]

theorem workers_inspect (c : Config) (x : State) (s : Strategy) :
    (x.inspect c s).workers = x.workers := by
  have hdrain : x.drain.workers = x.workers := workers_foldl_accept x.messages x
  unfold inspect
  split
  · dsimp only
    split
    · split <;> exact hdrain
    · exact hdrain
  · rfl

theorem workers_poll (x : State) : x.poll.workers = x.workers := by
  unfold poll
  split
  · rfl
  · split
    · rfl
    · rename_i m rest _
      exact workers_accept { x with messages := rest } m

theorem workers_requestConfirmation (x : State) : x.requestConfirmation.workers = x.workers := by
  unfold requestConfirmation
  split
  · split
    · split <;> rfl
    · rfl
  · rfl

theorem workers_settle (x : State) : x.settle.workers = x.workers := by
  unfold settle
  split
  · rfl
  · exact workers_requestConfirmation x

end State

/-- What each event needs and does. -/
inductive Step (c : Config) (x : State) : Event → State → Prop
  | answered {s : Strategy} {k : Nat} (a : Answer) :
      x.phase.get s = .checking k → Step c x (.answered s k a) (x.setPhase s (c.phaseAfter s k a))
  | read {k : Nat} : x.phase.baseCase = .reading k →
      Step c x .read ({ x with limit := x.requests.foldl min x.limit, requests := [] }.setPhase
        .baseCase (.seek (x.requests.foldl min x.limit) (c.next? k)))
  | sent {s : Strategy} {k : Nat} : x.phase.get s = .reporting k →
      Step c x (.sent s k) { x.setPhase s .ending with messages := x.messages ++ [⟨s, k⟩] }
  | ended {s : Strategy} : x.phase.get s = .ending → Step c x (.ended s) (x.setPhase s .ended)
  | cancelled {s : Strategy} {k : Nat} : x.phase.get s = .checking k → x.isDone →
      Step c x (.cancelled s) (x.setPhase s .ended)
  | polled : x.stage = .polling → Step c x .polled x.poll
  | inspected {s : Strategy} {rest : List Strategy} : x.stage = .inspecting (s :: rest) →
      Step c x (.inspected s) { x.inspect c s with stage := .inspecting rest }
  | settled : x.stage = .inspecting [] → Step c x .settled x.settle

theorem Step.of_after? {c : Config} {x y : State} {e : Event} (h : x.after? c e = some y) :
    Step c x e y := by
  cases e with
  | answered s k a =>
    obtain ⟨hk, hy⟩ := Option.ite_none_right_eq_some.mp h
    cases hy
    exact .answered a hk
  | read =>
    simp only [State.after?] at h
    split at h
    · rename_i k hk
      cases h
      exact .read hk
    · cases h
  | sent s k =>
    obtain ⟨hk, hy⟩ := Option.ite_none_right_eq_some.mp h
    cases hy
    exact .sent hk
  | ended s =>
    obtain ⟨hs, hy⟩ := Option.ite_none_right_eq_some.mp h
    cases hy
    exact .ended hs
  | cancelled s =>
    simp only [State.after?] at h
    split at h
    · rename_i k hk
      obtain ⟨hd, hy⟩ := Option.ite_none_right_eq_some.mp h
      cases hy
      exact .cancelled hk hd
    · cases h
  | polled =>
    obtain ⟨hg, hy⟩ := Option.ite_none_right_eq_some.mp h
    cases hy
    exact .polled hg
  | inspected s =>
    simp only [State.after?] at h
    split at h
    · rename_i t rest hg
      obtain ⟨ht, hy⟩ := Option.ite_none_right_eq_some.mp h
      cases hy
      exact .inspected (ht ▸ hg)
    · cases h
  | settled =>
    obtain ⟨hg, hy⟩ := Option.ite_none_right_eq_some.mp h
    cases hy
    exact .settled hg

namespace State

/-- The state after events in order, none if one of them cannot happen. -/
def follow? (c : Config) (x : State) : List Event → Option State
  | [] => some x
  | e :: rest => (x.after? c e).bind fun y => y.follow? c rest

theorem follow?_append {c : Config} {x y : State} {es fs : List Event}
    (h : x.follow? c es = some y) : x.follow? c (es ++ fs) = y.follow? c fs := by
  induction es generalizing x with
  | nil => cases h; rfl
  | cons e rest ih =>
    obtain ⟨z, hz, hrest⟩ := Option.bind_eq_some_iff.mp h
    simp only [List.cons_append, follow?, hz, Option.bind_some]
    exact ih hrest

end State

/-- One turn of the coordinator. -/
def turn : List Event :=
  [.polled, .inspected .baseCase, .inspected .forwardCondition, .inspected .inductiveStep, .settled]

theorem Run.follow {c : Config} {events es : List Event} {x y : State} (hx : Run c events x)
    (h : x.follow? c es = some y) : Run c (events ++ es) y := by
  induction es generalizing x events with
  | nil => cases h; simpa using hx
  | cons e rest ih =>
    obtain ⟨z, hz, hrest⟩ := Option.bind_eq_some_iff.mp h
    simpa using ih (hx.next hz) hrest

/-- Runs are exactly the lists of events that can be followed from the start. -/
theorem run_iff_follow? {c : Config} {events : List Event} {x : State} :
    Run c events x ↔ (State.start c).follow? c events = some x := by
  constructor
  · intro hx
    induction hx with
    | start => rfl
    | next _ hy ih =>
      rw [State.follow?_append ih]
      simp [State.follow?, hy]
  · intro h
    exact Run.start.follow h

end GotoCheck.Induction
