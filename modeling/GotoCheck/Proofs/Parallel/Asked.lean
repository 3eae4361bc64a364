import GotoCheck.Proofs.General
import GotoCheck.Proofs.Parallel.State
import GotoCheck.Proofs.Steps

/-! The bounds that each worker asks the checker for. They follow the steps of the configuration, in
order and from the first on, and a request only lets the base case stop early. -/
namespace GotoCheck.Induction

/-- The first bound of a worker. -/
def Strategy.firstBound : Strategy → Nat
  | .baseCase => 1
  | .forwardCondition | .inductiveStep => 2

theorem Strategy.firstBound_of_ne {s : Strategy} (hs : s ≠ .baseCase) : s.firstBound = 2 := by
  cases s with
  | baseCase => exact absurd rfl hs
  | forwardCondition => rfl
  | inductiveStep => rfl

/-- The bounds that a worker has had an answer for, in order. -/
def asked (events : List Event) (s : Strategy) : List Nat :=
  events.filterMap fun
    | .answered t k _ => if t = s then some k else none
    | _ => none

theorem mem_asked {events : List Event} {s : Strategy} {k : Nat} {a : Answer}
    (h : Event.answered s k a ∈ events) : k ∈ asked events s :=
  List.mem_filterMap.mpr ⟨_, h, if_pos rfl⟩

theorem asked_append_answered (events : List Event) (s t : Strategy) (k : Nat) (a : Answer) :
    asked (events ++ [.answered t k a]) s = asked events s ++ if t = s then [k] else [] := by
  simp only [asked, List.filterMap_append, List.filterMap_cons, List.filterMap_nil]
  split <;> simp_all

/-- Only answers count. -/
theorem asked_append_of_ne {events : List Event} {e : Event} (he : ∀ t k a, e ≠ .answered t k a)
    (s : Strategy) : asked (events ++ [e]) s = asked events s := by
  cases e with
  | answered t k a => exact absurd rfl (he t k a)
  | read | sent _ _ | ended _ | cancelled _ | polled | inspected _ | settled => simp [asked]

/-- Where a worker stands in its steps, with `l` the bounds that it has asked for. -/
def PhaseInOrder (c : Config) (s : Strategy) (l : List Nat) : Phase → Prop
  | .checking k => k ≤ c.largest ∧ c.steps s.firstBound = l ++ c.steps k
  | .reading k => ∃ l', l = l' ++ [k] ∧ k ≤ c.largest ∧ c.steps s.firstBound = l' ++ c.steps k
  | _ => l <+: c.steps s.firstBound

/-- The steps that come after a bound. -/
theorem steps_append_cons {c : Config} {a k : Nat} {l : List Nat} (hk : k ≤ c.largest)
    (h : c.steps a = l ++ c.steps k) :
    c.steps a = (l ++ [k]) ++ ((c.next? k).map c.steps).getD [] := by
  rw [h, c.steps_of_le hk, List.append_assoc, List.singleton_append]

theorem PhaseInOrder.isPrefix {c : Config} {s : Strategy} {l : List Nat} {p : Phase}
    (h : PhaseInOrder c s l p) : l <+: c.steps s.firstBound := by
  cases p with
  | checking k => exact ⟨_, h.2.symm⟩
  | reading k =>
    obtain ⟨l', rfl, hk, hs⟩ := h
    exact ⟨_, (steps_append_cons hk hs).symm⟩
  | reporting k => exact h
  | ending => exact h
  | ended => exact h

/-- A worker that has had an answer at `k` goes on within its steps, whatever lower limit it has. -/
theorem PhaseInOrder.seek {c : Config} {s : Strategy} {l : List Nat} {k limit : Nat}
    (hk : k ≤ c.largest) (h : c.steps s.firstBound = l ++ c.steps k) (hl : limit ≤ c.largest) :
    PhaseInOrder c s (l ++ [k]) (.seek limit (c.next? k)) := by
  have hs := steps_append_cons hk h
  -- a worker that stops short of its next bound has still asked for a prefix of its steps
  cases hn : c.next? k with
  | none => exact ⟨_, hs.symm⟩
  | some n =>
    simp only [hn, Option.map_some, Option.getD_some] at hs
    simp only [Phase.seek]
    split
    · exact ⟨by omega, hs⟩
    · exact ⟨_, hs.symm⟩

theorem PhaseInOrder.startPhase (c : Config) (s : Strategy) :
    PhaseInOrder c s [] (c.startPhase s) := by
  have seek : PhaseInOrder c s [] (.seek c.largest (some s.firstBound)) := by
    simp only [Phase.seek]
    split
    · exact ⟨by assumption, rfl⟩
    · exact List.nil_prefix
  cases s with
  | baseCase => exact seek
  | forwardCondition =>
    simp only [Config.startPhase]
    split
    · exact List.nil_prefix
    · exact seek
  | inductiveStep =>
    simp only [Config.startPhase]
    split
    · exact List.nil_prefix
    · exact seek

theorem PhaseInOrder.phaseAfter {c : Config} {s : Strategy} {l : List Nat} {k : Nat}
    (h : PhaseInOrder c s l (.checking k)) (a : Answer) :
    PhaseInOrder c s (l ++ [k]) (c.phaseAfter s k a) := by
  obtain ⟨hk, hs⟩ := h
  have hpre : l ++ [k] <+: c.steps s.firstBound := ⟨_, (steps_append_cons hk hs).symm⟩
  cases a with
  | outcome o =>
    cases o with
    | violated =>
      simp only [Config.phaseAfter]
      split
      · exact hpre
      · exact PhaseInOrder.seek hk hs (Nat.le_refl _)
    | safe =>
      simp only [Config.phaseAfter]
      split
      · exact ⟨l, rfl, hk, hs⟩
      · exact hpre
  | error e => exact hpre
  | crash => exact hpre

/-- Every worker is in order, and the base case has no limit above the largest bound. -/
structure AskedInOrder (c : Config) (events : List Event) (x : State) : Prop where
  limit_le : x.limit ≤ c.largest
  phase : ∀ s, PhaseInOrder c s (asked events s) (x.phase.get s)

namespace AskedInOrder
variable {c : Config} {events : List Event} {x y : State}

theorem start (c : Config) : AskedInOrder c [] (.start c) where
  limit_le := Nat.le_refl _
  phase s := by
    rw [State.phase_start]
    exact PhaseInOrder.startPhase c s

/-- An event that is no answer and leaves the workers alone changes nothing here. -/
theorem quiet (h : AskedInOrder c events x) {e : Event} (he : ∀ t k a, e ≠ .answered t k a)
    (hw : y.workers = x.workers) : AskedInOrder c (events ++ [e]) y where
  limit_le := by
    have hl : y.limit = x.limit := congrArg Prod.snd hw
    rw [hl]
    exact h.limit_le
  phase s := by
    have hp : y.phase = x.phase := congrArg Prod.fst hw
    rw [hp, asked_append_of_ne he]
    exact h.phase s

theorem setPhase (h : AskedInOrder c events x) {s : Strategy} {p : Phase}
    (hp : PhaseInOrder c s (asked events s) p) : AskedInOrder c events (x.setPhase s p) where
  limit_le := h.limit_le
  phase t := by
    by_cases ht : t = s
    · subst ht
      simpa [State.setPhase] using hp
    · simpa [State.setPhase, PerWorker.get_set_of_ne _ p ht] using h.phase t

theorem answer (h : AskedInOrder c events x) {s : Strategy} {k : Nat}
    (hk : x.phase.get s = .checking k) (a : Answer) :
    AskedInOrder c (events ++ [.answered s k a]) (x.setPhase s (c.phaseAfter s k a)) where
  limit_le := h.limit_le
  phase t := by
    rw [asked_append_answered]
    by_cases ht : t = s
    · subst ht
      have := PhaseInOrder.phaseAfter (hk ▸ h.phase t) a
      simpa [State.setPhase] using this
    · simpa [State.setPhase, PerWorker.get_set_of_ne _ _ ht, Ne.symm ht] using h.phase t

theorem read (h : AskedInOrder c events x) {k : Nat} (hk : x.phase.baseCase = .reading k) :
    let limit := x.requests.foldl min x.limit
    AskedInOrder c events
      ({ x with limit, requests := [] }.setPhase .baseCase (.seek limit (c.next? k))) := by
  intro limit
  -- requests only lower the limit
  have hl : limit ≤ c.largest := Nat.le_trans (List.foldl_min_le _ _) h.limit_le
  obtain ⟨l, hl', hle, hs⟩ : PhaseInOrder c .baseCase (asked events .baseCase) (.reading k) :=
    hk ▸ h.phase .baseCase
  have hx : AskedInOrder c events { x with limit, requests := [] } := ⟨hl, h.phase⟩
  refine hx.setPhase ?_
  rw [hl']
  exact PhaseInOrder.seek hle hs hl

theorem after {e : Event} (h : AskedInOrder c events x) (hy : x.after? c e = some y) :
    AskedInOrder c (events ++ [e]) y := by
  have hstop (s : Strategy) : PhaseInOrder c s (asked events s) .ended := (h.phase s).isPrefix
  -- only an answer adds to what was asked for
  cases Step.of_after? hy with
  | answered a hk => exact h.answer hk a
  | read hk => exact (h.read hk).quiet nofun rfl
  | @sent s k hk =>
    have hx : AskedInOrder c events (x.setPhase s .ending) := h.setPhase (hstop s)
    exact hx.quiet nofun rfl
  | @ended s hs => exact (h.setPhase (hstop s)).quiet nofun rfl
  | @cancelled s k hk hd => exact (h.setPhase (hstop s)).quiet nofun rfl
  | polled hg => exact h.quiet nofun (State.workers_poll x)
  | @inspected s rest hg => exact h.quiet nofun (State.workers_inspect c x s)
  | settled hg => exact h.quiet nofun (State.workers_settle x)

end AskedInOrder

theorem Run.askedInOrder {c : Config} {events : List Event} {x : State} (hx : Run c events x) :
    AskedInOrder c events x := by
  induction hx with
  | start => exact .start _
  | next _ hy ih => exact ih.after hy

/-- The bounds of each worker are the first of its steps, in order and without gaps. -/
theorem Run.asked_isPrefix_steps {c : Config} {events : List Event} {x : State}
    (hx : Run c events x) (s : Strategy) : asked events s <+: c.steps s.firstBound :=
  (hx.askedInOrder.phase s).isPrefix

end GotoCheck.Induction
