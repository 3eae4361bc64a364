import GotoCheck.Proofs.Parallel.State
import GotoCheck.Proofs.Steps

/-! Evidence for what workers and coordinator say. A record, a standing or a verdict is backed by
the answers that the checker has given so far. Answers are only added and the bound that the
coordinator expects of the base case only falls, so what is backed once stays backed. -/
namespace GotoCheck.Induction

namespace Config

/-- A check that may prove the property and is not switched off. -/
def proves (c : Config) : Strategy → Bool
  | .baseCase => false
  | .forwardCondition => !c.forwardDisabled
  | .inductiveStep => !c.inductiveDisabled

theorem ne_baseCase_of_proves {c : Config} {s : Strategy} (h : c.proves s) : s ≠ .baseCase := by
  intro heq
  subst heq
  cases h

/-- The bounds of the base case in the order in which it tries them. -/
def baseBound (c : Config) (i : Nat) : Nat := 1 + i * c.stride

theorem baseBound_succ (c : Config) (i : Nat) : c.baseBound (i + 1) = c.baseBound i + c.stride := by
  unfold baseBound; rw [Nat.succ_mul]; omega

theorem baseBound_le_iff {c : Config} {i j : Nat} : c.baseBound i ≤ c.baseBound j ↔ i ≤ j := by
  unfold baseBound
  rw [Nat.add_le_add_iff_left, Nat.mul_le_mul_right_iff c.stride_pos]

end Config

/-- The base case was safe at each of its bounds up to `n`. -/
def SafeThrough (c : Config) (events : List Event) (n : Nat) : Prop :=
  ∀ i, c.baseBound i ≤ n → Event.answered .baseCase (c.baseBound i) (.outcome .safe) ∈ events

def BaseErred (events : List Event) : Prop :=
  ∃ j e, Event.answered .baseCase j (.error e) ∈ events

theorem SafeThrough.mono {c : Config} {events events' : List Event} {n m : Nat}
    (h : SafeThrough c events n) (hs : events ⊆ events') (hm : m ≤ n) : SafeThrough c events' m :=
  fun i hi => hs (h i (Nat.le_trans hi hm))

/-- Nothing lies between a bound and the next one. -/
theorem SafeThrough.extend {c : Config} {events : List Event} {i n : Nat}
    (h : SafeThrough c events (c.baseBound i)) (hn : n < c.baseBound i + c.stride) :
    SafeThrough c events n := by
  intro j hj
  -- the bound after this one is already above `n`
  refine h j (Config.baseBound_le_iff.mpr ?_)
  have hlt : c.baseBound j < c.baseBound (i + 1) := by rw [c.baseBound_succ]; omega
  have hij : ¬ i + 1 ≤ j := fun h => by
    have hle : c.baseBound (i + 1) ≤ c.baseBound j := Config.baseBound_le_iff.mpr h
    omega
  omega

/-- What backs the record of a worker, with `expected` the bound that the base case has to reach. A
base case that has erred reports like one that has found nothing. -/
structure RecordBacked (c : Config) (events : List Event) (expected : Nat) (s : Strategy)
    (k : Nat) : Prop where
  covered : s = .baseCase → k = 0 →
    SafeThrough c events (min expected (Config.boundLimit - 1)) ∨ BaseErred events
  violated : s = .baseCase → k ≠ 0 →
    Event.answered .baseCase k (.outcome .violated) ∈ events ∧ SafeThrough c events (k - 1)
  proved : s ≠ .baseCase → k ≠ 0 →
    c.proves s ∧ k < Config.boundLimit ∧ Event.answered s k (.outcome .safe) ∈ events

/-- What backs the phase of a worker. -/
def PhaseBacked (c : Config) (events : List Event) (expected : Nat) (s : Strategy) : Phase → Prop
  | .checking k =>
    (s = .baseCase → ∃ i, k = c.baseBound i ∧ SafeThrough c events (k - 1)) ∧
      (s ≠ .baseCase → c.proves s ∧ k < Config.boundLimit)
  | .reading k => ∃ i, k = c.baseBound i ∧ SafeThrough c events k
  | .reporting k => RecordBacked c events expected s k
  | .ending | .ended => True

def VerdictBacked (c : Config) (events : List Event) : Verdict → Prop
  | .failed k =>
    Event.answered .baseCase k (.outcome .violated) ∈ events ∧ SafeThrough c events (k - 1)
  | .successful k s =>
    c.proves s ∧ Event.answered s k (.outcome .safe) ∈ events ∧
      (SafeThrough c events k ∨ BaseErred events)
  | .unknown => True

/-- The invariant of runs. The base case never stops before the bound that the coordinator expects,
whichever requests it has read, and everything said is backed. -/
structure StateBacked (c : Config) (events : List Event) (x : State) : Prop where
  expected_le_limit : x.expected ≤ x.limit
  expected_le_request : ∀ r ∈ x.requests, x.expected ≤ r
  phase : ∀ s, PhaseBacked c events x.expected s (x.phase.get s)
  message : ∀ m ∈ x.messages, RecordBacked c events x.expected m.sender m.bound
  standing : ∀ s k, x.standing.get s = .reported k → RecordBacked c events x.expected s k
  verdict : ∀ v, x.stage = .done v → VerdictBacked c events v

section Growth
variable {c : Config} {events events' : List Event} {n m : Nat} {s : Strategy}

theorem BaseErred.mono (h : BaseErred events) (hs : events ⊆ events') : BaseErred events' := by
  obtain ⟨j, e, he⟩ := h
  exact ⟨j, e, hs he⟩

theorem RecordBacked.mono {k : Nat} (h : RecordBacked c events n s k) (hs : events ⊆ events')
    (hm : m ≤ n) : RecordBacked c events' m s k where
  covered hb hk := by
    refine (h.covered hb hk).imp (fun hc => hc.mono hs ?_) (fun he => he.mono hs)
    omega
  violated hb hk := ⟨hs (h.violated hb hk).1, (h.violated hb hk).2.mono hs (Nat.le_refl _)⟩
  proved hb hk := ⟨(h.proved hb hk).1, (h.proved hb hk).2.1, hs (h.proved hb hk).2.2⟩

theorem PhaseBacked.mono {p : Phase} (h : PhaseBacked c events n s p) (hs : events ⊆ events')
    (hm : m ≤ n) : PhaseBacked c events' m s p := by
  cases p with
  | checking k =>
    refine ⟨fun hb => ?_, h.2⟩
    obtain ⟨i, hi, hsafe⟩ := h.1 hb
    exact ⟨i, hi, hsafe.mono hs (Nat.le_refl _)⟩
  | reading k =>
    obtain ⟨i, hi, hsafe⟩ := h
    exact ⟨i, hi, hsafe.mono hs (Nat.le_refl _)⟩
  | reporting k => exact RecordBacked.mono h hs hm
  | ending => trivial
  | ended => trivial

theorem VerdictBacked.mono {v : Verdict} (h : VerdictBacked c events v) (hs : events ⊆ events') :
    VerdictBacked c events' v := by
  cases v with
  | failed k => exact ⟨hs h.1, h.2.mono hs (Nat.le_refl _)⟩
  | successful k s =>
    exact ⟨h.1, hs h.2.1, h.2.2.imp (fun hc => hc.mono hs (Nat.le_refl _)) (fun he => he.mono hs)⟩
  | unknown => trivial

theorem StateBacked.mono {x : State} (h : StateBacked c events x) (hs : events ⊆ events') :
    StateBacked c events' x where
  expected_le_limit := h.expected_le_limit
  expected_le_request := h.expected_le_request
  phase s := (h.phase s).mono hs (Nat.le_refl _)
  message m hm := (h.message m hm).mono hs (Nat.le_refl _)
  standing s k hk := (h.standing s k hk).mono hs (Nat.le_refl _)
  verdict v hv := (h.verdict v hv).mono hs

end Growth
end GotoCheck.Induction
