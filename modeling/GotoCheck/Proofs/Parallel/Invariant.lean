import GotoCheck.Proofs.General
import GotoCheck.Proofs.Parallel.Evidence

/-! Every event keeps what is said backed. Each part of an event has its own lemma; the run lemma at
the end is one induction over them. -/
namespace GotoCheck.Induction

theorem Standing.solution?_eq_some {t : Standing} {k : Nat} :
    t.solution? = some k ↔ t = .reported k ∧ k ≠ 0 := by
  cases t with
  | running => simp [solution?]
  | reported n =>
    simp only [solution?, reported.injEq]
    split <;> simp <;> omega
  | dead => simp [solution?]

/-- A proof is accepted of a prover, beside a base case that has reported to have found nothing. -/
theorem State.proof?_eq_some {x : State} {k : Nat} {s : Strategy} (h : x.proof? = some (k, s)) :
    x.standing.baseCase = .reported 0 ∧ s ≠ .baseCase ∧ x.standing.get s = .reported k ∧ k ≠ 0 ∧
      k ≤ x.expected := by
  unfold State.proof? at h
  split at h
  · rename_i hb
    obtain ⟨t, ht, hk⟩ := List.exists_of_findSome?_eq_some h
    obtain ⟨n, hn, hle⟩ := Option.bind_eq_some_iff.mp hk
    split at hle
    · cases hle
      obtain ⟨hs, h0⟩ := Standing.solution?_eq_some.mp hn
      refine ⟨hb, ?_, hs, h0, by assumption⟩
      intro heq
      subst heq
      simp at ht
    · cases hle
  · cases h

section Seek
variable {c : Config} {events : List Event} {expected : Nat} {s : Strategy}

/-- A prover without an answer says nothing. -/
theorem RecordBacked.zero_of_prover (hs : s ≠ .baseCase) : RecordBacked c events expected s 0 where
  covered hb := absurd hb hs
  violated hb := absurd hb hs
  proved _ h0 := absurd rfl h0

theorem RecordBacked.zero_of_covered
    (h : SafeThrough c events (min expected (Config.boundLimit - 1)) ∨ BaseErred events) :
    RecordBacked c events expected .baseCase 0 where
  covered _ _ := h
  violated _ h0 := absurd rfl h0
  proved hb := absurd rfl hb

/-- Past its limit, or past 32 bits, the base case has covered what is expected of it. -/
theorem PhaseBacked.seek_base {i limit : Nat} (h : SafeThrough c events (c.baseBound i))
    (hl : expected ≤ limit) :
    PhaseBacked c events expected .baseCase (.seek limit (c.next? (c.baseBound i))) := by
  have hpos := c.stride_pos
  cases hn : c.next? (c.baseBound i) with
  | none =>
    -- no further bound fits into 32 bits, and none beyond is ever expected
    have := Config.next?_eq_none hn
    exact RecordBacked.zero_of_covered (.inl (h.extend (by omega)))
  | some n =>
    obtain ⟨rfl, -⟩ := Config.next?_eq_some hn
    simp only [Phase.seek]
    split
    · exact ⟨fun _ => ⟨i + 1, (c.baseBound_succ i).symm, h.extend (by omega)⟩,
        fun hb => absurd rfl hb⟩
    · exact RecordBacked.zero_of_covered (.inl (h.extend (by omega)))

theorem PhaseBacked.seek_prover {k limit : Nat} (hs : s ≠ .baseCase) (hp : c.proves s) :
    PhaseBacked c events expected s (.seek limit (c.next? k)) := by
  cases hn : c.next? k with
  | none => exact RecordBacked.zero_of_prover hs
  | some n =>
    obtain ⟨-, hlt⟩ := Config.next?_eq_some hn
    simp only [Phase.seek]
    split
    · exact ⟨fun hb => absurd hb hs, fun _ => ⟨hp, hlt⟩⟩
    · exact RecordBacked.zero_of_prover hs

theorem PhaseBacked.startPhase (c : Config) (s : Strategy) :
    PhaseBacked c [] c.largest s (c.startPhase s) := by
  have hlt : 2 < Config.boundLimit := by decide
  have prover (t : Strategy) (ht : t ≠ .baseCase) (hp : c.proves t) :
      PhaseBacked c [] c.largest t (.seek c.largest (some 2)) := by
    simp only [Phase.seek]
    split
    · exact ⟨fun hb => absurd hb ht, fun _ => ⟨hp, hlt⟩⟩
    · exact RecordBacked.zero_of_prover ht
  cases s with
  | baseCase =>
    simp only [Config.startPhase, Phase.seek]
    split
    · refine ⟨fun _ => ⟨0, by simp [Config.baseBound], fun i hi => ?_⟩, fun hb => absurd rfl hb⟩
      unfold Config.baseBound at hi
      omega
    · refine RecordBacked.zero_of_covered (.inl fun i hi => ?_)
      unfold Config.baseBound at hi
      omega
  | forwardCondition =>
    simp only [Config.startPhase]
    split
    · exact RecordBacked.zero_of_prover (by decide)
    · rename_i hon
      exact prover _ (by decide) (by simpa [Config.proves] using hon)
  | inductiveStep =>
    simp only [Config.startPhase]
    split
    · exact RecordBacked.zero_of_prover (by decide)
    · rename_i hon
      exact prover _ (by decide) (by simpa [Config.proves] using hon)

/-- The answer itself is among the events that back the next phase. -/
theorem PhaseBacked.phaseAfter {k : Nat} {a : Answer} {events' : List Event}
    (h : PhaseBacked c events expected s (.checking k)) (hsub : events ⊆ events')
    (ha : Event.answered s k a ∈ events') :
    PhaseBacked c events' expected s (c.phaseAfter s k a) := by
  obtain ⟨hbase, hprover⟩ := h.mono hsub (Nat.le_refl _)
  -- a safe answer lets the base case go on and makes a prover report
  by_cases hs : s = .baseCase
  · subst hs
    obtain ⟨i, rfl, hsafe⟩ := hbase rfl
    cases a with
    | outcome o =>
      cases o with
      | violated =>
        exact ⟨fun _ h0 => absurd h0 (by unfold Config.baseBound; omega), fun _ _ => ⟨ha, hsafe⟩,
          fun hb => absurd rfl hb⟩
      | safe =>
        refine ⟨i, rfl, fun j hj => ?_⟩
        by_cases hij : j = i
        · subst hij; exact ha
        · refine hsafe j (Nat.le_sub_one_of_lt (Nat.lt_of_le_of_ne hj fun he => hij ?_))
          exact Nat.le_antisymm (Config.baseBound_le_iff.mp hj)
            (Config.baseBound_le_iff.mp (Nat.le_of_eq he.symm))
    | error e => exact RecordBacked.zero_of_covered (.inr ⟨_, e, ha⟩)
    | crash => trivial
  · obtain ⟨hp, hk⟩ := hprover hs
    cases a with
    | outcome o =>
      cases o with
      | violated => simpa [Config.phaseAfter, hs] using seek_prover hs hp
      | safe =>
        simp only [Config.phaseAfter, hs, if_false]
        exact ⟨fun hb => absurd hb hs, fun hb => absurd hb hs, fun _ _ => ⟨hp, hk, ha⟩⟩
    | error e => exact RecordBacked.zero_of_prover hs
    | crash => trivial

end Seek

namespace StateBacked
variable {c : Config} {events : List Event} {x : State}

theorem start (c : Config) : StateBacked c [] (.start c) where
  expected_le_limit := Nat.le_refl _
  expected_le_request _ hr := absurd hr List.not_mem_nil
  phase s := by
    rw [State.phase_start]
    exact PhaseBacked.startPhase c s
  message _ hm := absurd hm List.not_mem_nil
  standing s _ hk := by cases s <;> cases hk
  verdict _ hv := by cases hv

theorem setPhase (h : StateBacked c events x) {s : Strategy} {p : Phase}
    (hp : PhaseBacked c events x.expected s p) : StateBacked c events (x.setPhase s p) :=
  { h with
    phase := fun t => by
      by_cases ht : t = s
      · subst ht
        simpa [State.setPhase] using hp
      · simpa [State.setPhase, PerWorker.get_set_of_ne _ p ht] using h.phase t }

theorem setStanding (h : StateBacked c events x) {s : Strategy} {t : Standing}
    (ht : ∀ k, t = .reported k → RecordBacked c events x.expected s k) :
    StateBacked c events { x with standing := x.standing.set s t } :=
  { h with
    standing := fun u k hk => by
      by_cases hu : u = s
      · subst hu
        exact ht k (by simpa using hk)
      · exact h.standing u k (by simpa [PerWorker.get_set_of_ne _ t hu] using hk) }

theorem setStage (h : StateBacked c events x) {g : Stage}
    (hg : ∀ v, g = .done v → VerdictBacked c events v) :
    StateBacked c events { x with stage := g } :=
  { h with verdict := hg }

theorem setMessages (h : StateBacked c events x) {ms : List Message}
    (hm : ∀ m ∈ ms, RecordBacked c events x.expected m.sender m.bound) :
    StateBacked c events { x with messages := ms } :=
  { h with message := hm }

@[simp]
theorem expected_accept (x : State) (m : Message) : (x.accept m).expected = x.expected := by
  unfold State.accept; split <;> rfl

theorem accept (h : StateBacked c events x) {m : Message}
    (hm : RecordBacked c events x.expected m.sender m.bound) :
    StateBacked c events (x.accept m) := by
  unfold State.accept
  split
  · exact h.setStanding fun k hk => by cases hk; exact hm
  · exact h

theorem foldl_accept (h : StateBacked c events x) {ms : List Message}
    (hm : ∀ m ∈ ms, RecordBacked c events x.expected m.sender m.bound) :
    StateBacked c events (ms.foldl State.accept x) := by
  induction ms generalizing x with
  | nil => exact h
  | cons m rest ih =>
    refine ih (h.accept (hm m List.mem_cons_self)) fun n hn => ?_
    rw [expected_accept]
    exact hm n (List.mem_cons_of_mem m hn)

theorem drain (h : StateBacked c events x) : StateBacked c events x.drain :=
  (h.foldl_accept h.message).setMessages fun _ hm => absurd hm List.not_mem_nil

theorem giveUp (h : StateBacked c events x) : StateBacked c events x.giveUp :=
  { h with
    standing := fun s k hk => by
      simp only [State.giveUp, PerWorker.get_map] at hk
      split at hk
      · cases hk
      · exact h.standing s k hk }

theorem inspect (h : StateBacked c events x) (s : Strategy) :
    StateBacked c events (x.inspect c s) := by
  have hdead : StateBacked c events
      { x.drain with standing := x.drain.standing.set s .dead } :=
    h.drain.setStanding fun k hk => by cases hk
  unfold State.inspect
  -- before a worker counts as dead, what it has sent is taken from the channel
  split
  · dsimp only
    split
    · split
      · exact hdead.giveUp
      · exact hdead
    · exact h.drain
  · exact h

/-- An accepted proof lies within what the base case has covered. -/
theorem verdictBacked (h : StateBacked c events x) : VerdictBacked c events x.verdict := by
  unfold State.verdict
  split
  · rename_i k hk
    obtain ⟨hk, h0⟩ := Standing.solution?_eq_some.mp hk
    exact (h.standing .baseCase k hk).violated rfl h0
  · split
    · rename_i k s hp
      obtain ⟨hb, hs, hk, h0, hle⟩ := State.proof?_eq_some hp
      obtain ⟨hon, hlt, hsafe⟩ := (h.standing s k hk).proved hs h0
      -- what is proved fits into 32 bits, so the base case has covered it
      refine ⟨hon, hsafe, ((h.standing .baseCase 0 hb).covered rfl rfl).imp_left fun hc => ?_⟩
      exact hc.mono (List.Subset.refl _) (by omega)
    · trivial

theorem poll (h : StateBacked c events x) : StateBacked c events x.poll := by
  unfold State.poll
  split
  · exact h.setStage fun v hv => by cases hv; exact h.verdictBacked
  · split
    · exact h.setStage fun v hv => by cases hv
    · rename_i m rest hm
      have hms := h.message
      rw [hm] at hms
      refine ((h.setMessages fun n hn => ?_).accept ?_).setStage fun v hv => by cases hv
      · exact hms n (List.mem_cons_of_mem m hn)
      · exact hms m List.mem_cons_self

/-- A request lowers what is expected, and whatever the base case is asked for is no lower. -/
theorem requestConfirmation (h : StateBacked c events x) :
    StateBacked c events x.requestConfirmation := by
  unfold State.requestConfirmation
  split
  · split
    · rename_i k hk
      split
      · rename_i hlt
        have hle : k ≤ x.expected := Nat.le_of_lt hlt
        have hsub := List.Subset.refl events
        -- what is backed for the old bound is backed for the lower one
        exact {
          expected_le_limit := Nat.le_trans hle h.expected_le_limit
          expected_le_request := by
            intro r hr
            rcases List.mem_append.mp hr with hr | hr
            · exact Nat.le_trans hle (h.expected_le_request r hr)
            · exact Nat.le_of_eq (List.mem_singleton.mp hr).symm
          phase := fun s => (h.phase s).mono hsub hle
          message := fun m hm => (h.message m hm).mono hsub hle
          standing := fun s n hn => (h.standing s n hn).mono hsub hle
          verdict := h.verdict }
      · exact h
    · exact h
  · exact h

theorem settle (h : StateBacked c events x) : StateBacked c events x.settle := by
  unfold State.settle
  split
  · exact h.setStage fun v hv => by cases hv; exact h.verdictBacked
  · exact h.requestConfirmation.setStage fun v hv => by cases hv

theorem read (h : StateBacked c events x) {k : Nat} (hk : x.phase.baseCase = .reading k) :
    let limit := x.requests.foldl min x.limit
    StateBacked c events
      ({ x with limit, requests := [] }.setPhase .baseCase (.seek limit (c.next? k))) := by
  intro limit
  have hl : x.expected ≤ limit := List.le_foldl_min h.expected_le_limit h.expected_le_request
  obtain ⟨i, rfl, hsafe⟩ : PhaseBacked c events x.expected .baseCase (.reading k) :=
    hk ▸ h.phase .baseCase
  have hx : StateBacked c events { x with limit, requests := [] } :=
    { h with
      expected_le_limit := hl
      expected_le_request := fun _ hr => absurd hr List.not_mem_nil }
  exact hx.setPhase (PhaseBacked.seek_base hsafe hl)

theorem send (h : StateBacked c events x) {s : Strategy} {k : Nat}
    (hk : x.phase.get s = .reporting k) :
    StateBacked c events { x.setPhase s .ending with messages := x.messages ++ [⟨s, k⟩] } := by
  have hrec : RecordBacked c events x.expected s k := by
    have hp := h.phase s
    rw [hk] at hp
    exact hp
  refine (h.setPhase (s := s) (p := .ending) trivial).setMessages fun m hm => ?_
  rcases List.mem_append.mp hm with hm | hm
  · exact h.message m hm
  · cases List.mem_singleton.mp hm
    exact hrec

/-- What one event keeps. -/
theorem after {y : State} {e : Event} (h : StateBacked c events x) (hy : x.after? c e = some y) :
    StateBacked c (events ++ [e]) y := by
  have hsub : events ⊆ events ++ [e] := List.subset_append_left _ _
  have hmem : e ∈ events ++ [e] := List.mem_append_right _ List.mem_cons_self
  -- only an answer adds evidence; elsewhere it is enough to look at the step and then to grow
  cases Step.of_after? hy with
  | @answered s k a hk => exact (h.mono hsub).setPhase ((hk ▸ h.phase s).phaseAfter hsub hmem)
  | read hk => exact (h.read hk).mono hsub
  | sent hk => exact (h.send hk).mono hsub
  | ended hs => exact (h.mono hsub).setPhase trivial
  | cancelled hk hd => exact (h.mono hsub).setPhase trivial
  | polled hg => exact h.poll.mono hsub
  | @inspected s rest hg =>
    have hstage : StateBacked c events { x.inspect c s with stage := .inspecting rest } :=
      (h.inspect s).setStage fun v hv => by cases hv
    exact hstage.mono hsub
  | settled hg => exact h.settle.mono hsub

end StateBacked

theorem Run.stateBacked {c : Config} {events : List Event} {x : State} (hx : Run c events x) :
    StateBacked c events x := by
  induction hx with
  | start => exact .start _
  | next _ hy ih => exact ih.after hy

end GotoCheck.Induction
