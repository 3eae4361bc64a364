import GotoCheck.Proofs.Search

/-! The search with all three checks, with a checker that answers a query always alike: which
answers decide at a bound, what the search comes to, and what it asks for on the way. Searches with
fewer checks are the same search with the others switched off, whatever the checker. -/
namespace GotoCheck.Induction
variable {f : Query → Except CheckerError Outcome} {c : Config} {s : Strategy} {k : Nat}
variable {r : Except CheckerError Verdict}

/-- What the answers at a bound come to, if they decide. An error of the inductive step does not. -/
inductive Decides (f : Query → Except CheckerError Outcome) (c : Config) (k : Nat) :
    Except CheckerError Verdict → Prop
  | violated : f ⟨.baseCase, k⟩ = .ok .violated → Decides f c k (.ok (.failed k))
  | covered : f ⟨.baseCase, k⟩ = .ok .safe → c.forwardDisabled = false →
      f ⟨.forwardCondition, k⟩ = .ok .safe → Decides f c k (.ok (.successful k .forwardCondition))
  | induced : f ⟨.baseCase, k⟩ = .ok .safe →
      (c.forwardDisabled ∨ f ⟨.forwardCondition, k⟩ = .ok .violated) →
      1 < k → c.inductiveDisabled = false → f ⟨.inductiveStep, k⟩ = .ok .safe →
      Decides f c k (.ok (.successful k .inductiveStep))
  | baseError {e : CheckerError} : f ⟨.baseCase, k⟩ = .error e → Decides f c k (.error e)
  | forwardError {e : CheckerError} : f ⟨.baseCase, k⟩ = .ok .safe → c.forwardDisabled = false →
      f ⟨.forwardCondition, k⟩ = .error e → Decides f c k (.error e)

/-- A bound that a search from one comes to: none before it decides. -/
def Reached (f : Query → Except CheckerError Outcome) (c : Config) (k : Nat) : Prop :=
  k ∈ c.steps 1 ∧ ∀ j ∈ c.steps 1, j < k → ∀ r, ¬Decides f c j r

/-- What has to hold at a bound before a check is asked for there. -/
def Due (f : Query → Except CheckerError Outcome) (c : Config) (k : Nat) : Strategy → Prop
  | .baseCase => True
  | .forwardCondition => f ⟨.baseCase, k⟩ = .ok .safe ∧ c.forwardDisabled = false
  | .inductiveStep => f ⟨.baseCase, k⟩ = .ok .safe ∧
      (c.forwardDisabled ∨ f ⟨.forwardCondition, k⟩ = .ok .violated) ∧
      1 < k ∧ c.inductiveDisabled = false

/-- The place of a check among those at a bound. -/
def Strategy.place : Strategy → Nat
  | .baseCase => 0
  | .forwardCondition => 1
  | .inductiveStep => 2

/-- Smaller bounds come first, and at one bound the checks in their order. -/
def Query.Before (p q : Query) : Prop :=
  p.bound < q.bound ∨ p.bound = q.bound ∧ p.strategy.place < q.strategy.place

/-- What a search with all checks has to come to, and what it has to ask for. -/
structure SearchResult.Exact (f : Query → Except CheckerError Outcome) (c : Config)
    (result : SearchResult) : Prop where
  failed : ∀ k, result.verdict = .ok (.failed k) ↔
    Reached f c k ∧ f ⟨.baseCase, k⟩ = .ok .violated
  covered : ∀ k, result.verdict = .ok (.successful k .forwardCondition) ↔
    Reached f c k ∧ f ⟨.baseCase, k⟩ = .ok .safe ∧
      c.forwardDisabled = false ∧ f ⟨.forwardCondition, k⟩ = .ok .safe
  induced : ∀ k, result.verdict = .ok (.successful k .inductiveStep) ↔
    1 < k ∧ Reached f c k ∧ f ⟨.baseCase, k⟩ = .ok .safe ∧
      (c.forwardDisabled ∨ f ⟨.forwardCondition, k⟩ = .ok .violated) ∧
      c.inductiveDisabled = false ∧ f ⟨.inductiveStep, k⟩ = .ok .safe
  provers : ∀ k, result.verdict ≠ .ok (.successful k .baseCase)
  error : ∀ e, result.verdict = .error e ↔ ∃ k, Reached f c k ∧
    (f ⟨.baseCase, k⟩ = .error e ∨ f ⟨.baseCase, k⟩ = .ok .safe ∧
      c.forwardDisabled = false ∧ f ⟨.forwardCondition, k⟩ = .error e)
  unknown : result.verdict = .ok .unknown ↔ ∀ k ∈ c.steps 1, ∀ r, ¬Decides f c k r
  /-- A proof comes with a base case that was asked for and safe at all steps so far. -/
  safe : ∀ k s, result.verdict = .ok (.successful k s) → ∀ j ∈ c.steps 1, j ≤ k →
    f ⟨.baseCase, j⟩ = .ok .safe ∧ ⟨.baseCase, j⟩ ∈ result.queries
  once : result.queries.Nodup
  ordered : result.queries.Pairwise Query.Before
  asked : ∀ s k, ⟨s, k⟩ ∈ result.queries ↔ Reached f c k ∧ Due f c k s

/-- The beginning of a list, through the first element that satisfies `p`. -/
def through {α : Type} (p : α → Bool) : List α → List α
  | [] => []
  | a :: rest => a :: if p a then [] else through p rest

section Through
variable {α β : Type} {p : α → Bool} {g : α → Option β} {l : List α} {a : α} {b : β}

theorem through_isPrefix (p : α → Bool) (l : List α) : through p l <+: l := by
  induction l with
  | nil => exact List.nil_prefix
  | cons a rest ih =>
    rw [through, List.cons_prefix_cons]
    refine ⟨rfl, ?_⟩
    split
    · exact List.nil_prefix
    · exact ih

/-- In an ascending list the beginning is told by what comes before each element. -/
theorem mem_through_iff (key : α → Nat) (hl : l.Pairwise fun a b => key a < key b) :
    a ∈ through p l ↔ a ∈ l ∧ ∀ b ∈ l, key b < key a → p b = false := by
  induction l with
  | nil => simp [through]
  | cons x rest ih =>
    obtain ⟨hx, hrest⟩ := List.pairwise_cons.mp hl
    rw [through, List.mem_cons, List.mem_cons]
    constructor
    · intro ha
      rcases ha with rfl | ha
      · refine ⟨.inl rfl, fun b hb hlt => ?_⟩
        rcases List.mem_cons.mp hb with rfl | hb
        · exact absurd hlt (Nat.lt_irrefl _)
        · exact absurd hlt (Nat.lt_asymm (hx b hb))
      · split at ha
        · cases ha
        · rename_i hp
          obtain ⟨hmem, hbefore⟩ := (ih hrest).mp ha
          refine ⟨.inr hmem, fun b hb hlt => ?_⟩
          rcases List.mem_cons.mp hb with rfl | hb
          · exact Bool.eq_false_iff.mpr hp
          · exact hbefore b hb hlt
    · intro ha
      obtain ⟨ha, hbefore⟩ := ha
      rcases ha with rfl | ha
      · exact .inl rfl
      · have hp : p x = false := hbefore x List.mem_cons_self (hx a ha)
        rw [hp]
        refine .inr ((ih hrest).mpr ⟨ha, fun b hb => ?_⟩)
        exact hbefore b (List.mem_cons_of_mem x hb)

theorem findSome?_eq_some_iff_through :
    l.findSome? g = some b ↔ ∃ a ∈ through (fun a => (g a).isSome) l, g a = some b := by
  induction l with
  | nil => simp [through]
  | cons x rest ih =>
    rw [List.findSome?_cons, through]
    cases hx : g x with
    | none => simp [hx, ih]
    | some y => simp [hx]

end Through

/-! What the checks at a bound decide. -/

section Decisions

theorem pairwise_allChecks (c : Config) (k : Nat) :
    (c.allChecks k).Pairwise fun s t => s.place < t.place := by
  unfold Config.allChecks Config.forwardChecks Config.inductiveChecks
  split <;> split <;> simp [Strategy.place]

/-- The checks that are asked for at a bound. -/
def checksAt (f : Query → Except CheckerError Outcome) (c : Config) (k : Nat) : List Strategy :=
  through (fun s => (decision? f ⟨s, k⟩).isSome) (c.allChecks k)

theorem Strategy.forall_iff {P : Strategy → Prop} :
    (∀ s, P s) ↔ P .baseCase ∧ P .forwardCondition ∧ P .inductiveStep := by
  refine ⟨fun h => ⟨h _, h _, h _⟩, fun h s => ?_⟩
  cases s with
  | baseCase => exact h.1
  | forwardCondition => exact h.2.1
  | inductiveStep => exact h.2.2

theorem baseCase_mem_allChecks : .baseCase ∈ c.allChecks k := List.mem_cons_self

theorem forwardCondition_mem_allChecks_iff :
    .forwardCondition ∈ c.allChecks k ↔ c.forwardDisabled = false := by
  unfold Config.allChecks Config.forwardChecks Config.inductiveChecks
  split <;> split <;> simp_all

theorem inductiveStep_mem_allChecks_iff :
    .inductiveStep ∈ c.allChecks k ↔ k ≠ 1 ∧ c.inductiveDisabled = false := by
  have hoff : (k = 1 ∨ c.inductiveDisabled) ↔ ¬(k ≠ 1 ∧ c.inductiveDisabled = false) := by
    cases c.inductiveDisabled <;> simp
  unfold Config.allChecks Config.forwardChecks Config.inductiveChecks
  simp only [hoff]
  split <;> split <;> simp_all

/-- A check is asked for when the checks before it have left the bound open. -/
theorem mem_checksAt_iff (hk : 1 ≤ k) : s ∈ checksAt f c k ↔ Due f c k s := by
  have hone : 1 < k ↔ k ≠ 1 := by omega
  rw [checksAt, mem_through_iff Strategy.place (pairwise_allChecks c k)]
  simp only [Option.isSome_eq_false_iff, Option.isNone_iff_eq_none, Strategy.forall_iff,
    baseCase_mem_allChecks, forwardCondition_mem_allChecks_iff,
    decision?_baseCase_eq_none_iff, decision?_forwardCondition_eq_none_iff]
  cases s with
  | baseCase => simp [Due, Strategy.place, baseCase_mem_allChecks]
  | forwardCondition =>
    simp [Due, Strategy.place, forwardCondition_mem_allChecks_iff, and_comm]
  | inductiveStep =>
    cases hforward : c.forwardDisabled with
    | true => simp [Due, Strategy.place, inductiveStep_mem_allChecks_iff, hforward, hone, and_comm]
    | false =>
      simp [Due, Strategy.place, inductiveStep_mem_allChecks_iff, hforward, hone, and_comm,
        and_assoc, and_left_comm]

theorem decisionAt?_eq_some_iff (hk : 1 ≤ k) :
    decisionAt? f c k = some r ↔ Decides f c k r := by
  rw [decisionAt?, findSome?_eq_some_iff_through]
  constructor
  · intro h
    obtain ⟨s, hs, hr⟩ := h
    have hdue : Due f c k s := (mem_checksAt_iff hk).mp hs
    cases s with
    | baseCase =>
      rcases decision?_eq_some hr with ⟨-, hf, rfl⟩ | ⟨hne, -, -⟩ | ⟨e, -, hf, rfl⟩
      · exact .violated hf
      · exact absurd rfl hne
      · exact .baseError hf
    | forwardCondition =>
      obtain ⟨hbase, hon⟩ := hdue
      rcases decision?_eq_some hr with ⟨heq, -, -⟩ | ⟨-, hf, rfl⟩ | ⟨e, -, hf, rfl⟩
      · cases heq
      · exact .covered hbase hon hf
      · exact .forwardError hbase hon hf
    | inductiveStep =>
      obtain ⟨hbase, hforward, hone, hon⟩ := hdue
      rcases decision?_eq_some hr with ⟨heq, -, -⟩ | ⟨-, hf, rfl⟩ | ⟨e, hne, -, -⟩
      · cases heq
      · exact .induced hbase hforward hone hon hf
      · exact absurd rfl hne
  · intro h
    have hasked (s : Strategy) (hdue : Due f c k s) (hr : decision? f ⟨s, k⟩ = some r) :
        ∃ s ∈ through (fun s => (decision? f ⟨s, k⟩).isSome) (c.allChecks k),
          decision? f ⟨s, k⟩ = some r :=
      ⟨s, (mem_checksAt_iff hk).mpr hdue, hr⟩
    cases h with
    | violated hf => exact hasked .baseCase trivial (by simp [decision?, hf, Strategy.conclude])
    | covered hbase hon hf =>
      exact hasked .forwardCondition ⟨hbase, hon⟩ (by simp [decision?, hf, Strategy.conclude])
    | induced hbase hforward hone hon hf =>
      exact hasked .inductiveStep ⟨hbase, hforward, hone, hon⟩
        (by simp [decision?, hf, Strategy.conclude])
    | baseError hf => exact hasked .baseCase trivial (by simp [decision?, hf])
    | forwardError hbase hon hf =>
      exact hasked .forwardCondition ⟨hbase, hon⟩ (by simp [decision?, hf])

end Decisions

/-! What the search asks for. -/

section Queries

theorem askAll_queries (f : Query → Except CheckerError Outcome) (bound : Nat)
    (asked : List Query) (strategies : List Strategy) :
    (askAll (.ofFunction f) bound asked strategies).2 =
      ((through (fun s => (decision? f ⟨s, bound⟩).isSome) strategies).map
        fun s => ⟨s, bound⟩).reverse ++ asked := by
  induction strategies generalizing asked with
  | nil => rfl
  | cons s rest ih =>
    unfold askAll
    rw [through, decision?]
    dsimp only [Checker.ofFunction]
    cases f ⟨s, bound⟩ with
    | ok o =>
      dsimp only
      split
      · rename_i v hv
        simp [hv]
      · rename_i hv
        simp [hv, ih]
    | error e =>
      dsimp only
      by_cases hs : s = .inductiveStep
      · simp [hs, ih]
      · simp [hs]

/-- The search asks for the checks at its bounds through the first one that decides. -/
theorem queries_kInductionFrom (f : Query → Except CheckerError Outcome) (c : Config)
    (bound : Nat) (asked : List Query) :
    (kInductionFrom (.ofFunction f) c bound asked).queries = asked.reverse ++
      (through (fun k => (decisionAt? f c k).isSome) (c.steps bound)).flatMap fun k =>
        (checksAt f c k).map fun s => ⟨s, k⟩ := by
  have hpos := c.stride_pos
  rw [kInductionFrom_round, Config.steps]
  split
  · have hask := askAll_ofFunction f bound asked (c.allChecks bound)
    have hqueries := askAll_queries f bound asked (c.allChecks bound)
    cases hfirst : askAll (.ofFunction f) bound asked (c.allChecks bound) with
    | mk decided queries =>
      rw [hfirst] at hask hqueries
      dsimp only at hask hqueries
      have hat : decisionAt? f c bound = decided := hask.symm
      have hnow : queries.reverse = asked.reverse ++
          (checksAt f c bound).map fun s => ⟨s, bound⟩ := by
        rw [hqueries, List.reverse_append, List.reverse_reverse, checksAt]
      rw [through, hat]
      cases decided with
      | some verdict => simp [hnow]
      | none =>
        dsimp only
        split
        · rw [queries_kInductionFrom f c (bound + c.stride) queries, hnow]
          simp
        · simp [hnow, through]
  · simp [through]
termination_by c.largest + 1 - bound

end Queries

theorem pairwise_checksAt (f : Query → Except CheckerError Outcome) (c : Config) (k : Nat) :
    (checksAt f c k).Pairwise fun s t => s.place < t.place :=
  (pairwise_allChecks c k).sublist (through_isPrefix _ _).sublist

/-- The bounds that a search comes to are its steps through the first that decides. -/
theorem mem_through_steps_iff :
    k ∈ through (fun k => (decisionAt? f c k).isSome) (c.steps 1) ↔ Reached f c k := by
  rw [mem_through_iff id (c.pairwise_steps 1), Reached]
  refine and_congr_right fun _ => forall_congr' fun j => forall_congr' fun hj => ?_
  refine imp_congr_right fun _ => ?_
  rw [Option.isSome_eq_false_iff, Option.isNone_iff_eq_none, Option.eq_none_iff_forall_ne_some]
  exact forall_congr' fun r => not_congr (decisionAt?_eq_some_iff (Config.le_of_mem_steps hj))

theorem queries_kInduction (f : Query → Except CheckerError Outcome) (c : Config) :
    (kInduction (.ofFunction f) c).queries =
      (through (fun k => (decisionAt? f c k).isSome) (c.steps 1)).flatMap fun k =>
        (checksAt f c k).map fun s => ⟨s, k⟩ :=
  queries_kInductionFrom f c 1 []

/-- A decision ends the search, and without one it comes to nothing. -/
theorem verdict_kInduction_eq_iff :
    (kInduction (.ofFunction f) c).verdict = r ↔ (∃ k, Reached f c k ∧ Decides f c k r) ∨
      (∀ k ∈ c.steps 1, ∀ r, ¬Decides f c k r) ∧ r = .ok .unknown := by
  have hdecides : ∀ k ∈ c.steps 1, ∀ r, decisionAt? f c k = some r ↔ Decides f c k r :=
    fun k hk r => decisionAt?_eq_some_iff (Config.le_of_mem_steps hk)
  have hfound (r) : (c.steps 1).findSome? (decisionAt? f c) = some r ↔
      ∃ k, Reached f c k ∧ Decides f c k r := by
    rw [findSome?_eq_some_iff_through]
    refine exists_congr fun k => ?_
    rw [mem_through_steps_iff]
    exact and_congr_right fun hk => hdecides k hk.1 r
  have hnone : (c.steps 1).findSome? (decisionAt? f c) = none ↔
      ∀ k ∈ c.steps 1, ∀ r, ¬Decides f c k r := by
    rw [List.findSome?_eq_none_iff]
    refine forall_congr' fun k => forall_congr' fun hk => ?_
    rw [Option.eq_none_iff_forall_ne_some]
    exact forall_congr' fun r => not_congr (hdecides k hk r)
  rw [verdict_kInduction, ← hfound, ← hnone]
  cases (c.steps 1).findSome? (decisionAt? f c) with
  | none => simp [eq_comm]
  | some r' => simp

theorem verdict_kInduction_of_ne (hr : r ≠ .ok .unknown) :
    (kInduction (.ofFunction f) c).verdict = r ↔ ∃ k, Reached f c k ∧ Decides f c k r := by
  rw [verdict_kInduction_eq_iff]
  simp [hr]

theorem mem_queries_kInduction_iff :
    ⟨s, k⟩ ∈ (kInduction (.ofFunction f) c).queries ↔ Reached f c k ∧ Due f c k s := by
  simp only [queries_kInduction, List.mem_flatMap, List.mem_map, Query.mk.injEq,
    mem_through_steps_iff]
  constructor
  · intro h
    obtain ⟨j, hj, t, ht, rfl, rfl⟩ := h
    exact ⟨hj, (mem_checksAt_iff (Config.le_of_mem_steps hj.1)).mp ht⟩
  · intro h
    obtain ⟨hk, hs⟩ := h
    exact ⟨k, hk, s, (mem_checksAt_iff (Config.le_of_mem_steps hk.1)).mpr hs, rfl, rfl⟩

theorem pairwise_queries_kInduction (f : Query → Except CheckerError Outcome) (c : Config) :
    (kInduction (.ofFunction f) c).queries.Pairwise Query.Before := by
  rw [queries_kInduction, List.pairwise_flatMap]
  constructor
  · intro k _
    rw [List.pairwise_map]
    exact (pairwise_checksAt f c k).imp fun h => .inr ⟨rfl, h⟩
  · refine ((c.pairwise_steps 1).sublist (through_isPrefix _ _).sublist).imp ?_
    intro j k hjk p hp q hq
    obtain ⟨s, -, rfl⟩ := List.mem_map.mp hp
    obtain ⟨t, -, rfl⟩ := List.mem_map.mp hq
    exact .inl hjk

theorem Query.Before.ne {p q : Query} (h : p.Before q) : p ≠ q := by
  rintro rfl
  rcases h with h | ⟨-, h⟩ <;> exact Nat.lt_irrefl _ h

theorem Reached.of_le (hk : Reached f c k) {j : Nat} (hj : j ∈ c.steps 1) (hle : j ≤ k) :
    Reached f c j :=
  ⟨hj, fun i hi hlt => hk.2 i hi (Nat.lt_of_lt_of_le hlt hle)⟩

/-- Only a safe base case lets a search go on. -/
theorem Reached.safe (hk : Reached f c k) {j : Nat} (hj : j ∈ c.steps 1) (hlt : j < k) :
    f ⟨.baseCase, j⟩ = .ok .safe := by
  have hopen := hk.2 j hj hlt
  cases hf : f ⟨.baseCase, j⟩ with
  | ok o =>
    cases o with
    | safe => rfl
    | violated => exact absurd (.violated hf) (hopen _)
  | error e => exact absurd (.baseError hf) (hopen _)

/-- What the search comes to is told by the answers alone: the first step that decides, and what
decides there. It asks for each check once, in order, and for none that the answers have settled. -/
theorem kInduction_exact (f : Query → Except CheckerError Outcome) (c : Config) :
    (kInduction (.ofFunction f) c).Exact f c where
  failed k := by
    rw [verdict_kInduction_of_ne (by simp)]
    constructor
    · rintro ⟨_, hk, hdecides⟩
      cases hdecides with
      | violated hf => exact ⟨hk, hf⟩
    · rintro ⟨hk, hf⟩
      exact ⟨k, hk, .violated hf⟩
  covered k := by
    rw [verdict_kInduction_of_ne (by simp)]
    constructor
    · rintro ⟨_, hk, hdecides⟩
      cases hdecides with
      | covered hbase hon hf => exact ⟨hk, hbase, hon, hf⟩
    · rintro ⟨hk, hbase, hon, hf⟩
      exact ⟨k, hk, .covered hbase hon hf⟩
  induced k := by
    rw [verdict_kInduction_of_ne (by simp)]
    constructor
    · rintro ⟨_, hk, hdecides⟩
      cases hdecides with
      | induced hbase hforward hone hon hf => exact ⟨hone, hk, hbase, hforward, hon, hf⟩
    · rintro ⟨hone, hk, hbase, hforward, hon, hf⟩
      exact ⟨k, hk, .induced hbase hforward hone hon hf⟩
  provers k h := by
    obtain ⟨_, -, hdecides⟩ := (verdict_kInduction_of_ne (by simp)).mp h
    cases hdecides
  error e := by
    rw [verdict_kInduction_of_ne (by simp)]
    refine exists_congr fun k => and_congr_right fun _ => ?_
    constructor
    · intro hdecides
      cases hdecides with
      | baseError hf => exact .inl hf
      | forwardError hbase hon hf => exact .inr ⟨hbase, hon, hf⟩
    · rintro (hf | ⟨hbase, hon, hf⟩)
      · exact .baseError hf
      · exact .forwardError hbase hon hf
  unknown := by
    rw [verdict_kInduction_eq_iff]
    constructor
    · rintro (⟨k, -, hdecides⟩ | ⟨hnone, -⟩)
      · cases hdecides
      · exact hnone
    · intro hnone
      exact .inr ⟨hnone, rfl⟩
  safe k s h j hj hle := by
    obtain ⟨i, hi, hdecides⟩ := (verdict_kInduction_of_ne (by simp)).mp h
    obtain ⟨rfl, hbase⟩ : i = k ∧ f ⟨.baseCase, i⟩ = .ok .safe := by
      cases hdecides with
      | covered hbase => exact ⟨rfl, hbase⟩
      | induced hbase => exact ⟨rfl, hbase⟩
    refine ⟨?_, mem_queries_kInduction_iff.mpr ⟨hi.of_le hj hle, trivial⟩⟩
    rcases Nat.lt_or_eq_of_le hle with hlt | rfl
    · exact hi.safe hj hlt
    · exact hbase
  once := (pairwise_queries_kInduction f c).imp Query.Before.ne
  ordered := pairwise_queries_kInduction f c
  asked _ _ := mem_queries_kInduction_iff

/-! Searches with fewer checks. A check that is off asks nothing and decides nothing, and then the
loops go on alike. -/

section FewerChecks
variable {checker : Checker} {asked : List Query}

theorem checkForwardCondition_of_disabled (h : c.forwardDisabled) :
    checkForwardCondition checker c k asked = (.ok none, asked) :=
  if_pos h

theorem checkInductiveStep_of_disabled (h : c.inductiveDisabled) :
    checkInductiveStep checker c k asked = (none, asked) :=
  if_pos (.inr h)

/-- The forward condition reads nothing of the settings but whether it is off. -/
theorem checkForwardCondition_congr {c' : Config} (h : c'.forwardDisabled = c.forwardDisabled) :
    checkForwardCondition checker c' k asked = checkForwardCondition checker c k asked := by
  unfold checkForwardCondition
  rw [h]

/-- A round of k-induction with its other checks off makes the base case alone. -/
theorem kInductionFrom_of_disabled (hforward : c.forwardDisabled)
    (hinductive : c.inductiveDisabled) :
    kInductionFrom checker c k asked =
      if k ≤ c.largest then
        match checkBaseCase checker k asked with
        | (.error e, asked) => ⟨.error e, asked.reverse⟩
        | (.ok (some v), asked) => ⟨.ok v, asked.reverse⟩
        | (.ok none, asked) =>
          if k + c.stride < Config.boundLimit then kInductionFrom checker c (k + c.stride) asked
          else ⟨.ok .unknown, asked.reverse⟩
      else ⟨.ok .unknown, asked.reverse⟩ := by
  rw [kInductionFrom]
  split
  · rcases checkBaseCase checker k asked with ⟨_ | _ | v, asked⟩
    · rfl
    · dsimp only
      rw [checkForwardCondition_of_disabled hforward]
      dsimp only
      rw [checkInductiveStep_of_disabled hinductive]
    · rfl
  · rfl

/-- A round of k-induction with the inductive step off makes the other two checks. -/
theorem kInductionFrom_of_inductiveDisabled (hinductive : c.inductiveDisabled) :
    kInductionFrom checker c k asked =
      if k ≤ c.largest then
        match checkBaseCase checker k asked with
        | (.error e, asked) => ⟨.error e, asked.reverse⟩
        | (.ok (some v), asked) => ⟨.ok v, asked.reverse⟩
        | (.ok none, asked) =>
          match checkForwardCondition checker c k asked with
          | (.error e, asked) => ⟨.error e, asked.reverse⟩
          | (.ok (some v), asked) => ⟨.ok v, asked.reverse⟩
          | (.ok none, asked) =>
            if k + c.stride < Config.boundLimit then kInductionFrom checker c (k + c.stride) asked
            else ⟨.ok .unknown, asked.reverse⟩
      else ⟨.ok .unknown, asked.reverse⟩ := by
  rw [kInductionFrom]
  split
  · rcases checkBaseCase checker k asked with ⟨_ | _ | v, asked⟩
    · rfl
    · dsimp only
      rcases checkForwardCondition checker c k asked with ⟨_ | _ | v, asked⟩
      · rfl
      · dsimp only
        rw [checkInductiveStep_of_disabled hinductive]
      · rfl
    · rfl
  · rfl

/-- From every bound on and after any queries, the search for violations goes on like k-induction
with its other checks off. -/
theorem falsificationFrom_eq (checker : Checker) {c c' : Config} (hlargest : c'.largest = c.largest)
    (hstride : c'.stride = c.stride) (hforward : c'.forwardDisabled)
    (hinductive : c'.inductiveDisabled) (k : Nat) (asked : List Query) :
    falsificationFrom checker c k asked = kInductionFrom checker c' k asked := by
  have hpos := c.stride_pos
  rw [falsificationFrom, kInductionFrom_of_disabled hforward hinductive, hlargest, hstride]
  split
  · rcases checkBaseCase checker k asked with ⟨_ | _ | v, asked⟩
    · rfl
    · dsimp only
      split
      · exact falsificationFrom_eq checker hlargest hstride hforward hinductive _ asked
      · rfl
    · rfl
  · rfl
termination_by c.largest + 1 - k

/-- The search with two checks goes on like k-induction with the inductive step off. -/
theorem incrementalFrom_eq (checker : Checker) {c c' : Config} (hlargest : c'.largest = c.largest)
    (hstride : c'.stride = c.stride) (hforward : c'.forwardDisabled = c.forwardDisabled)
    (hinductive : c'.inductiveDisabled) (k : Nat) (asked : List Query) :
    incrementalFrom checker c k asked = kInductionFrom checker c' k asked := by
  have hpos := c.stride_pos
  rw [incrementalFrom, kInductionFrom_of_inductiveDisabled hinductive, hlargest, hstride]
  split
  · rcases checkBaseCase checker k asked with ⟨_ | _ | v, asked⟩
    · rfl
    · dsimp only
      rw [checkForwardCondition_congr hforward]
      rcases checkForwardCondition checker c k asked with ⟨_ | _ | v, asked⟩
      · rfl
      · dsimp only
        split
        · exact incrementalFrom_eq checker hlargest hstride hforward hinductive _ asked
        · rfl
      · rfl
    · rfl
  · rfl
termination_by c.largest + 1 - k

end FewerChecks

/-- The other two searches are this one with checks switched off: they come to the same and ask the
same, whatever the checker and even if its answers change from query to query. -/
theorem searches_are_kInduction (checker : Checker) (c : Config) :
    falsification checker c =
        kInduction checker { c with forwardDisabled := true, inductiveDisabled := true } ∧
      incremental checker c = kInduction checker { c with inductiveDisabled := true } := by
  constructor
  · apply falsificationFrom_eq checker
    · rfl
    · rfl
    · rfl
    · rfl
  · apply incrementalFrom_eq checker
    · rfl
    · rfl
    · rfl
    · rfl

end GotoCheck.Induction
