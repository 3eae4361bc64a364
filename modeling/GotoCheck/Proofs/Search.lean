import GotoCheck.Induction.Search
import GotoCheck.Proofs.Steps

/-! What the search with all three checks comes to. One round of it makes the checks at a bound one
after another. With a checker that answers a query always alike, the search ends with the first
answer that decides, in the order of the bounds and of the checks at each bound. -/
namespace GotoCheck.Induction
variable {f : Query → Except CheckerError Outcome} {c : Config} {s : Strategy}
variable {bound k : Nat} {r : Except CheckerError Verdict}

/-! The checks at one bound as a list. -/

section Round

/-- Asks for some checks at one bound in turn. An error ends them, except in the inductive step,
which then only says nothing. `asked` are the queries before, the latest first. -/
def askAll (checker : Checker) (bound : Nat) (asked : List Query) :
    List Strategy → Option (Except CheckerError Verdict) × List Query
  | [] => (none, asked)
  | s :: rest =>
    let q : Query := ⟨s, bound⟩
    match checker asked q with
    | .ok o =>
      match s.conclude bound o with
      | some v => (some (.ok v), q :: asked)
      | none => askAll checker bound (q :: asked) rest
    | .error e =>
      if s = .inductiveStep then askAll checker bound (q :: asked) rest
      else (some (.error e), q :: asked)

def Config.forwardChecks (c : Config) : List Strategy :=
  if c.forwardDisabled then [] else [.forwardCondition]

def Config.inductiveChecks (c : Config) (bound : Nat) : List Strategy :=
  if bound = 1 ∨ c.inductiveDisabled then [] else [.inductiveStep]

/-- The checks of k-induction at a bound. -/
def Config.allChecks (c : Config) (k : Nat) : List Strategy :=
  .baseCase :: (c.forwardChecks ++ c.inductiveChecks k)

variable {checker : Checker} {asked : List Query}

theorem askAll_baseCase (rest : List Strategy) :
    askAll checker bound asked (.baseCase :: rest) =
      match checkBaseCase checker bound asked with
      | (.error e, asked) => (some (.error e), asked)
      | (.ok (some v), asked) => (some (.ok v), asked)
      | (.ok none, asked) => askAll checker bound asked rest := by
  rw [askAll, checkBaseCase]
  cases checker asked ⟨.baseCase, bound⟩ with
  | ok o => cases o <;> rfl
  | error e => rfl

theorem askAll_forwardChecks (rest : List Strategy) :
    askAll checker bound asked (c.forwardChecks ++ rest) =
      match checkForwardCondition checker c bound asked with
      | (.error e, asked) => (some (.error e), asked)
      | (.ok (some v), asked) => (some (.ok v), asked)
      | (.ok none, asked) => askAll checker bound asked rest := by
  unfold Config.forwardChecks checkForwardCondition
  split
  · rfl
  · rw [List.singleton_append, askAll]
    dsimp only
    cases checker asked ⟨.forwardCondition, bound⟩ with
    | ok o => cases o <;> rfl
    | error e => rfl

theorem askAll_inductiveChecks :
    askAll checker bound asked (c.inductiveChecks bound) =
      match checkInductiveStep checker c bound asked with
      | (some v, asked) => (some (.ok v), asked)
      | (none, asked) => (none, asked) := by
  unfold Config.inductiveChecks checkInductiveStep
  split
  · rfl
  · rw [askAll]
    dsimp only
    cases checker asked ⟨.inductiveStep, bound⟩ with
    | ok o => cases o <;> rfl
    | error e => rfl

/-- A round of k-induction asks for its checks in turn, and goes on if they leave the bound open. -/
theorem kInductionFrom_round (checker : Checker) (c : Config) (bound : Nat) (asked : List Query) :
    kInductionFrom checker c bound asked =
      if bound ≤ c.largest then
        match askAll checker bound asked (c.allChecks bound) with
        | (some verdict, asked) => ⟨verdict, asked.reverse⟩
        | (none, asked) =>
          if bound + c.stride < Config.boundLimit then
            kInductionFrom checker c (bound + c.stride) asked
          else ⟨.ok .unknown, asked.reverse⟩
      else ⟨.ok .unknown, asked.reverse⟩ := by
  rw [kInductionFrom, Config.allChecks, askAll_baseCase]
  split
  · rcases checkBaseCase checker bound asked with ⟨_ | _ | v, asked⟩
    · rfl
    · dsimp only
      rw [askAll_forwardChecks]
      rcases checkForwardCondition checker c bound asked with ⟨_ | _ | v, asked⟩
      · rfl
      · dsimp only
        rw [askAll_inductiveChecks]
        rcases checkInductiveStep checker c bound asked with ⟨_ | v, asked⟩
        · rfl
        · rfl
      · rfl
    · rfl
  · rfl

end Round

/-- What the answer to a query decides. An error decides too, but not of the inductive step. -/
def decision? (f : Query → Except CheckerError Outcome) (q : Query) :
    Option (Except CheckerError Verdict) :=
  match f q with
  | .ok o => (q.strategy.conclude q.bound o).map .ok
  | .error e => if q.strategy = .inductiveStep then none else some (.error e)

/-- The first decision at a bound. -/
def decisionAt? (f : Query → Except CheckerError Outcome) (c : Config) (k : Nat) :
    Option (Except CheckerError Verdict) :=
  (c.allChecks k).findSome? fun s => decision? f ⟨s, k⟩

theorem askAll_ofFunction (f : Query → Except CheckerError Outcome) (bound : Nat)
    (asked : List Query) (strategies : List Strategy) :
    (askAll (.ofFunction f) bound asked strategies).1 =
      strategies.findSome? fun s => decision? f ⟨s, bound⟩ := by
  induction strategies generalizing asked with
  | nil => rfl
  | cons s rest ih =>
    unfold askAll
    rw [List.findSome?_cons, decision?]
    dsimp only [Checker.ofFunction]
    cases f ⟨s, bound⟩ with
    | ok o =>
      dsimp only
      cases s.conclude bound o with
      | none => exact ih _
      | some v => rfl
    | error e =>
      -- only an error of the inductive step is passed over
      dsimp only
      split
      · exact ih _
      · rfl

/-- The search tries the bounds of its steps until one decides. -/
theorem verdict_kInductionFrom (f : Query → Except CheckerError Outcome) (c : Config)
    (bound : Nat) (asked : List Query) :
    (kInductionFrom (.ofFunction f) c bound asked).verdict =
      ((c.steps bound).findSome? (decisionAt? f c)).getD (.ok .unknown) := by
  have hpos := c.stride_pos
  rw [kInductionFrom_round, Config.steps]
  split
  · have hask := askAll_ofFunction f bound asked (c.allChecks bound)
    rw [List.findSome?_cons, decisionAt?, ← hask]
    cases hfirst : askAll (.ofFunction f) bound asked (c.allChecks bound) with
    | mk decided queries =>
      cases decided with
      | some verdict => rfl
      | none =>
        dsimp only
        split
        · exact verdict_kInductionFrom f c (bound + c.stride) queries
        · rfl
  · rfl
termination_by c.largest + 1 - bound

theorem decision?_baseCase_eq_none_iff :
    decision? f ⟨.baseCase, k⟩ = none ↔ f ⟨.baseCase, k⟩ = .ok .safe := by
  unfold decision?
  cases hf : f ⟨.baseCase, k⟩ with
  | ok o => cases o <;> simp [Strategy.conclude]
  | error e => simp

theorem decision?_forwardCondition_eq_none_iff :
    decision? f ⟨.forwardCondition, k⟩ = none ↔ f ⟨.forwardCondition, k⟩ = .ok .violated := by
  unfold decision?
  cases hf : f ⟨.forwardCondition, k⟩ with
  | ok o => cases o <;> simp [Strategy.conclude]
  | error e => simp

/-- A decision is the verdict of the answer or its error. -/
theorem decision?_eq_some (h : decision? f ⟨s, k⟩ = some r) :
    (s = .baseCase ∧ f ⟨s, k⟩ = .ok .violated ∧ r = .ok (.failed k)) ∨
      (s ≠ .baseCase ∧ f ⟨s, k⟩ = .ok .safe ∧ r = .ok (.successful k s)) ∨
      ∃ e, s ≠ .inductiveStep ∧ f ⟨s, k⟩ = .error e ∧ r = .error e := by
  unfold decision? at h
  cases hf : f ⟨s, k⟩ with
  | ok o => cases s <;> cases o <;> simp_all [Strategy.conclude]
  | error e =>
    rw [hf] at h
    obtain ⟨hs, hr⟩ := Option.ite_none_left_eq_some.mp h
    exact .inr (.inr ⟨e, hs, rfl, (Option.some.inj hr).symm⟩)

theorem verdict_kInduction (f : Query → Except CheckerError Outcome) (c : Config) :
    (kInduction (.ofFunction f) c).verdict =
      ((c.steps 1).findSome? (decisionAt? f c)).getD (.ok .unknown) :=
  verdict_kInductionFrom f c 1 []

end GotoCheck.Induction
