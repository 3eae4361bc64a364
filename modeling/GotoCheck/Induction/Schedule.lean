import GotoCheck.Induction.Parallel

/-! One fair schedule of the parallel checks: all workers and the coordinator take turns. -/
namespace GotoCheck.Induction

/-- Answers to the workers. A query without an answer keeps its worker waiting. -/
def ParallelChecker := Query → Option Answer

namespace State

/-- What a worker does next, unless it waits or has ended. -/
def workerEvent? (checker : ParallelChecker) (x : State) (s : Strategy) : Option Event :=
  match x.phase.get s with
  | .checking k => (checker ⟨s, k⟩).map (.answered s k)
  | .reading _ => some .read
  | .reporting k => some (.sent s k)
  | .ending => some (.ended s)
  | .ended => none

def coordinatorEvent? (x : State) : Option Event :=
  match x.stage with
  | .polling => some .polled
  | .inspecting (s :: _) => some (.inspected s)
  | .inspecting [] => some .settled
  | .done _ => none

def perform (c : Config) (x : State) (e : Option Event) : State :=
  (e.bind (x.after? c)).getD x

/-- One turn of each worker and of the coordinator. -/
def round (c : Config) (checker : ParallelChecker) (x : State) : State :=
  let worker (x : State) (s : Strategy) : State := x.perform c (x.workerEvent? checker s)
  let y := [Strategy.baseCase, .forwardCondition, .inductiveStep].foldl worker x
  y.perform c y.coordinatorEvent?

/-- The verdict within some rounds. -/
def verdictWithin (c : Config) (checker : ParallelChecker) : Nat → State → Option Verdict
  | 0, _ => none
  | n + 1, x =>
    match x.stage with
    | .done v => some v
    | _ => verdictWithin c checker n (x.round c checker)

end State

/-- Rounds in which every worker that never waits has ended and the coordinator knows it: two for
each bound, and some for the records and the turns of the coordinator. -/
def roundsEnough (c : Config) : Nat := 2 * (c.largest + 2) + 40

/-- The verdict of the parallel run, none if some check never answers and all others are through. -/
def parallel (checker : ParallelChecker) (c : Config) : Option Verdict :=
  (State.start c).verdictWithin c checker (roundsEnough c)

end GotoCheck.Induction
