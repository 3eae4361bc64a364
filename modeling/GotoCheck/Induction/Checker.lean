/-! Bounded checks, the parts that k-induction is put together from. -/
namespace GotoCheck.Induction

inductive Strategy
  /-- Is a property violated within k steps? -/
  | baseCase
  /-- Do k steps reach every state? -/
  | forwardCondition
  /-- Does the property hold after any k steps in which it held? -/
  | inductiveStep
deriving DecidableEq

def Strategy.text : Strategy → String
  | baseCase => "base case"
  | forwardCondition => "forward condition"
  | inductiveStep => "inductive step"

inductive Outcome
  | violated
  | safe
deriving DecidableEq

inductive CheckerError
  /-- The program uses something that the strategy cannot handle. -/
  | unsupported (strategy : Strategy) (reason : String)
  | failed (strategy : Strategy) (bound : Nat) (message : String)
deriving DecidableEq

def CheckerError.message : CheckerError → String
  | unsupported strategy reason => strategy.text ++ " is not applicable: " ++ reason
  | failed strategy bound message =>
    strategy.text ++ " failed at k = " ++ bound.repr ++ ": " ++ message

/-- A question to the checker. -/
structure Query where
  strategy : Strategy
  bound : Nat
deriving DecidableEq

/-- A bounded checker. Its answer may depend on the queries before, given with the latest first. -/
def Checker := List Query → Query → Except CheckerError Outcome

/-- A checker that answers a query always alike. -/
def Checker.ofFunction (f : Query → Except CheckerError Outcome) : Checker := fun _ q => f q

/-- What a run comes to. -/
inductive Verdict
  /-- The base case found a violation. -/
  | failed (bound : Nat)
  | successful (bound : Nat) (strategy : Strategy)
  /-- Neither proved nor refuted. -/
  | unknown
deriving DecidableEq

def Verdict.status : Verdict → String
  | failed _ => "VERIFICATION FAILED"
  | successful _ _ => "VERIFICATION SUCCESSFUL"
  | unknown => "VERIFICATION UNKNOWN"

/-- What a single answer decides: a violation in the base case refutes, and safety in one of the
other checks proves. -/
def Strategy.conclude (s : Strategy) (bound : Nat) (o : Outcome) : Option Verdict :=
  match s, o with
  | baseCase, .violated => some (.failed bound)
  | forwardCondition, .safe | inductiveStep, .safe => some (.successful bound s)
  | _, _ => none

end GotoCheck.Induction
