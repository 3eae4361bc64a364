import GotoCheck.Induction.Checker
import GotoCheck.Induction.Config

/-! Searches with growing bounds. At each bound a search makes some of the checks in turn, and the
first answer that decides ends it. -/
namespace GotoCheck.Induction

/-- What a search came to, and its queries in order. -/
structure SearchResult where
  verdict : Except CheckerError Verdict
  queries : List Query

/-! The checks at one bound. Each gives what it decides and the queries up to then, `asked` and its
own, the latest first. -/

/-- A violation refutes. -/
def checkBaseCase (checker : Checker) (bound : Nat) (asked : List Query) :
    Except CheckerError (Option Verdict) × List Query :=
  let q : Query := ⟨.baseCase, bound⟩
  match checker asked q with
  | .ok .violated => (.ok (some (.failed bound)), q :: asked)
  | .ok .safe => (.ok none, q :: asked)
  | .error e => (.error e, q :: asked)

/-- Safety proves. The checker is not asked when the check is off. -/
def checkForwardCondition (checker : Checker) (c : Config) (bound : Nat) (asked : List Query) :
    Except CheckerError (Option Verdict) × List Query :=
  if c.forwardDisabled then (.ok none, asked)
  else
    let q : Query := ⟨.forwardCondition, bound⟩
    match checker asked q with
    | .ok .safe => (.ok (some (.successful bound .forwardCondition)), q :: asked)
    | .ok .violated => (.ok none, q :: asked)
    | .error e => (.error e, q :: asked)

/-- Safety proves, and an error only says nothing. One step proves nothing by induction that the
base case does not. -/
def checkInductiveStep (checker : Checker) (c : Config) (bound : Nat) (asked : List Query) :
    Option Verdict × List Query :=
  if bound = 1 ∨ c.inductiveDisabled then (none, asked)
  else
    let q : Query := ⟨.inductiveStep, bound⟩
    match checker asked q with
    | .ok .safe => (some (.successful bound .inductiveStep), q :: asked)
    | .ok .violated => (none, q :: asked)
    | .error _ => (none, q :: asked)

/-- Makes all three checks at each bound from one on. -/
def kInductionFrom (checker : Checker) (c : Config) (bound : Nat) (asked : List Query) :
    SearchResult :=
  if bound ≤ c.largest then
    match checkBaseCase checker bound asked with
    | (.error e, asked) => ⟨.error e, asked.reverse⟩
    | (.ok (some v), asked) => ⟨.ok v, asked.reverse⟩
    | (.ok none, asked) =>
      match checkForwardCondition checker c bound asked with
      | (.error e, asked) => ⟨.error e, asked.reverse⟩
      | (.ok (some v), asked) => ⟨.ok v, asked.reverse⟩
      | (.ok none, asked) =>
        match checkInductiveStep checker c bound asked with
        | (some v, asked) => ⟨.ok v, asked.reverse⟩
        | (none, asked) =>
          if bound + c.stride < Config.boundLimit then
            kInductionFrom checker c (bound + c.stride) asked
          else ⟨.ok .unknown, asked.reverse⟩
  else ⟨.ok .unknown, asked.reverse⟩
termination_by c.largest + 1 - bound
decreasing_by have := c.stride_pos; omega

def kInduction (checker : Checker) (c : Config) : SearchResult := kInductionFrom checker c 1 []

/-- Looks for violations only. -/
def falsificationFrom (checker : Checker) (c : Config) (bound : Nat) (asked : List Query) :
    SearchResult :=
  if bound ≤ c.largest then
    match checkBaseCase checker bound asked with
    | (.error e, asked) => ⟨.error e, asked.reverse⟩
    | (.ok (some v), asked) => ⟨.ok v, asked.reverse⟩
    | (.ok none, asked) =>
      if bound + c.stride < Config.boundLimit then
        falsificationFrom checker c (bound + c.stride) asked
      else ⟨.ok .unknown, asked.reverse⟩
  else ⟨.ok .unknown, asked.reverse⟩
termination_by c.largest + 1 - bound
decreasing_by have := c.stride_pos; omega

def falsification (checker : Checker) (c : Config) : SearchResult :=
  falsificationFrom checker c 1 []

/-- Looks for violations until all states are covered. -/
def incrementalFrom (checker : Checker) (c : Config) (bound : Nat) (asked : List Query) :
    SearchResult :=
  if bound ≤ c.largest then
    match checkBaseCase checker bound asked with
    | (.error e, asked) => ⟨.error e, asked.reverse⟩
    | (.ok (some v), asked) => ⟨.ok v, asked.reverse⟩
    | (.ok none, asked) =>
      match checkForwardCondition checker c bound asked with
      | (.error e, asked) => ⟨.error e, asked.reverse⟩
      | (.ok (some v), asked) => ⟨.ok v, asked.reverse⟩
      | (.ok none, asked) =>
        if bound + c.stride < Config.boundLimit then
          incrementalFrom checker c (bound + c.stride) asked
        else ⟨.ok .unknown, asked.reverse⟩
  else ⟨.ok .unknown, asked.reverse⟩
termination_by c.largest + 1 - bound
decreasing_by have := c.stride_pos; omega

def incremental (checker : Checker) (c : Config) : SearchResult := incrementalFrom checker c 1 []

end GotoCheck.Induction
