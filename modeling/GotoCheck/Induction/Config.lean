/-! Settings of a run and the bounds that it tries. -/
namespace GotoCheck.Induction

structure Config where
  maxBound : Nat := 50
  increment : Nat := 1
  /-- Go on as far as bounds have 32 bits. -/
  isUnlimited : Bool := false
  forwardDisabled : Bool := false
  inductiveDisabled : Bool := false
  /-- A worker that dies without a record ends the whole run. -/
  deadEndsRun : Bool := false

namespace Config

/-- The first number that has more than the 32 bits of a bound. -/
def boundLimit : Nat := 4294967296

def largest (c : Config) : Nat := if c.isUnlimited then boundLimit - 1 else c.maxBound

/-- An increment of zero counts as one. -/
def stride (c : Config) : Nat := max 1 c.increment

theorem stride_pos (c : Config) : 0 < c.stride := by unfold stride; omega

/-- The bound after `k`, if it still has 32 bits. -/
def next? (c : Config) (k : Nat) : Option Nat :=
  if k + c.stride < boundLimit then some (k + c.stride) else none

/-- The bounds from `k` on, in ascending order. -/
def steps (c : Config) (k : Nat) : List Nat :=
  if k ≤ c.largest then
    k :: if k + c.stride < boundLimit then c.steps (k + c.stride) else []
  else []
termination_by c.largest + 1 - k
decreasing_by have := c.stride_pos; omega

/-- The first `n` bounds from `k` on. -/
def firstSteps (c : Config) : (n k : Nat) → List Nat
  | 0, _ => []
  | n + 1, k =>
    if k ≤ c.largest then
      k :: match c.next? k with
        | some k => c.firstSteps n k
        | none => []
    else []

end Config
end GotoCheck.Induction
