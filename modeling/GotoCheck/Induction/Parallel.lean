import GotoCheck.Induction.Checker
import GotoCheck.Induction.Config

/-! The three checks side by side. Each worker tries growing bounds and sends one record to the
coordinator: the bound of its conclusive answer, or zero. The coordinator may ask the base case to
stop once it has covered a bound, and accepts a proof only when the base case has ended without a
violation. What may happen is a relation between states: events of the workers and of the
coordinator come in any order, and the events carry what the checker answered. -/
namespace GotoCheck.Induction

/-- Something for each of the three workers. -/
structure PerWorker (α : Type) where
  baseCase : α
  forwardCondition : α
  inductiveStep : α
deriving DecidableEq

namespace PerWorker
variable {α : Type}

def get (p : PerWorker α) : Strategy → α
  | .baseCase => p.baseCase
  | .forwardCondition => p.forwardCondition
  | .inductiveStep => p.inductiveStep

def set (p : PerWorker α) (s : Strategy) (a : α) : PerWorker α :=
  match s with
  | .baseCase => { p with baseCase := a }
  | .forwardCondition => { p with forwardCondition := a }
  | .inductiveStep => { p with inductiveStep := a }

def map {β : Type} (f : α → β) (p : PerWorker α) : PerWorker β :=
  ⟨f p.baseCase, f p.forwardCondition, f p.inductiveStep⟩

def all (f : α → Bool) (p : PerWorker α) : Bool :=
  f p.baseCase && f p.forwardCondition && f p.inductiveStep

end PerWorker

/-- What a worker is about to do. -/
inductive Phase
  | checking (bound : Nat)
  /-- The base case was safe at the bound; it looks for requests before it goes on. -/
  | reading (bound : Nat)
  /-- It has an answer, zero for none, and sends its record. -/
  | reporting (bound : Nat)
  /-- It has sent its record. -/
  | ending
  | ended
deriving DecidableEq

/-- What the checker answers a worker. -/
inductive Answer
  | outcome (o : Outcome)
  | error (e : CheckerError)
  /-- The check takes the worker down with it. -/
  | crash
deriving DecidableEq

/-- What the coordinator knows of a worker. -/
inductive Standing
  | running
  | reported (bound : Nat)
  /-- It ended without a record, or was given up. -/
  | dead
deriving DecidableEq

/-- The bound of a conclusive answer. -/
def Standing.solution? : Standing → Option Nat
  | reported k => if k = 0 then none else some k
  | _ => none

/-- A record on its way to the coordinator. -/
structure Message where
  sender : Strategy
  bound : Nat
deriving DecidableEq

/-- What the coordinator is about to do. -/
inductive Stage
  /-- Takes the next record, if there is one. -/
  | polling
  /-- Looks which of these workers are still alive. -/
  | inspecting (rest : List Strategy)
  | done (verdict : Verdict)
deriving DecidableEq

structure State where
  phase : PerWorker Phase
  /-- Where the base case stops, as far as it knows. -/
  limit : Nat
  /-- Records on their way, the oldest first. -/
  messages : List Message
  /-- Requests that the base case has not read, the oldest first. -/
  requests : List Nat
  standing : PerWorker Standing
  /-- Where the coordinator expects the base case to stop. -/
  expected : Nat
  stage : Stage
deriving DecidableEq

/-- What can happen next. -/
inductive Event
  /-- A worker gets an answer. -/
  | answered (s : Strategy) (bound : Nat) (a : Answer)
  /-- The base case takes note of all requests. -/
  | read
  | sent (s : Strategy) (bound : Nat)
  | ended (s : Strategy)
  /-- After the verdict a worker stops without a record. -/
  | cancelled (s : Strategy)
  | polled
  | inspected (s : Strategy)
  /-- The coordinator decides, or asks for a confirmation and goes on. -/
  | settled
deriving DecidableEq

/-- Goes on to a bound if there is one within the limit. -/
def Phase.seek (limit : Nat) : Option Nat → Phase
  | some k => if k ≤ limit then checking k else reporting 0
  | none => reporting 0

namespace Config

/-- The base case starts with one step and the others with two. A disabled worker has no answer. -/
def startPhase (c : Config) : Strategy → Phase
  | .baseCase => .seek c.largest (some 1)
  | .forwardCondition => if c.forwardDisabled then .reporting 0 else .seek c.largest (some 2)
  | .inductiveStep => if c.inductiveDisabled then .reporting 0 else .seek c.largest (some 2)

/-- A worker after an answer. -/
def phaseAfter (c : Config) (s : Strategy) (bound : Nat) : Answer → Phase
  | .outcome .violated =>
    if s = .baseCase then .reporting bound else .seek c.largest (c.next? bound)
  | .outcome .safe => if s = .baseCase then .reading bound else .reporting bound
  | .error _ => .reporting 0
  | .crash => .ended

end Config

namespace State

def start (c : Config) : State where
  phase := ⟨c.startPhase .baseCase, c.startPhase .forwardCondition, c.startPhase .inductiveStep⟩
  limit := c.largest
  messages := []
  requests := []
  standing := ⟨.running, .running, .running⟩
  expected := c.largest
  stage := .polling

/-- Only the first record of a worker counts. -/
def accept (x : State) (m : Message) : State :=
  if x.standing.get m.sender = .running then
    { x with standing := x.standing.set m.sender (.reported m.bound) }
  else x

/-- Accepts all records that are on their way. -/
def drain (x : State) : State := { x.messages.foldl accept x with messages := [] }

/-- Every worker without a record is given up. -/
def giveUp (x : State) : State :=
  { x with standing := x.standing.map fun t => if t = .running then .dead else t }

/-- A worker that has ended without a record is dead. Its record, if any, has been sent before. -/
def inspect (c : Config) (x : State) (s : Strategy) : State :=
  if x.standing.get s = .running ∧ x.phase.get s = .ended then
    let y := x.drain
    if y.standing.get s = .running then
      let z := { y with standing := y.standing.set s .dead }
      if c.deadEndsRun then z.giveUp else z
    else y
  else x

/-- A proof within the part that the base case has covered. -/
def proof? (x : State) : Option (Nat × Strategy) :=
  if x.standing.baseCase = .reported 0 then
    [Strategy.forwardCondition, .inductiveStep].findSome? fun s =>
      (x.standing.get s).solution?.bind fun k => if k ≤ x.expected then some (k, s) else none
  else none

def verdict (x : State) : Verdict :=
  match x.standing.baseCase.solution? with
  | some k => .failed k
  | none =>
    match x.proof? with
    | some (k, s) => .successful k s
    | none => .unknown

/-- The smallest bound of a proof. -/
def smallestProof? (x : State) : Option Nat :=
  [x.standing.forwardCondition, x.standing.inductiveStep].filterMap Standing.solution? |>.min?

/-- Asks a running base case to stop where the smallest proof begins. -/
def requestConfirmation (x : State) : State :=
  if x.standing.baseCase = .running then
    match x.smallestProof? with
    | some k =>
      if k < x.expected then { x with expected := k, requests := x.requests ++ [k] } else x
    | none => x
  else x

def allFinished (x : State) : Bool := x.standing.all (· ≠ .running)

/-- Takes the first record, or ends the run when no worker is left. -/
def poll (x : State) : State :=
  if x.allFinished then { x with stage := .done x.verdict }
  else
    let y := match x.messages with
      | [] => x
      | m :: rest => { x with messages := rest }.accept m
    { y with stage := .inspecting [.baseCase, .forwardCondition, .inductiveStep] }

/-- Ends the run on a violation or a proof. -/
def settle (x : State) : State :=
  if x.standing.baseCase.solution?.isSome ∨ x.proof?.isSome then { x with stage := .done x.verdict }
  else { x.requestConfirmation with stage := .polling }

def setPhase (x : State) (s : Strategy) (p : Phase) : State :=
  { x with phase := x.phase.set s p }

def isDone (x : State) : Bool :=
  match x.stage with
  | .done _ => true
  | _ => false

/-- The state after an event, none if the event cannot happen. -/
def after? (c : Config) (x : State) : Event → Option State
  | .answered s k a =>
    if x.phase.get s = .checking k then some (x.setPhase s (c.phaseAfter s k a)) else none
  | .read =>
    match x.phase.baseCase with
    | .reading k =>
      let limit := x.requests.foldl min x.limit
      some ({ x with limit, requests := [] }.setPhase .baseCase (Phase.seek limit (c.next? k)))
    | _ => none
  | .sent s k =>
    if x.phase.get s = .reporting k then
      some { x.setPhase s .ending with messages := x.messages ++ [⟨s, k⟩] }
    else none
  | .ended s => if x.phase.get s = .ending then some (x.setPhase s .ended) else none
  | .cancelled s =>
    match x.phase.get s with
    | .checking _ => if x.isDone then some (x.setPhase s .ended) else none
    | _ => none
  | .polled => if x.stage = .polling then some x.poll else none
  | .inspected s =>
    match x.stage with
    | .inspecting (t :: rest) =>
      if s = t then some { x.inspect c s with stage := .inspecting rest } else none
    | _ => none
  | .settled => if x.stage = .inspecting [] then some x.settle else none

end State

/-- The state that a run of events leads to from the start. -/
inductive Run (c : Config) : List Event → State → Prop
  | start : Run c [] (.start c)
  | next {events : List Event} {x y : State} {e : Event} :
      Run c events x → x.after? c e = some y → Run c (events ++ [e]) y

end GotoCheck.Induction
