import GotoCheck.Proofs.Parallel.Accounting
import GotoCheck.Proofs.Parallel.Bytes

/-! Records and requests of a run as bytes. Their bounds never outgrow 32 bits, so what comes out of
a channel is what was put in, and no run ends at a record that cannot be read. -/
namespace GotoCheck.Induction
variable {c : Config} {events : List Event} {x : State} {m : Message} {k : Nat}

/-- The record that a worker sends. -/
def Message.toBytes (m : Message) : Vector UInt8 8 :=
  Record.toBytes ⟨.worker m.sender, UInt32.ofNat m.bound⟩

/-- The request that the coordinator sends. -/
def requestBytes (k : Nat) : Vector UInt8 8 := Record.toBytes ⟨.parent, UInt32.ofNat k⟩

/-- Where the base case stops after a request. It passes over bytes that are none. -/
def limitAfter (limit : Nat) (b : Vector UInt8 8) : Nat :=
  match Record.ofBytes b with
  | .ok ⟨.parent, k⟩ => min limit k.toNat
  | _ => limit

/-- Accepts a record from bytes. One that no worker sends is refused by its tag. -/
def State.acceptBytes (x : State) (b : Vector UInt8 8) : Except RecordError State :=
  match Record.ofBytes b with
  | .ok ⟨.worker s, k⟩ => .ok (x.accept ⟨s, k.toNat⟩)
  | .ok ⟨.parent, _⟩ => .error (.unrecognizedWorker Sender.parent.tag)
  | .error error => .error error

/-! Bounds of 32 bits are carried as they are. -/

theorem acceptBytes_toBytes (hm : m.bound < Config.boundLimit) (x : State) :
    x.acceptBytes m.toBytes = .ok (x.accept m) := by
  have hbound : (UInt32.ofNat m.bound).toNat = m.bound := UInt32.toNat_ofNat_of_lt hm
  rw [State.acceptBytes, Message.toBytes, Record.ofBytes_toBytes]
  dsimp only
  rw [hbound]

theorem limitAfter_requestBytes (hk : k < Config.boundLimit) (limit : Nat) :
    limitAfter limit (requestBytes k) = min limit k := by
  have hbound : (UInt32.ofNat k).toNat = k := UInt32.toNat_ofNat_of_lt hk
  rw [limitAfter, requestBytes, Record.ofBytes_toBytes]
  dsimp only
  rw [hbound]

theorem foldlM_acceptBytes {ms : List Message} (hms : ∀ m ∈ ms, m.bound < Config.boundLimit)
    (x : State) :
    (ms.map Message.toBytes).foldlM State.acceptBytes x = .ok (ms.foldl State.accept x) := by
  induction ms generalizing x with
  | nil => rfl
  | cons m rest ih =>
    obtain ⟨hm, hrest⟩ := List.forall_mem_cons.mp hms
    rw [List.map_cons, List.foldlM_cons, acceptBytes_toBytes hm]
    exact ih hrest (x.accept m)

theorem foldl_limitAfter {rs : List Nat} (hrs : ∀ r ∈ rs, r < Config.boundLimit) (limit : Nat) :
    (rs.map requestBytes).foldl limitAfter limit = rs.foldl min limit := by
  induction rs generalizing limit with
  | nil => rfl
  | cons r rest ih =>
    obtain ⟨hr, hrest⟩ := List.forall_mem_cons.mp hrs
    rw [List.map_cons, List.foldl_cons, limitAfter_requestBytes hr, ih hrest, List.foldl_cons]

/-! What is on its way in a run. -/

/-- A record has the bound of an answer, or none. -/
theorem Run.bound_lt_of_mem_messages (hx : Run c events x) (hm : m ∈ x.messages) :
    m.bound < Config.boundLimit := by
  have hbacked := hx.stateBacked.message m hm
  by_cases hzero : m.bound = 0
  · rw [hzero]
    decide
  by_cases hs : m.sender = .baseCase
  · obtain ⟨hanswered, -⟩ := hbacked.violated hs hzero
    have hstep : m.bound ∈ c.steps 1 :=
      (hx.asked_isPrefix_steps .baseCase).subset (mem_asked hanswered)
    -- the first bound has 32 bits, and the others are tried only if they do
    obtain ⟨i, hi, -, rfl | hlt⟩ := Config.mem_steps_iff.mp hstep
    · rw [hi, Nat.zero_mul]
      decide
    · exact hlt
  · exact (hbacked.proved hs hzero).2.1

namespace State

theorem requests_accept (x : State) (m : Message) : (x.accept m).requests = x.requests := by
  unfold accept
  split <;> rfl

theorem requests_foldl_accept (ms : List Message) (x : State) :
    (ms.foldl accept x).requests = x.requests := by
  induction ms generalizing x with
  | nil => rfl
  | cons m rest ih => rw [List.foldl_cons, ih, requests_accept]

theorem requests_inspect (c : Config) (x : State) (s : Strategy) :
    (x.inspect c s).requests = x.requests := by
  have hdrain : x.drain.requests = x.requests := requests_foldl_accept x.messages x
  unfold inspect
  split
  · dsimp only
    split
    · split <;> exact hdrain
    · exact hdrain
  · rfl

theorem requests_poll (x : State) : x.poll.requests = x.requests := by
  unfold poll
  split
  · rfl
  · split
    · rfl
    · exact requests_accept _ _

/-- The coordinator asks for the bound of a proof. -/
theorem requests_settle (x : State) : x.settle.requests = x.requests ∨
    ∃ s k, x.standing.get s = .reported k ∧ s ≠ .baseCase ∧ k ≠ 0 ∧
      x.settle.requests = x.requests ++ [k] := by
  unfold settle requestConfirmation
  split
  · exact .inl rfl
  · split
    · split
      · rename_i k hk
        obtain ⟨s, hs, hreported, hzero⟩ := smallestProof?_eq_some hk
        split
        · exact .inr ⟨s, k, hreported, hs, hzero, rfl⟩
        · exact .inl rfl
      · exact .inl rfl
    · exact .inl rfl

end State

theorem Run.lt_of_mem_requests (hx : Run c events x) (hk : k ∈ x.requests) :
    k < Config.boundLimit := by
  induction hx with
  | start => cases hk
  | @next events x y e hrun hy ih =>
    cases Step.of_after? hy with
    | answered | sent | ended | cancelled => exact ih hk
    | read => cases hk
    | polled => exact ih (State.requests_poll x ▸ hk)
    | @inspected s => exact ih (State.requests_inspect c x s ▸ hk)
    | settled =>
      rcases State.requests_settle x with heq | ⟨s, n, hreported, hs, hzero, heq⟩
      · exact ih (heq ▸ hk)
      · rw [heq] at hk
        rcases List.mem_append.mp hk with hk | hk
        · exact ih hk
        · rw [List.mem_singleton.mp hk]
          exact ((hrun.stateBacked.standing s n hreported).proved hs hzero).2.1

/-- Workers and coordinator may as well pass bytes: all records on their way are read and accepted
as sent, and all requests stop the base case where they say. -/
theorem Run.carried (hx : Run c events x) :
    (∀ y : State, (x.messages.map Message.toBytes).foldlM State.acceptBytes y =
        .ok (x.messages.foldl State.accept y)) ∧
      ∀ limit, (x.requests.map requestBytes).foldl limitAfter limit = x.requests.foldl min limit :=
  ⟨foldlM_acceptBytes fun _ hm => hx.bound_lt_of_mem_messages hm,
    foldl_limitAfter fun _ hk => hx.lt_of_mem_requests hk⟩

end GotoCheck.Induction
