import GotoCheck.Proofs.Extract
import GotoCheck.Samples
import Mathlib.Data.Prod.Lex

/-! The walk over called code, one move at a time. A function gets to the pending ones only when it
is met for the first time, so none gets there twice and none is read twice, and the table holds all
of them. Each move leaves less to be done. -/
namespace GotoCheck.ModifiedWalk
variable {table : FunctionTable} {function : String}

/-- Where a walk over code stands. -/
structure Point where
  walk : ModifiedWalk
  /-- What is left of the body that is being read. -/
  reading : List Instruction
  /-- What is left of the code. -/
  code : List Instruction

/-- No instruction of the code has been read. -/
def begin (function : String) (code : List Instruction) : Point := ⟨start function, [], code⟩

/-- What becomes of a function. -/
inductive Turn
  /-- It becomes pending. -/
  | taken
  /-- It is no longer pending. -/
  | left
  /-- The reading of its body begins. -/
  | read
deriving DecidableEq

structure Visit where
  turn : Turn
  name : String

/-- The functions that have had a turn, the first of them first. -/
def having (t : Turn) (visits : List Visit) : List String :=
  visits.filterMap fun v => if v.turn = t then some v.name else none

/-- One move. A body is read to its end before the next function is looked at, and all functions are
read before the code goes on. -/
inductive Step (table : FunctionTable) : Point → List Visit → Point → Prop
  | scanned {w w' : ModifiedWalk} {i : Instruction} {reading code : List Instruction}
      {names : List String} : w.scan table i = .ok w' → w'.pending = names ++ w.pending →
      Step table ⟨w, i :: reading, code⟩ (names.map (Visit.mk .taken)) ⟨w', reading, code⟩
  | read {w : ModifiedWalk} {n : String} {pending : List String} {f : FunctionEntry}
      {code : List Instruction} : w.pending = n :: pending → table.get? n = some f →
      f.isAvailable → Step table ⟨w, [], code⟩ [⟨.left, n⟩, ⟨.read, n⟩]
        ⟨{ w with pending }, f.body.instructions, code⟩
  | passed {w : ModifiedWalk} {n : String} {pending : List String} {f : FunctionEntry}
      {code : List Instruction} : w.pending = n :: pending → table.get? n = some f →
      f.isAvailable = false → Step table ⟨w, [], code⟩ [⟨.left, n⟩] ⟨{ w with pending }, [], code⟩
  | advanced {w : ModifiedWalk} {i : Instruction} {code : List Instruction} : w.pending = [] →
      Step table ⟨w, [], i :: code⟩ [] ⟨w, [i], code⟩

/-- Where a walk ends, and with what. -/
inductive Stops (table : FunctionTable) : Point → Except ProgramError ModifiedWalk → Prop
  | done {w : ModifiedWalk} : w.pending = [] → Stops table ⟨w, [], []⟩ (.ok w)
  | unknown {w : ModifiedWalk} {i : Instruction} {reading code : List Instruction}
      {e : ProgramError} : w.scan table i = .error e →
      Stops table ⟨w, i :: reading, code⟩ (.error e)
  /-- A pending function is not in the table. -/
  | missing {w : ModifiedWalk} {n : String} {pending : List String} {code : List Instruction} :
      w.pending = n :: pending → table.get? n = none →
      Stops table ⟨w, [], code⟩ (.error (.missingFunction n))

/-- Moves one after another, with all that they do. -/
inductive Steps (table : FunctionTable) (p : Point) : List Visit → Point → Prop
  | refl : Steps table p [] p
  | next {visits new : List Visit} {q r : Point} :
      Steps table p visits q → Step table q new r → Steps table p (visits ++ new) r

variable {p q r : Point} {visits new : List Visit} {w w' : ModifiedWalk} {i : Instruction}

/-! Moves and the walk that they make up. -/

/-- What the walk comes to from a point on. -/
def Point.result (table : FunctionTable) (p : Point) : Except ProgramError ModifiedWalk :=
  (scanAll table p.walk p.reading).bind fun w => (w.finish table).bind fun w =>
    walkAll table w p.code

section Finish
variable {n : String} {pending : List String} {f : FunctionEntry}

theorem finish_of_nil (hp : w.pending = []) : w.finish table = .ok w := by
  fun_cases finish table w <;> simp_all

theorem finish_of_missing (hp : w.pending = n :: pending) (hf : table.get? n = none) :
    w.finish table = .error (.missingFunction n) := by
  fun_cases finish table w <;> simp_all

theorem finish_of_available (hp : w.pending = n :: pending) (hf : table.get? n = some f)
    (ha : f.isAvailable) : w.finish table =
      (scanAll table { w with pending } f.body.instructions).bind (finish table) := by
  fun_cases finish table w <;> simp_all [Except.bind]

theorem finish_of_unavailable (hp : w.pending = n :: pending) (hf : table.get? n = some f)
    (ha : f.isAvailable = false) : w.finish table = finish table { w with pending } := by
  fun_cases finish table w <;> simp_all

end Finish

theorem scanAll_cons (table : FunctionTable) (w : ModifiedWalk) (i : Instruction)
    (is : List Instruction) : scanAll table w (i :: is) =
      (w.scan table i).bind fun w => scanAll table w is := by
  rw [scanAll]
  cases w.scan table i <;> rfl

theorem walkAll_cons (table : FunctionTable) (w : ModifiedWalk) (i : Instruction)
    (is : List Instruction) : walkAll table w (i :: is) =
      (scanAll table w [i]).bind fun w => (w.finish table).bind fun w => walkAll table w is := by
  rw [walkAll, walk, scanAll_cons]
  cases w.scan table i with
  | error e => rfl
  | ok w₁ =>
    simp only [Except.bind, scanAll]
    cases w₁.finish table <;> rfl

/-- With nothing left to read the pending functions are next. -/
theorem Point.result_nil (table : FunctionTable) (w : ModifiedWalk) (code : List Instruction) :
    Point.result table ⟨w, [], code⟩ = (w.finish table).bind fun w => walkAll table w code := rfl

/-- A move does not change what the walk comes to. -/
theorem Step.result_eq (h : Step table p new q) : p.result table = q.result table := by
  cases h with
  | scanned hs _ =>
    simp only [Point.result, scanAll_cons, hs]
    rfl
  | @read w n pending f code hp hf ha =>
    -- the body that is read now is the first thing that the finishing would scan
    rw [Point.result_nil, finish_of_available hp hf ha]
    simp only [Point.result]
    cases scanAll table { w with pending } f.body.instructions <;> rfl
  | passed hp hf ha =>
    rw [Point.result_nil, Point.result_nil, finish_of_unavailable hp hf ha]
  | advanced hp =>
    rw [Point.result_nil, finish_of_nil hp, Except.bind, walkAll_cons]
    rfl

theorem Steps.result_eq (h : Steps table p visits q) : p.result table = q.result table := by
  induction h with
  | refl => rfl
  | next _ hstep ih => exact ih.trans hstep.result_eq

theorem Stops.result_eq {r : Except ProgramError ModifiedWalk} (h : Stops table p r) :
    p.result table = r := by
  cases h with
  | done hp =>
    rw [Point.result_nil, finish_of_nil hp]
    rfl
  | unknown hs =>
    simp only [Point.result, scanAll_cons, hs]
    rfl
  | missing hp hf =>
    rw [Point.result_nil, finish_of_missing hp hf]
    rfl

theorem result_begin (table : FunctionTable) (function : String) (code : List Instruction) :
    (begin function code).result table = walkAll table (start function) code := by
  rw [begin, Point.result_nil, finish_of_nil rfl]
  rfl

/-! What a scan takes up. -/

/-- A scan makes pending what it meets for the first time, if the table has it. -/
theorem pushes_of_scan (h : w.scan table i = .ok w') :
    ∃ names, w'.pending = names ++ w.pending ∧ w'.visited = names ++ w.visited ∧
      (w.visited.Nodup → w'.visited.Nodup) ∧ ∀ n ∈ names, (table.get? n).isSome := by
  have quiet : ∃ names, w.pending = names ++ w.pending ∧ w.visited = names ++ w.visited ∧
      (w.visited.Nodup → w.visited.Nodup) ∧ ∀ n ∈ names, (table.get? n).isSome :=
    ⟨[], rfl, rfl, id, nofun⟩
  unfold scan at h
  split at h
  · rename_i n _
    unfold take at h
    split at h
    · cases h
      exact quiet
    · rename_i hmet
      split at h
      · cases h
      · rename_i hknown
        cases h
        refine ⟨[n], rfl, rfl, fun hnodup => ?_, fun m hm => ?_⟩
        · exact List.nodup_cons.mpr ⟨fun hn => hmet (List.contains_iff_mem.mpr hn), hnodup⟩
        · rw [List.mem_singleton.mp hm, Option.isSome_iff_ne_none]
          simpa using hknown
  · cases h
    exact quiet

/-- Every point but the last one has a move. -/
theorem stops_or_step (table : FunctionTable) (p : Point) :
    (∃ r, Stops table p r) ∨ ∃ new q, Step table p new q := by
  obtain ⟨w, reading, code⟩ := p
  cases reading with
  | cons i reading =>
    cases hs : w.scan table i with
    | error e => exact .inl ⟨_, .unknown hs⟩
    | ok w' =>
      obtain ⟨names, hpending, -⟩ := pushes_of_scan hs
      exact .inr ⟨_, _, .scanned hs hpending⟩
  | nil =>
    cases hp : w.pending with
    | nil =>
      cases code with
      | nil => exact .inl ⟨_, .done hp⟩
      | cons i code => exact .inr ⟨_, _, .advanced hp⟩
    | cons n pending =>
      cases hf : table.get? n with
      | none => exact .inl ⟨_, .missing hp hf⟩
      | some f =>
        cases ha : f.isAvailable with
        | true => exact .inr ⟨_, _, .read hp hf ha⟩
        | false => exact .inr ⟨_, _, .passed hp hf ha⟩

/-! Each move leaves less to be done. -/

/-- What is left to be done: instructions of the code, then functions, then instructions of a
body. -/
def Point.todo (table : FunctionTable) (p : Point) : Nat ×ₗ Nat ×ₗ Nat :=
  toLex (p.code.length, toLex (p.walk.remaining table, p.reading.length))

theorem Step.todo_lt (h : Step table p new q) : q.todo table < p.todo table := by
  simp only [Point.todo, Prod.Lex.toLex_lt_toLex]
  cases h with
  | scanned hs _ =>
    -- what a scan makes pending was still to be met
    have hle := remaining_scan hs
    refine .inr ⟨rfl, (Nat.lt_or_eq_of_le hle).imp_right fun heq => ⟨heq, ?_⟩⟩
    exact Nat.lt_succ_self _
  | read hp _ _ =>
    refine .inr ⟨rfl, .inl ?_⟩
    simp only [remaining, hp, List.length_cons]
    omega
  | passed hp _ _ =>
    refine .inr ⟨rfl, .inl ?_⟩
    simp only [remaining, hp, List.length_cons]
    omega
  | advanced _ => exact .inl (Nat.lt_succ_self _)

theorem step_wellFounded (table : FunctionTable) :
    WellFounded fun q p => ∃ new, Step table p new q :=
  Subrelation.wf (fun ⟨_, h⟩ => h.todo_lt) (InvImage.wf (Point.todo table) wellFounded_lt)

theorem Steps.head (h : Step table p new q) (hs : Steps table q visits r) :
    Steps table p (new ++ visits) r := by
  induction hs with
  | refl => simpa using Steps.refl.next h
  | next _ hstep ih => simpa using ih.next hstep

/-- From every point on the walk comes to an end. -/
theorem exists_stops (table : FunctionTable) (p : Point) :
    ∃ visits q, Steps table p visits q ∧ Stops table q (p.result table) := by
  induction p using (step_wellFounded table).induction with
  | _ p ih =>
    obtain ⟨r, hr⟩ | ⟨new, q, hstep⟩ := stops_or_step table p
    · exact ⟨[], p, .refl, hr.result_eq ▸ hr⟩
    · obtain ⟨visits, q', hsteps, hstops⟩ := ih q ⟨new, hstep⟩
      exact ⟨new ++ visits, q', .head hstep hsteps, hstep.result_eq ▸ hstops⟩

/-! What a walk keeps of the turns that functions have had. -/

theorem having_append (t : Turn) (visits new : List Visit) :
    having t (visits ++ new) = having t visits ++ having t new :=
  List.filterMap_append

theorem having_mk (t : Turn) (names : List String) : having t (names.map (Visit.mk t)) = names := by
  simp [having, List.filterMap_map]

theorem having_mk_of_ne {t u : Turn} (h : u ≠ t) (names : List String) :
    having t (names.map (Visit.mk u)) = [] := by
  simp [having, h]

/-- The functions met are those taken up, beside the enclosing one. Those taken up are in the table,
and each of them is either pending or has left. -/
structure TurnsKept (table : FunctionTable) (function : String) (visits : List Visit) (p : Point) :
    Prop where
  met : p.walk.visited.Perm (function :: having .taken visits)
  nodup : p.walk.visited.Nodup
  known : ∀ n ∈ having .taken visits, (table.get? n).isSome
  waiting : (having .left visits ++ p.walk.pending).Perm (having .taken visits)
  read : (having .read visits).Sublist (having .left visits)

theorem TurnsKept.begin (table : FunctionTable) (function : String) (code : List Instruction) :
    TurnsKept table function [] (begin function code) where
  met := .refl _
  nodup := List.nodup_singleton function
  known := nofun
  waiting := .refl _
  read := .refl _

theorem TurnsKept.scanned {reading code : List Instruction} {names : List String}
    (h : TurnsKept table function visits ⟨w, i :: reading, code⟩) (hs : w.scan table i = .ok w')
    (hp : w'.pending = names ++ w.pending) :
    TurnsKept table function (visits ++ names.map (Visit.mk .taken)) ⟨w', reading, code⟩ := by
  obtain ⟨names', hp', hvisited, hnodup, hknown⟩ := pushes_of_scan hs
  obtain rfl : names' = names := List.append_cancel_right (hp'.symm.trans hp)
  have htaken : having .taken (visits ++ names'.map (Visit.mk .taken)) =
      having .taken visits ++ names' := by
    rw [having_append, having_mk]
  have hrest (t : Turn) (ht : .taken ≠ t) :
      having t (visits ++ names'.map (Visit.mk .taken)) = having t visits := by
    rw [having_append, having_mk_of_ne ht, List.append_nil]
  -- turns other than being taken up are as they were
  refine ⟨?_, hnodup h.nodup, fun n hn => ?_, ?_, ?_⟩
  · rw [htaken, hvisited]
    exact (h.met.append_left names').trans List.perm_append_comm
  · rw [htaken] at hn
    exact (List.mem_append.mp hn).elim (h.known n) (hknown n)
  · rw [htaken, hrest .left nofun, hp]
    -- what is new joins both lists at their ends
    have hcomm : (having .left visits ++ (names' ++ w.pending)).Perm
        ((having .left visits ++ w.pending) ++ names') := by
      rw [List.append_assoc]
      exact List.perm_append_comm.append_left _
    exact hcomm.trans (h.waiting.append_right names')
  · rw [hrest .left nofun, hrest .read nofun]
    exact h.read

/-- A function leaves the pending ones, and its body is read or not. -/
theorem TurnsKept.popped {reading reading' code : List Instruction} {n : String}
    {pending : List String} (h : TurnsKept table function visits ⟨w, reading, code⟩)
    (hp : w.pending = n :: pending) (htaken : having .taken new = [])
    (hleft : having .left new = [n]) (hread : (having .read new).Sublist [n]) :
    TurnsKept table function (visits ++ new) ⟨{ w with pending }, reading', code⟩ := by
  refine ⟨?_, h.nodup, ?_, ?_, ?_⟩
  · rw [having_append, htaken, List.append_nil]
    exact h.met
  · rw [having_append, htaken, List.append_nil]
    exact h.known
  · rw [having_append, having_append, htaken, hleft, List.append_nil, List.append_assoc,
      List.singleton_append, ← hp]
    exact h.waiting
  · rw [having_append, having_append, hleft]
    exact h.read.append hread

theorem TurnsKept.step (h : TurnsKept table function visits p) (hstep : Step table p new q) :
    TurnsKept table function (visits ++ new) q := by
  cases hstep with
  | scanned hs hp => exact h.scanned hs hp
  | read hp _ _ => exact h.popped hp rfl rfl (.refl _)
  | passed hp _ _ => exact h.popped hp rfl rfl (List.nil_sublist _)
  | advanced hp =>
    rw [List.append_nil]
    exact ⟨h.met, h.nodup, h.known, h.waiting, h.read⟩

theorem Steps.turnsKept {code : List Instruction} (h : Steps table (begin function code) visits p) :
    TurnsKept table function visits p := by
  induction h with
  | refl => exact .begin table function code
  | next _ hstep ih => exact ih.step hstep

/-- Every function is taken up at most once and read at most once, the enclosing one never. What is
pending is in the table, so that only a scan can find a function missing. -/
structure TakesOnce (table : FunctionTable) (function : String) (visits : List Visit) (p : Point) :
    Prop where
  taken : (having .taken visits).Nodup
  read : (having .read visits).Nodup
  taken_ne : function ∉ having .taken visits
  read_ne : function ∉ having .read visits
  pending : ∀ n ∈ p.walk.pending, (table.get? n).isSome
  scans : ∀ e, Stops table p (.error e) → ∃ i rest, p.reading = i :: rest ∧
    p.walk.scan table i = .error e

theorem TurnsKept.takesOnce (h : TurnsKept table function visits p) :
    TakesOnce table function visits p := by
  have hmet : (function :: having .taken visits).Nodup := h.met.nodup_iff.mp h.nodup
  obtain ⟨hown, htaken⟩ := List.nodup_cons.mp hmet
  -- what has left or is pending was taken up, each function once
  have hleft : (having .left visits).Nodup :=
    (List.nodup_append.mp (h.waiting.nodup_iff.mpr htaken)).1
  have hsub {n : String} (hn : n ∈ having .read visits) : n ∈ having .taken visits :=
    h.waiting.subset (List.mem_append_left _ (h.read.subset hn))
  have hpending : ∀ n ∈ p.walk.pending, (table.get? n).isSome := fun n hn =>
    h.known n (h.waiting.subset (List.mem_append_right _ hn))
  refine ⟨htaken, h.read.nodup hleft, hown, fun hn => hown (hsub hn), hpending, fun e he => ?_⟩
  cases he with
  | unknown hs => exact ⟨_, _, rfl, hs⟩
  | missing hp hf =>
    -- a pending function was in the table when it was taken up
    have hknown := hpending _ (hp ▸ List.mem_cons_self)
    rw [hf] at hknown
    cases hknown

/-- Cutting a loop out of a body walks its code to an end, whatever calls what: no function has more
than one turn, and the exit for a pending function that is missing is never taken. -/
theorem loop_walk_takes_once (table : FunctionTable) (function : String) (body : Program)
    (s : Loop.Span) (head backEdge : Handle) (tag : Nat) :
    (WellFounded fun q p => ∃ new, Step table p new q) ∧
      (∃ visits p r, Steps table (begin function (body.between s.first s.last)) visits p ∧
        Stops table p r) ∧
      ∀ visits p, Steps table (begin function (body.between s.first s.last)) visits p →
        TakesOnce table function visits p ∧
          ((∃ r, Stops table p r) ∨ ∃ new q, Step table p new q) ∧
          ∀ r, Stops table p r → Loop.extract table function body head backEdge s tag =
            r.map fun w => Loop.ofStretch body head backEdge s tag w.modified := by
  refine ⟨step_wellFounded table, ?_, fun visits p hsteps => ⟨?_, ?_, fun r hr => ?_⟩⟩
  · obtain ⟨visits, p, hsteps, hstops⟩ :=
      exists_stops table (begin function (body.between s.first s.last))
    exact ⟨visits, p, _, hsteps, hstops⟩
  · exact hsteps.turnsKept.takesOnce
  · exact stops_or_step table p
  · rw [Loop.extract_eq, Loop.map_snd_inner, ← result_begin, hsteps.result_eq, hr.result_eq]

/-- The loop calls one of two functions that call each other. -/
theorem loop_walk_of_mutualRecursion : ∃ f, Samples.mutuallyRecursiveLoop.get? Samples.mainName =
    some f ∧ ∃ visits p w,
      Steps Samples.mutuallyRecursiveLoop (begin Samples.mainName (f.body.between 1 4)) visits p ∧
        Stops Samples.mutuallyRecursiveLoop p (.ok w) ∧
        (having .taken visits).Perm ["c::h", "c::g"] ∧
        TakesOnce Samples.mutuallyRecursiveLoop Samples.mainName visits p := by
  obtain ⟨f, hf⟩ : ∃ f, Samples.mutuallyRecursiveLoop.get? Samples.mainName = some f :=
    Option.isSome_iff_exists.mp (by decide +kernel)
  obtain ⟨-, ⟨visits, p, r, hsteps, hstops⟩, hall⟩ := loop_walk_takes_once
    Samples.mutuallyRecursiveLoop Samples.mainName f.body ⟨1, 4⟩ ⟨0, 1⟩ ⟨0, 4⟩ 7
  have hvisited : (Samples.mutuallyRecursiveLoop.get? Samples.mainName).map (fun f =>
      (walkAll Samples.mutuallyRecursiveLoop (start Samples.mainName)
        (f.body.between 1 4)).toOption.map visited) =
      some (some ["c::h", "c::g", Samples.mainName]) := by
    decide +kernel
  have hresult := hsteps.result_eq.trans hstops.result_eq
  rw [hf, Option.map_some, Option.some.injEq, ← result_begin, hresult] at hvisited
  cases hstops with
  | @done w hp =>
    have hmet : ["c::h", "c::g", Samples.mainName].Perm
        (Samples.mainName :: having .taken visits) :=
      Option.some.inj hvisited ▸ hsteps.turnsKept.met
    have hcomm : ["c::h", "c::g", Samples.mainName].Perm [Samples.mainName, "c::h", "c::g"] :=
      @List.perm_append_comm _ ["c::h", "c::g"] [Samples.mainName]
    refine ⟨f, hf, visits, _, w, hsteps, .done hp, ?_, (hall _ _ hsteps).1⟩
    exact (List.perm_cons _).mp (hmet.symm.trans hcomm)
  | unknown => cases hvisited
  | missing => cases hvisited

end GotoCheck.ModifiedWalk
