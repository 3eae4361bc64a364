import GotoCheck.Proofs.History
import GotoCheck.Proofs.LoopVariables

/-! Loops are cut out in range. Where the numbers of a body are out of date, the head that a
location number leads to need not be the target of the back edge. But the scan has passed every head
it knows, and none of them is the back edge itself, so the stretch between them is always there. -/
namespace GotoCheck

/-- The stretch of a list from one place up to and without another. There is none if the places are
out of order or beyond the end. -/
def slice? {α : Type} (l : List α) (first last : Nat) : Option (List α) :=
  if first ≤ last ∧ last ≤ l.length then some ((l.drop first).take (last - first)) else none

/-- The instruction under a handle, which has to be in the program. -/
def Program.lookUp (p : Program) (h : Handle) : Except ProgramError Instruction :=
  match p.get? h with
  | some i => .ok i
  | none => .error (.notInProgram h)

namespace Loop

/-- Looks instructions up and walks them one after the other. -/
def gather (table : FunctionTable) (body : Program) : ModifiedWalk → List Handle →
    Except ProgramError (ModifiedWalk × List (Nat × Instruction))
  | w, [] => .ok (w, [])
  | w, h :: rest => do
    let i ← body.lookUp h
    let w ← w.walk table i
    let (w, rows) ← gather table body w rest
    return (w, (h.slot, i) :: rows)

/-- Cuts a loop out step by step: takes a slice of the handles, looks up what they stand for, and
copies that. No slice, no answer. -/
def extract? (table : FunctionTable) (function : String) (body : Program)
    (head backEdge : Handle) (s : Span) (tag : Nat) : Option (Except ProgramError Loop) :=
  (slice? body.ids s.first s.last).map fun ids => do
    let (walk, rows) ← gather table body (.start function) ids
    let i ← body.lookUp backEdge
    let (program, exits) := copyStretch tag body (rows ++ [(backEdge.slot, i)])
    let (program, outcome) := program.update
    outcome
    return { program, head, backEdge, modified := walk.modified, exits }

/-- Head and back edge are in the body, the head at an earlier place, so there is a slice from the
one to the other. -/
structure InRange (body : Program) (head backEdge : Handle) : Prop where
  headIn : body.contains head
  backEdgeIn : body.contains backEdge
  places : ∃ first last, body.position? head = some first ∧ body.position? backEdge = some last ∧
    first < last ∧ (slice? body.ids first last).isSome

variable {table : FunctionTable} {function : String} {body : Program} {head backEdge : Handle}
variable {w : ModifiedWalk} {s : Span} {tag : Nat} {rows : List (Nat × Instruction)}

section Gather

theorem lookUp_of_mem (hbody : body.WellFormed) {r : Nat × Instruction} (hr : r ∈ body.rows) :
    body.lookUp (body.handle r.1) = .ok r.2 := by
  obtain ⟨k, hk⟩ := List.mem_iff_getElem?.mp hr
  obtain ⟨hid, hi⟩ := Program.getElem?_rows_eq_some_iff.mp hk
  rw [Program.lookUp, hbody.get?_eq hid, hi]

/-- Looking rows of the body up by their handles brings them back, so only the walk can fail. -/
theorem gather_handles (hbody : body.WellFormed) (hrows : rows ⊆ body.rows) :
    gather table body w (rows.map fun r => body.handle r.1) =
      (w.walkAll table (rows.map Prod.snd)).map fun w => (w, rows) := by
  induction rows generalizing w with
  | nil => rfl
  | cons r rest ih =>
    have hr : body.lookUp (body.handle r.1) = .ok r.2 :=
      lookUp_of_mem hbody (hrows List.mem_cons_self)
    have hrest := fun w => ih (w := w) fun r' hr' => hrows (List.mem_cons_of_mem r hr')
    rw [List.map_cons, gather, hr, List.map_cons, ModifiedWalk.walkAll]
    cases hw : w.walk table r.2 with
    | error e => simp only [bind, Except.bind, hw, Except.map]
    | ok w' =>
      simp only [bind, Except.bind, hw, hrest]
      cases ModifiedWalk.walkAll table w' (rest.map Prod.snd) <;> rfl

theorem slice?_ids (hle : s.first ≤ s.last) (hlast : s.last ≤ body.size) :
    slice? body.ids s.first s.last = some ((inner body s).map fun r => body.handle r.1) := by
  rw [slice?, if_pos ⟨hle, by rwa [Program.length_ids]⟩, Program.ids, ← List.map_drop,
    ← List.map_take]
  rfl

/-- In range, cutting out step by step gives what cutting out the stretch gives. -/
theorem extract?_eq (hbody : body.WellFormed) (hspan : span body head backEdge = .ok s)
    (hle : s.first ≤ s.last) : extract? table function body head backEdge s tag =
      some (extract table function body head backEdge s tag) := by
  obtain ⟨-, hlast⟩ := span_eq_ok_iff.mp hspan
  have hsize : s.last ≤ body.size := Nat.le_of_lt (Program.lt_size_of_position? hlast)
  have hinner : inner body s ⊆ body.rows := fun r hr =>
    List.mem_of_mem_drop (List.mem_of_mem_take hr)
  -- the back edge is behind the slice, and is looked up by itself
  obtain ⟨r, hr, rfl⟩ : ∃ r, body.rows[s.last]? = some r ∧ body.handle r.1 = backEdge := by
    have hid := Program.getElem?_ids_of_position? hlast
    rw [Program.getElem?_ids] at hid
    exact Option.map_eq_some_iff.mp hid
  have hback : body.lookUp (body.handle r.1) = .ok r.2 :=
    lookUp_of_mem hbody (List.mem_of_getElem? hr)
  have hstretch : stretch body s = inner body s ++ [((body.handle r.1).slot, r.2)] := by
    rw [stretch, hr]
    rfl
  rw [extract?, slice?_ids hle hsize, Option.map_some, gather_handles hbody hinner, extract,
    hstretch]
  congr 1
  cases (ModifiedWalk.start function).walkAll table ((inner body s).map Prod.snd) with
  | error e => rfl
  | ok walk => simp only [bind, Except.bind, Except.map, hback]

end Gather

end Loop

namespace LoopSearch
variable {table : FunctionTable} {function : String} {body : Program}
variable {s : LoopSearch} {h head backEdge : Handle} {i : Instruction} {k slot : Nat}
variable {seen : List (Nat × Handle)} {rest : List (Nat × Instruction)}
variable {calls : List (Handle × Handle)}

/-- Cuts out one more loop step by step. -/
def addLoop? (s : LoopSearch) (table : FunctionTable) (function : String) (body : Program)
    (head backEdge : Handle) : Option (LoopSearch × Except ProgramError Unit) :=
  match Loop.span body head backEdge with
  | .error e => some (s, .error e)
  | .ok span =>
    match Loop.extract? table function body head backEdge span s.nextTag with
    | none => none
    | some (.error e) => some ({ s with nextTag := s.nextTag + 1 }, .error e)
    | some (.ok l) => some (⟨put l s.loops, s.nextTag + 1⟩, .ok ())

/-- The scan with each loop cut out step by step. It keeps the heads and back edges that it has cut
out loops for, or tried to. -/
def scan? (table : FunctionTable) (function : String) (body : Program) :
    List (Nat × Instruction) → List (Nat × Handle) → LoopSearch → List (Handle × Handle) →
      Option (LoopSearch × List (Handle × Handle) × Except ProgramError Unit)
  | [], _, s, calls => some (s, calls, .ok ())
  | (slot, i) :: rest, seen, s, calls =>
    let h := body.handle slot
    let seen := if i.isTarget then (i.locationNumber, h) :: seen else seen
    match loopHead? body seen h i with
    | .error e => some (s, calls, .error e)
    | .ok none => scan? table function body rest seen s calls
    | .ok (some head) =>
      match s.addLoop? table function body head h with
      | none => none
      | some (s, .error e) => some (s, calls ++ [(head, h)], .error e)
      | some (s, .ok ()) => scan? table function body rest seen s (calls ++ [(head, h)])

def findLoops? (s : LoopSearch) (table : FunctionTable) (function : String) :
    Option (LoopSearch × List (Handle × Handle) × Except ProgramError Unit) :=
  match table.get? function with
  | none => some (s, [], .error (.missingFunction function))
  | some f => scan? table function f.body f.body.rows [] s []

section Calls

theorem Closes.inRange {first last : Nat} {target : Handle} (hbody : body.WellFormed)
    (h : Closes body first last head backEdge target) : Loop.InRange body head backEdge where
  headIn := Program.contains_iff.mpr (List.mem_of_getElem? h.headAt)
  backEdgeIn := Program.contains_iff.mpr (List.mem_of_getElem? h.backEdgeAt)
  places := ⟨first, last, hbody.position?_eq_some_iff.mpr h.headAt,
    hbody.position?_eq_some_iff.mpr h.backEdgeAt, h.lt, by
    have hlast := Nat.le_of_lt (Program.lt_size_of_getElem?_ids h.backEdgeAt)
    rw [Loop.slice?_ids (s := ⟨first, last⟩) (Nat.le_of_lt h.lt) hlast]
    rfl⟩

/-- A call in range is answered, and only for want of a function with an error. -/
theorem addLoop?_eq (hbody : body.WellFormed) (h : Loop.InRange body head backEdge) :
    s.addLoop? table function body head backEdge =
        some (s.addLoop table function body head backEdge) ∧
      ((s.addLoop table function body head backEdge).2 = .ok () ∨
        ∃ n, (s.addLoop table function body head backEdge).2 = .error (.missingFunction n)) := by
  obtain ⟨first, last, hfirst, hlast, hlt, -⟩ := h.places
  have hspan : Loop.span body head backEdge = .ok ⟨first, last⟩ :=
    Loop.span_eq_ok_iff.mpr ⟨hfirst, hlast⟩
  rw [addLoop?, addLoop, hspan]
  dsimp only
  rw [Loop.extract?_eq hbody hspan (Nat.le_of_lt hlt)]
  cases hextract : Loop.extract table function body head backEdge ⟨first, last⟩ s.nextTag with
  | ok l => exact ⟨rfl, .inl rfl⟩
  | error e =>
    obtain ⟨n, rfl, -, -⟩ := Loop.missing_of_extract hextract
    exact ⟨rfl, .inr ⟨n, rfl⟩⟩

theorem scan?_eq (table : FunctionTable) (function : String) (s : LoopSearch)
    (hbody : body.WellFormed) (hrest : body.rows.drop k = rest) (hseen : SeenBefore body k seen)
    (hcalls : ∀ c ∈ calls, Loop.InRange body c.1 c.2) :
    ∃ calls', scan? table function body rest seen s calls =
        some ((scan table function body rest seen s).1, calls',
          (scan table function body rest seen s).2) ∧
      ∀ c ∈ calls', Loop.InRange body c.1 c.2 := by
  induction rest generalizing k seen s calls with
  | nil => exact ⟨calls, rfl, hcalls⟩
  | cons r rest ih =>
    obtain ⟨slot, i⟩ := r
    obtain ⟨hk, hrest⟩ := row_of_drop hrest
    have hseen := hseen.note hk
    rw [scan?, scan]
    cases hhead : loopHead? body
      (if i.isTarget then (i.locationNumber, body.handle slot) :: seen else seen)
      (body.handle slot) i with
    | error e => exact ⟨calls, rfl, hcalls⟩
    | ok head? =>
      cases head? with
      | none => exact ih s hrest hseen hcalls
      | some head =>
        -- the head was noted at an earlier place, so this call is in range like those before
        obtain ⟨first, target, hcloses⟩ := closes_of_loopHead? hseen hk hhead
        have hin := Closes.inRange hbody hcloses
        have hcalls : ∀ c ∈ calls ++ [(head, body.handle slot)], Loop.InRange body c.1 c.2 := by
          intro c hc
          rcases List.mem_append.mp hc with hc | hc
          · exact hcalls c hc
          · rw [List.mem_singleton.mp hc]
            exact hin
        dsimp only
        rw [(addLoop?_eq hbody hin).1]
        cases hadd : s.addLoop table function body head (body.handle slot) with
        | mk s' outcome =>
          cases outcome with
          | error e => exact ⟨_, rfl, hcalls⟩
          | ok u => exact ih s' hrest hseen hcalls

/-- Whatever numbers the body has, each loop that the search cuts out or tries to is in range: head
and back edge are in the body, the head stands before the back edge, and there is a slice to take.
So the search is always answered, and the answer to each call is a loop, or that a function is
missing. -/
theorem findLoops_in_range (table : FunctionTable) (function : String)
    (hwf : ∀ f, table.get? function = some f → f.body.WellFormed) (s : LoopSearch) :
    ∃ calls, s.findLoops? table function =
        some ((s.findLoops table function).1, calls, (s.findLoops table function).2) ∧
      ∀ f, table.get? function = some f → ∀ c ∈ calls, Loop.InRange f.body c.1 c.2 ∧
        ∀ s' : LoopSearch, s'.addLoop? table function f.body c.1 c.2 =
            some (s'.addLoop table function f.body c.1 c.2) ∧
          ((s'.addLoop table function f.body c.1 c.2).2 = .ok () ∨
            ∃ n, (s'.addLoop table function f.body c.1 c.2).2 = .error (.missingFunction n)) := by
  rw [findLoops?, findLoops]
  cases hf : table.get? function with
  | none => exact ⟨[], rfl, nofun⟩
  | some f =>
    have hbody := hwf f hf
    have hseen : SeenBefore f.body 0 [] := fun e he => absurd he List.not_mem_nil
    have hnone : ∀ c ∈ ([] : List (Handle × Handle)), Loop.InRange f.body c.1 c.2 := fun c hc =>
      absurd hc List.not_mem_nil
    obtain ⟨calls, hscan, hcalls⟩ := scan?_eq table function s hbody rfl hseen hnone
    refine ⟨calls, hscan, ?_⟩
    intro f' hf' c hc
    cases hf'
    exact ⟨hcalls c hc, fun s' => addLoop?_eq hbody (hcalls c hc)⟩

/-- A numbered loop, and then a copy of its head behind the head, with the numbers of the head. The
instruction between them is taken out, and a jump to where it was comes in. -/
def staleNumbers : List Command :=
  let jump (slot : Nat) : Instruction := .goto (Samples.intVariable "c::y") ⟨0, slot⟩
  [.create "p",
    .edit "p" (.add (.ofStatement .skip)),
    .edit "p" (.add (.ofStatement .skip)),
    .edit "p" (.add (jump 0)),
    .edit "p" (.add .endFunction),
    .edit "p" .update,
    .edit "p" (.insertAfter ⟨0, 1⟩ { statement := .skip, targetNumber := some 1 }),
    .edit "p" (.remove ⟨0, 1⟩),
    .edit "p" (.insertAfter ⟨0, 2⟩ (jump 1))]

/-- The back edge leads to the first place, and its loop is cut out from the second. -/
theorem call_of_staleNumbers :
    ∃ body calls, (Workspace.after staleNumbers).program? "p" = some body ∧
    ((start 1).findLoops? (.insert .empty Samples.mainName { body }) Samples.mainName).map
      (fun r => r.2.1) = some calls ∧
    calls = [(⟨0, 4⟩, ⟨0, 2⟩)] ∧ Loop.InRange body ⟨0, 4⟩ ⟨0, 2⟩ ∧
    (body.get? ⟨0, 2⟩).map Instruction.targets = some [⟨0, 0⟩] := by
  obtain ⟨body, hbody⟩ : ∃ body, (Workspace.after staleNumbers).program? "p" = some body :=
    Option.isSome_iff_exists.mp (by decide +kernel)
  have hwf : body.WellFormed := (Workspace.wellFormed_after staleNumbers).program? hbody
  let table : FunctionTable := .insert .empty Samples.mainName { body }
  have htable : table.get? Samples.mainName = some { body } :=
    NameMap.get?_insert.trans (if_pos rfl)
  have hbodies : ∀ f, table.get? Samples.mainName = some f → f.body.WellFormed := by
    intro f hf
    rw [htable] at hf
    cases hf
    exact hwf
  obtain ⟨calls, hsearch, hcalls⟩ := findLoops_in_range table Samples.mainName hbodies (start 1)
  have hrun : ((Workspace.after staleNumbers).program? "p").map (fun body =>
      (((start 1).findLoops? (.insert .empty Samples.mainName { body }) Samples.mainName).map
        fun r => r.2.1, (body.get? ⟨0, 2⟩).map Instruction.targets)) =
      some (some [(⟨0, 4⟩, ⟨0, 2⟩)], some [⟨0, 0⟩]) := by
    decide +kernel
  rw [hbody, Option.map_some, Option.some.injEq, Prod.mk.injEq] at hrun
  obtain ⟨hrun, htarget⟩ := hrun
  have hlist : calls = [(⟨0, 4⟩, ⟨0, 2⟩)] := by
    change (((start 1).findLoops? table Samples.mainName).map fun r => r.2.1) = _ at hrun
    rw [hsearch, Option.map_some, Option.some.injEq] at hrun
    exact hrun
  refine ⟨body, calls, hbody, ?_, hlist, ?_, htarget⟩
  · rw [hlist]
    exact hrun
  · exact (hcalls _ htable (⟨0, 4⟩, ⟨0, 2⟩) (by rw [hlist]; exact List.mem_singleton_self _)).1

end Calls

end LoopSearch
end GotoCheck
