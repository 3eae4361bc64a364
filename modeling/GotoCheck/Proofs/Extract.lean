import GotoCheck.Loop.Extract
import GotoCheck.Proofs.Numbering

/-! Copies of stretches. A copied stretch is closed, whatever it is copied from, so cutting out a
loop fails only where the walk over its calls does. -/
namespace GotoCheck.Loop
variable {body : Program} {rows : List (Nat × Instruction)} {tag k : Nat} {t : Handle}

theorem span_eq_ok_iff {head backEdge : Handle} {s : Span} : span body head backEdge = .ok s ↔
    body.position? head = some s.first ∧ body.position? backEdge = some s.last := by
  unfold span Program.locate
  cases body.position? head <;> cases body.position? backEdge <;> cases s <;>
    simp [bind, Except.bind, pure, Except.pure]

/-- The place in a stretch of the instruction under a handle. -/
def placeIn (body : Program) (rows : List (Nat × Instruction)) (t : Handle) : Option Nat :=
  rows.findIdx? fun r => body.handle r.1 == t

/-- Where the copy of a jump to `t` leads: to the copy of its target or to the end marker. -/
def imageOf (tag : Nat) (body : Program) (rows : List (Nat × Instruction)) (t : Handle) : Handle :=
  ((placeIn body rows t).map (Handle.mk tag)).getD ⟨tag, rows.length⟩

def copied (tag : Nat) (body : Program) (rows : List (Nat × Instruction)) : List Instruction :=
  rows.map fun r => { r.2 with targets := r.2.targets.map (imageOf tag body rows) }

def exitsOf (tag : Nat) (body : Program) (rows : List (Nat × Instruction)) :
    List (Handle × Handle) :=
  exitEdges tag (placeIn body rows) (rows.map Prod.snd)

theorem copyStretch_eq : copyStretch tag body rows =
    (.ofList tag (copied tag body rows ++ if (exitsOf tag body rows).isEmpty then []
      else [.endFunction]), exitsOf tag body rows) := by
  unfold copyStretch copied exitsOf placeIn imageOf placeIn
  simp only [List.map_map, Function.comp_def]
  split <;> simp_all

theorem mem_exitsOf_iff {e : Handle × Handle} : e ∈ exitsOf tag body rows ↔
    ∃ k r, rows[k]? = some r ∧ e.1 = ⟨tag, k⟩ ∧ e.2 ∈ r.2.targets ∧
      placeIn body rows e.2 = none := by
  simp only [exitsOf, exitEdges, List.mem_flatMap, List.mem_map, List.mem_filter, Prod.exists,
    List.mk_mem_zipIdx_iff_getElem?, List.getElem?_map, Option.map_eq_some_iff,
    Option.isNone_iff_eq_none]
  constructor
  · intro hx
    obtain ⟨i, k, ⟨slot, i, hr, rfl⟩, t, ⟨ht, hout⟩, rfl⟩ := hx
    exact ⟨k, slot, i, hr, rfl, ht, hout⟩
  · intro hx
    obtain ⟨k, slot, i, hr, he, ht, hout⟩ := hx
    exact ⟨i, k, ⟨slot, i, hr, rfl⟩, e.2, ⟨ht, hout⟩, by rw [← he]⟩

theorem lt_length_of_placeIn (h : placeIn body rows t = some k) : k < rows.length :=
  (List.findIdx?_eq_some_iff_getElem.mp h).1

@[simp] theorem length_copied : (copied tag body rows).length = rows.length := List.length_map _

theorem closed_copyStretch (tag : Nat) (body : Program) (rows : List (Nat × Instruction)) :
    (copyStretch tag body rows).1.Closed := by
  rw [copyStretch_eq]
  intro u hu
  rw [Program.ids_ofList, List.mem_map]
  obtain ⟨j, hj, hu⟩ := List.mem_flatMap.mp hu
  rw [Program.instructions_ofList, List.mem_append] at hj
  rcases hj with hj | hj
  · obtain ⟨r, hr, rfl⟩ := List.mem_map.mp hj
    obtain ⟨t, ht, rfl⟩ := List.mem_map.mp hu
    unfold imageOf
    cases hplace : placeIn body rows t with
    | some k =>
      have hk := lt_length_of_placeIn hplace
      exact ⟨k, by simp; omega, rfl⟩
    | none =>
      -- the jump itself is an exit, so there is a marker for it to lead to
      obtain ⟨k, hk⟩ := List.getElem?_of_mem hr
      have hexit : ((⟨tag, k⟩, t) : Handle × Handle) ∈ exitsOf tag body rows :=
        mem_exitsOf_iff.mpr ⟨k, r, hk, rfl, ht, hplace⟩
      have hne : (exitsOf tag body rows).isEmpty = false :=
        List.isEmpty_eq_false_iff.mpr (List.ne_nil_of_mem hexit)
      exact ⟨rows.length, by simp [hne], rfl⟩
  · split at hj
    · cases hj
    · rw [List.mem_singleton.mp hj] at hu
      cases hu

/-- The loop of a stretch, with the variables that a walk has found. -/
def ofStretch (body : Program) (head backEdge : Handle) (s : Span) (tag : Nat)
    (modified : NameMap Expr) : Loop :=
  let (program, exits) := copyStretch tag body (stretch body s)
  { program := program.numberTargets.numberLocations 0, head, backEdge, modified, exits }

theorem map_snd_inner {s : Span} :
    (inner body s).map Prod.snd = body.between s.first s.last := by
  rw [inner, List.map_take, List.map_drop]
  rfl

theorem extract_eq {table : FunctionTable} {function : String} {head backEdge : Handle} {s : Span} :
    extract table function body head backEdge s tag =
      ((ModifiedWalk.start function).walkAll table ((inner body s).map Prod.snd)).map fun walk =>
        ofStretch body head backEdge s tag walk.modified := by
  have hupdate := Program.update_eq_ok_iff.mpr
    ⟨closed_copyStretch tag body (stretch body s), rfl⟩
  unfold extract ofStretch
  cases (ModifiedWalk.start function).walkAll table ((inner body s).map Prod.snd) with
  | error e => rfl
  | ok walk =>
    simp only [bind, Except.bind, hupdate]
    rfl

theorem extract_eq_ok_iff {table : FunctionTable} {function : String} {head backEdge : Handle}
    {s : Span} {l : Loop} : extract table function body head backEdge s tag = .ok l ↔
      ∃ walk, (ModifiedWalk.start function).walkAll table (body.between s.first s.last) = .ok walk ∧
        ofStretch body head backEdge s tag walk.modified = l := by
  rw [extract_eq, map_snd_inner]
  cases (ModifiedWalk.start function).walkAll table (body.between s.first s.last) <;>
    simp [Except.map]

theorem extract_eq_error_iff {table : FunctionTable} {function : String} {head backEdge : Handle}
    {s : Span} {e : ProgramError} : extract table function body head backEdge s tag = .error e ↔
      (ModifiedWalk.start function).walkAll table (body.between s.first s.last) = .error e := by
  rw [extract_eq, map_snd_inner]
  cases (ModifiedWalk.start function).walkAll table (body.between s.first s.last) <;>
    simp [Except.map]

end GotoCheck.Loop
