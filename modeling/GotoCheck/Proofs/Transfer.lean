import GotoCheck.Program.Copy
import GotoCheck.Proofs.Numbering

/-! Leading jumps over to other handles. It succeeds if every jump has somewhere to go, and
otherwise it stops at the first that has not, in program order and then in the order of the
targets. -/
namespace GotoCheck

/-- Where a jump to `t` leads once it is led over; without an image it stays. -/
def leadOver (image : Handle → Option Handle) (t : Handle) : Handle := (image t).getD t

/-- The image of one target. -/
def resolve (image : Handle → Option Handle) (t : Handle) : Except ProgramError Handle :=
  match image t with
  | some u => .ok u
  | none => .error (.danglingTarget t)

section Resolve
variable {image : Handle → Option Handle} {ts : List Handle} {t : Handle}

theorem isSome_of_find?_eq_none (h : ts.find? (fun t => (image t).isNone) = none) :
    ∀ t ∈ ts, (image t).isSome := by
  intro t ht
  have hsome := List.find?_eq_none.mp h t ht
  rwa [Option.isNone_iff_eq_none, ← Ne, Option.ne_none_iff_isSome] at hsome

theorem mapM_resolve_of_isSome (h : ∀ t ∈ ts, (image t).isSome) :
    ts.mapM (resolve image) = .ok (ts.map (leadOver image)) := by
  induction ts with
  | nil => rfl
  | cons t ts ih =>
    obtain ⟨u, hu⟩ := Option.isSome_iff_exists.mp (h t List.mem_cons_self)
    have hhead : resolve image t = .ok (leadOver image t) := by
      rw [resolve, leadOver, hu]
      rfl
    rw [List.mapM_cons, hhead, ih fun v hv => h v (List.mem_cons_of_mem t hv)]
    rfl

theorem mapM_resolve_of_find? (h : ts.find? (fun t => (image t).isNone) = some t) :
    ts.mapM (resolve image) = .error (.danglingTarget t) := by
  induction ts with
  | nil => cases h
  | cons u ts ih =>
    rw [List.mapM_cons, resolve]
    cases hu : image u with
    | none =>
      -- the first target without an image is this one
      rw [List.find?_cons_of_pos (by rw [hu]; rfl)] at h
      cases h
      rfl
    | some v =>
      rw [List.find?_cons_of_neg (by rw [hu]; simp)] at h
      rw [ih h]
      rfl

end Resolve

namespace Instruction
variable {image : Handle → Option Handle} {i : Instruction} {t : Handle}

theorem retarget_eq : i.retarget image =
    (i.targets.mapM (resolve image)).map fun targets => { i with targets } := rfl

theorem retarget_of_isSome (h : ∀ t ∈ i.targets, (image t).isSome) :
    i.retarget image = .ok { i with targets := i.targets.map (leadOver image) } := by
  rw [retarget_eq, mapM_resolve_of_isSome h]
  rfl

theorem retarget_of_find? (h : i.targets.find? (fun t => (image t).isNone) = some t) :
    i.retarget image = .error (.danglingTarget t) := by
  rw [retarget_eq, mapM_resolve_of_find? h]
  rfl

end Instruction

namespace Program
variable {p q : Program} {image : Handle → Option Handle} {rows : List (Nat × Instruction)}
variable {t : Handle} {tag issued k : Nat}

theorem retargetRows_of_isSome (h : ∀ r ∈ rows, ∀ t ∈ r.2.targets, (image t).isSome) :
    retargetRows image rows = (rows.map fun r =>
      (r.1, { r.2 with targets := r.2.targets.map (leadOver image) }), .ok ()) := by
  induction rows with
  | nil => rfl
  | cons r rest ih =>
    obtain ⟨slot, i⟩ := r
    have hrest := ih fun r hr => h r (List.mem_cons_of_mem _ hr)
    have hi := Instruction.retarget_of_isSome (h (slot, i) List.mem_cons_self)
    rw [retargetRows, hi, hrest]
    rfl

theorem retargetRows_of_find?
    (h : (rows.flatMap fun r => r.2.targets).find? (fun t => (image t).isNone) = some t) :
    (retargetRows image rows).2 = .error (.danglingTarget t) := by
  induction rows with
  | nil => cases h
  | cons r rest ih =>
    obtain ⟨slot, i⟩ := r
    rw [List.flatMap_cons, List.find?_append] at h
    rw [retargetRows]
    cases hfind : i.targets.find? fun t => (image t).isNone with
    | some u =>
      -- the row itself is at fault, and its first fault is the one that is looked for
      rw [hfind, Option.some_or] at h
      cases h
      rw [Instruction.retarget_of_find? hfind]
    | none =>
      rw [hfind, Option.none_or] at h
      rw [Instruction.retarget_of_isSome (isSome_of_find?_eq_none hfind)]
      exact ih h

/-- The first jump that leads out of the program. -/
def stray? (p : Program) : Option Handle := p.targets.find? fun t => !p.contains t

theorem stray?_eq_none_iff : p.stray? = none ↔ p.Closed := by
  unfold stray? Closed
  rw [List.find?_eq_none]
  constructor
  · intro h t ht
    exact contains_iff.mp (by simpa using h t ht)
  · intro h t ht
    simpa using contains_iff.mpr (h ht)

/-- Where jumps to the instructions of `q` lead when these get the slots from `issued` on. -/
def moved (q : Program) (tag issued : Nat) (t : Handle) : Option Handle :=
  (q.position? t).map fun k => ⟨tag, issued + k⟩

theorem isNone_moved : (q.moved tag issued t).isNone = !q.contains t := by
  have hsame : (q.position? t).isSome = q.contains t := by
    rw [Bool.eq_iff_iff, position?_isSome_iff, contains_iff]
  rw [moved, Option.isNone_map, ← hsame]
  cases q.position? t <;> rfl

theorem leadOver_moved (hk : q.position? t = some k) :
    leadOver (q.moved tag issued) t = ⟨tag, issued + k⟩ := by
  rw [leadOver, moved, hk]
  rfl

/-- The instructions of `q` with their jumps led over to such slots. -/
def movedCode (q : Program) (tag issued : Nat) : List Instruction :=
  q.instructions.map fun i => { i with targets := i.targets.map (leadOver (q.moved tag issued)) }

theorem transferRows_of_closed (hq : q.Closed) : q.transferRows tag issued =
    (((q.movedCode tag issued).zipIdx issued).map fun r => (r.2, r.1), .ok ()) := by
  have hall : ∀ r ∈ (q.instructions.zipIdx issued).map fun r => (r.2, r.1),
      ∀ t ∈ r.2.targets, (q.moved tag issued t).isSome := by
    intro r hr t ht
    obtain ⟨u, hu, rfl⟩ := List.mem_map.mp hr
    have htargets : t ∈ q.targets :=
      List.mem_flatMap.mpr ⟨u.1, List.fst_mem_of_mem_zipIdx hu, ht⟩
    have hnone : (q.moved tag issued t).isNone = false := by
      rw [isNone_moved, contains_iff.mpr (hq htargets)]
      rfl
    simpa using hnone
  unfold transferRows
  change retargetRows (q.moved tag issued) _ = _
  rw [retargetRows_of_isSome hall, movedCode, List.zipIdx_map, List.map_map, List.map_map]
  rfl

theorem transferRows_of_stray (ht : q.stray? = some t) :
    (q.transferRows tag issued).2 = .error (.danglingTarget t) := by
  have htargets : ((q.instructions.zipIdx issued).map fun r => (r.2, r.1)).flatMap
      (fun r => r.2.targets) = q.targets := by
    have hcode : (q.instructions.zipIdx issued).map Prod.fst = q.instructions :=
      List.zipIdx_map_fst issued _
    calc ((q.instructions.zipIdx issued).map fun r => (r.2, r.1)).flatMap (fun r => r.2.targets)
        = ((q.instructions.zipIdx issued).map Prod.fst).flatMap Instruction.targets := by
          rw [List.flatMap_map, List.flatMap_map]
      _ = q.targets := by rw [hcode]; rfl
  apply retargetRows_of_find?
  rw [htargets, ← ht, stray?]
  apply congrArg (q.targets.find? ·)
  funext u
  exact isNone_moved

end Program
end GotoCheck
