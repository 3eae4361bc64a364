import Mathlib.Data.List.Forall2
import GotoCheck.Proofs.Arena.Effects
import GotoCheck.Proofs.BackEdges
import GotoCheck.Proofs.NameMap
import GotoCheck.Proofs.TargetNumbers
import GotoCheck.Samples

/-! Numbers of whole tables. An update numbers all locations before it looks at any target, so they
count through the table, and tell back edges, even if it fails. The targets are then numbered in
name order, up to the first function with a jump that leads out of it. -/
namespace GotoCheck

namespace Program
variable {p : Program} {start k : Nat}

theorem locationNumbers_numberLocations :
    (p.numberLocations start).instructions.map Instruction.locationNumber =
      List.range' start p.size := by
  apply List.ext_getElem?
  intro k
  rw [List.getElem?_map, getElem?_instructions, getElem?_rows_numberLocations]
  by_cases hk : k < p.size
  · rw [List.getElem?_range' hk, List.getElem?_eq_getElem hk]
    simp
  · have hend : p.size ≤ k := Nat.le_of_not_lt hk
    rw [List.getElem?_eq_none hend, List.getElem?_eq_none (by rwa [List.length_range'])]
    rfl

theorem locationNumbers_numberTargets :
    p.numberTargets.instructions.map Instruction.locationNumber =
      p.instructions.map Instruction.locationNumber := by
  rw [instructions, List.map_map, instructions, List.map_map]
  exact map_rows_numberTargets fun _ _ _ => rfl

end Program

namespace FunctionTable
variable {t : FunctionTable} {name : String} {start : Nat}
variable {e e' : String × FunctionEntry} {es es' : List (String × FunctionEntry)}

/-- The names ascend and the bodies are well-formed. Every table has this from the start. -/
structure WellFormed (t : FunctionTable) : Prop where
  ordered : t.functions.Ordered
  bodies : ∀ name f, t.get? name = some f → f.body.WellFormed

theorem wellFormed_empty : empty.WellFormed where
  ordered := List.Pairwise.nil
  bodies := fun name f hf => by cases hf

theorem WellFormed.insert {f : FunctionEntry} (ht : t.WellFormed) (hf : f.body.WellFormed) :
    (t.insert name f).WellFormed where
  ordered := ht.ordered.insert
  bodies := by
    intro m g hg
    rw [get?, FunctionTable.insert, NameMap.get?_insert] at hg
    split at hg
    · cases hg
      exact hf
    · exact ht.bodies m g hg

/-- The table of some bodies, before it is numbered. -/
def ofBodies (bodies : List (String × Program)) : FunctionTable :=
  bodies.foldl (fun t b => t.insert b.1 { body := b.2 }) empty

theorem wellFormed_ofBodies {bodies : List (String × Program)}
    (hbodies : ∀ b ∈ bodies, b.2.WellFormed) : (ofBodies bodies).WellFormed := by
  have hfold : ∀ t : FunctionTable, t.WellFormed →
      (bodies.foldl (fun t b => t.insert b.1 { body := b.2 }) t).WellFormed := by
    induction bodies with
    | nil => exact fun t ht => ht
    | cons b rest ih =>
      obtain ⟨hb, hrest⟩ := List.forall_mem_cons.mp hbodies
      exact fun t ht => ih hrest _ (ht.insert hb)
  exact hfold empty wellFormed_empty

theorem update_ofBodies {bodies : List (String × Program)}
    (hok : (ofBodies bodies).update.2 = .ok ()) :
    (ofBodies bodies).update = (Samples.tableOf bodies, .ok ()) :=
  Prod.ext rfl hok

/-- The entry with other numbers in its body: its locations are numbered from some number on, and
its targets may be numbered too. -/
inductive Numbering (e : String × FunctionEntry) : String × FunctionEntry → Prop
  | locations (start : Nat) : Numbering e (e.1, { e.2 with body := e.2.body.numberLocations start })
  | targets (start : Nat) :
      Numbering e (e.1, { e.2 with body := (e.2.body.numberLocations start).numberTargets })

/-- All that an update leaves as it is. -/
structure SameCode (e e' : String × FunctionEntry) : Prop where
  name : e'.1 = e.1
  isAvailable : e'.2.isAvailable = e.2.isAvailable
  type : e'.2.type = e.2.type
  issued : e'.2.body.issued = e.2.body.issued
  code : Program.Renumbered (fun i => i.dropTargetNumber.dropLocationNumber) e.2.body e'.2.body

theorem Numbering.sameCode (h : Numbering e e') : SameCode e e' := by
  cases h with
  | locations start =>
    exact ⟨rfl, rfl, rfl, rfl, Program.renumbered_numberLocations fun _ _ => rfl⟩
  | targets start =>
    have hlocations : Program.Renumbered (fun i => i.dropTargetNumber.dropLocationNumber)
        e.2.body (e.2.body.numberLocations start) :=
      Program.renumbered_numberLocations fun _ _ => rfl
    exact ⟨rfl, rfl, rfl, rfl, hlocations.trans (Program.renumbered_numberTargets fun _ _ => rfl)⟩

theorem Numbering.located (h : Numbering e e') (he : e.2.body.WellFormed) : e'.2.body.Located := by
  cases h with
  | locations start =>
    exact ⟨he.numberLocations, start,
      fun k i hi => Program.locationNumber_of_numberLocations hi⟩
  | targets start =>
    exact ⟨he.numberLocations.numberTargets, start,
      fun k i hi => Program.locationNumber_of_numbered hi⟩

theorem Numbering.closed_iff (h : Numbering e e') : e'.2.body.Closed ↔ e.2.body.Closed := by
  unfold Program.Closed
  cases h with
  | locations start => rw [Program.targets_numberLocations, Program.ids_numberLocations]
  | targets start =>
    rw [Program.targets_numberTargets, Program.ids_numberTargets, Program.targets_numberLocations,
      Program.ids_numberLocations]

section Passes

/-- The pass over the locations. -/
def numberedFrom (start : Nat) (es : List (String × FunctionEntry)) :
    List (String × FunctionEntry) :=
  countThrough (fun p start => (p.numberLocations start, p.size)) start es

theorem numberedFrom_cons (start : Nat) (e : String × FunctionEntry)
    (rest : List (String × FunctionEntry)) : numberedFrom start (e :: rest) =
      (e.1, { e.2 with body := e.2.body.numberLocations start }) ::
        numberedFrom (start + e.2.body.size) rest := rfl

theorem numbering_numberedFrom : List.Forall₂ Numbering es (numberedFrom start es) := by
  induction es generalizing start with
  | nil => exact List.Forall₂.nil
  | cons e rest ih =>
    rw [numberedFrom_cons]
    exact ih.cons (Numbering.locations start)

theorem numberEntryTargets_cons (e : String × FunctionEntry)
    (rest : List (String × FunctionEntry)) :
    numberEntryTargets (e :: rest) =
      match e.2.body.computeTargetNumbers.2 with
      | .error x => ((e.1, { e.2 with body := e.2.body.numberTargets }) :: rest, .error x)
      | .ok () =>
        ((e.1, { e.2 with body := e.2.body.numberTargets }) :: (numberEntryTargets rest).1,
          (numberEntryTargets rest).2) := by
  have hbody := Program.computeTargetNumbers_fst (p := e.2.body)
  rw [numberEntryTargets]
  cases hr : e.2.body.computeTargetNumbers with
  | mk body outcome =>
    rw [hr] at hbody
    subst hbody
    cases outcome <;> rfl

/-- The pass over the targets, if it comes after that over the locations. -/
theorem numbering_numberEntryTargets :
    List.Forall₂ Numbering es (numberEntryTargets (numberedFrom start es)).1 := by
  induction es generalizing start with
  | nil => exact List.Forall₂.nil
  | cons e rest ih =>
    rw [numberedFrom_cons, numberEntryTargets_cons]
    split
    · exact numbering_numberedFrom.cons (Numbering.targets start)
    · exact ih.cons (Numbering.targets start)

/-- The location numbers of the bodies, one body after the other. -/
def locationNumbersOf (es : List (String × FunctionEntry)) : List Nat :=
  es.flatMap fun e => e.2.body.instructions.map Instruction.locationNumber

theorem locationNumbersOf_numberedFrom : ∃ n,
    locationNumbersOf (numberedFrom start es) = List.range' start n := by
  induction es generalizing start with
  | nil => exact ⟨0, rfl⟩
  | cons e rest ih =>
    obtain ⟨n, hn⟩ := @ih (start + e.2.body.size)
    refine ⟨e.2.body.size + n, ?_⟩
    rw [numberedFrom_cons, locationNumbersOf, List.flatMap_cons,
      Program.locationNumbers_numberLocations, ← List.range'_append_1, ← hn]
    rfl

theorem locationNumbersOf_numberEntryTargets :
    locationNumbersOf (numberEntryTargets es).1 = locationNumbersOf es := by
  induction es with
  | nil => rfl
  | cons e rest ih =>
    have hhead := Program.locationNumbers_numberTargets (p := e.2.body)
    rw [numberEntryTargets_cons]
    unfold locationNumbersOf at ih ⊢
    split
    · rw [List.flatMap_cons, List.flatMap_cons, hhead]
    · rw [List.flatMap_cons, List.flatMap_cons, hhead, ih]

/-- The first jump that leads out of the body it stands in. -/
def firstStray? (es : List (String × FunctionEntry)) : Option (Handle × Handle) :=
  es.findSome? fun e => e.2.body.firstStray?

theorem firstStray?_numberedFrom : firstStray? (numberedFrom start es) = firstStray? es := by
  induction es generalizing start with
  | nil => rfl
  | cons e rest ih =>
    unfold firstStray? at ih ⊢
    rw [numberedFrom_cons, List.findSome?_cons, List.findSome?_cons, ih,
      Program.firstStray?_numberLocations]

theorem numberEntryTargets_snd :
    (numberEntryTargets es).2 = Program.outcomeOf (firstStray? es) := by
  induction es with
  | nil => rfl
  | cons e rest ih =>
    rw [numberEntryTargets_cons, firstStray?, List.findSome?_cons, Program.computeTargetNumbers_snd]
    cases e.2.body.firstStray? with
    | none => exact ih
    | some jump => rfl

/-- As long as no function before it fails, a function gets current target numbers. -/
theorem targetsNumbered_numberEntryTargets (hordered : (es.map Prod.fst).Pairwise (· < ·))
    (he : e ∈ (numberEntryTargets es).1) (hclosed : ∀ b ∈ es, b.1 < e.1 → b.2.body.Closed) :
    e.2.body.TargetsNumbered := by
  induction es with
  | nil => cases he
  | cons b rest ih =>
    obtain ⟨hlt, hrest⟩ := List.pairwise_cons.mp hordered
    rw [numberEntryTargets_cons] at he
    split at he
    · rename_i x hfail
      rcases List.mem_cons.mp he with rfl | he
      · exact Program.targetsNumbered_numberTargets b.2.body
      · -- what comes after a failure comes after a function that is not closed
        have hb := hclosed b List.mem_cons_self (hlt e.1 (List.mem_map_of_mem he))
        rw [Program.computeTargetNumbers_snd_eq_ok_iff.mpr hb] at hfail
        cases hfail
    · rcases List.mem_cons.mp he with rfl | he
      · exact Program.targetsNumbered_numberTargets b.2.body
      · exact ih hrest he fun c hc => hclosed c (List.mem_cons_of_mem b hc)

end Passes

section Update

/-- The location numbers in the order of the names and, for each name, in program order. -/
def locationNumbers (t : FunctionTable) : List Nat := locationNumbersOf t.functions.entries

/-- No jump of a function with a smaller name leads out of that function. -/
def ClosedBefore (t : FunctionTable) (name : String) : Prop :=
  ∀ m f, m < name → t.get? m = some f → f.body.Closed

/-- What an update makes of a table, whatever the outcome. -/
structure Updated (t t' : FunctionTable) (outcome : Except ProgramError Unit) : Prop where
  ordered : t'.functions.Ordered
  locations : t'.locationNumbers = List.range t'.locationNumbers.length
  backEdges : ∀ name f k h, t'.get? name = some f → f.body.ids[k]? = some h →
    (f.body.isBackwardsGoto h ↔ f.body.IsBackEdge k)
  ok_iff : outcome = .ok () ↔ ∀ name f, t.get? name = some f → f.body.Closed
  error_iff : ∀ x, outcome = .error x ↔ ∃ name f h u, t.get? name = some f ∧
    t.ClosedBefore name ∧ f.body.FirstStray h u ∧ x = .unnumberedTarget h u
  targets : ∀ name f, t'.get? name = some f → t.ClosedBefore name → f.body.TargetsNumbered
  sameCode : List.Forall₂ SameCode t.functions.entries t'.functions.entries

theorem firstStray?_eq_none_iff (ht : t.functions.Ordered) :
    firstStray? t.functions.entries = none ↔ ∀ name f, t.get? name = some f → f.body.Closed := by
  unfold firstStray?
  simp only [List.findSome?_eq_none_iff, Program.firstStray?_eq_none_iff]
  constructor
  · exact fun h name f hf => h (name, f) (NameMap.mem_of_get? hf)
  · exact fun h e he => h e.1 e.2 (ht.get?_eq_some_iff.mpr he)

theorem firstStray?_eq_some_iff (ht : t.functions.Ordered) {h u : Handle} :
    firstStray? t.functions.entries = some (h, u) ↔ ∃ name f, t.get? name = some f ∧
      t.ClosedBefore name ∧ f.body.FirstStray h u := by
  constructor
  · intro hfirst
    obtain ⟨before, e, after, hentries, he, hbefore⟩ := List.findSome?_eq_some_iff.mp hfirst
    have hmem : e ∈ t.functions.entries := by simp [hentries]
    refine ⟨e.1, e.2, ht.get?_eq_some_iff.mpr hmem, ?_, Program.firstStray?_eq_some_iff.mp he⟩
    intro m f hlt hf
    -- the smaller name stands before `e`
    have hmem := NameMap.mem_of_get? hf
    rw [hentries] at hmem
    rcases List.mem_append.mp hmem with hmem | hmem
    · exact Program.firstStray?_eq_none_iff.mp (hbefore _ hmem)
    · rcases List.mem_cons.mp hmem with rfl | hmem
      · exact absurd hlt (String.lt_irrefl m)
      · exact absurd hlt (String.lt_asymm ((ht.split hentries).2 _ hmem))
  · rintro ⟨name, f, hf, hclosed, hstray⟩
    obtain ⟨before, after, hentries⟩ := List.append_of_mem (NameMap.mem_of_get? hf)
    refine List.findSome?_eq_some_iff.mpr ⟨before, (name, f), after, hentries,
      Program.firstStray?_eq_some_iff.mpr hstray, fun b hb => ?_⟩
    have hmem : b ∈ t.functions.entries := by simp [hentries, hb]
    exact Program.firstStray?_eq_none_iff.mpr
      (hclosed b.1 b.2 ((ht.split hentries).1 b hb) (ht.get?_eq_some_iff.mpr hmem))

theorem names_of_numbering (h : List.Forall₂ Numbering es es') :
    es'.map Prod.fst = es.map Prod.fst := by
  induction h with
  | nil => rfl
  | cons he _ ih => rw [List.map_cons, List.map_cons, ih, he.sameCode.name]

theorem exists_of_mem_numbering (h : List.Forall₂ Numbering es es') (he' : e' ∈ es') :
    ∃ e ∈ es, Numbering e e' := by
  induction h with
  | nil => cases he'
  | @cons d d' rest rest' hd _ ih =>
    rcases List.mem_cons.mp he' with rfl | he'
    · exact ⟨d, List.mem_cons_self, hd⟩
    · obtain ⟨e, he, hnumbering⟩ := ih he'
      exact ⟨e, List.mem_cons_of_mem d he, hnumbering⟩

theorem numbering_update (t : FunctionTable) :
    List.Forall₂ Numbering t.functions.entries t.update.1.functions.entries :=
  numbering_numberEntryTargets

theorem update_snd (t : FunctionTable) :
    t.update.2 = Program.outcomeOf (firstStray? t.functions.entries) := by
  rw [← firstStray?_numberedFrom]
  exact numberEntryTargets_snd

theorem locationNumbers_update (t : FunctionTable) :
    ∃ n, t.update.1.locationNumbers = List.range n := by
  obtain ⟨n, hn⟩ := @locationNumbersOf_numberedFrom 0 t.functions.entries
  refine ⟨n, ?_⟩
  rw [List.range_eq_range', ← hn]
  exact locationNumbersOf_numberEntryTargets

theorem ordered_update (ht : t.WellFormed) : t.update.1.functions.Ordered := by
  have hnames := names_of_numbering (numbering_update t)
  unfold NameMap.Ordered NameMap.names
  rw [hnames]
  exact ht.ordered

theorem located_of_update {f : FunctionEntry} (ht : t.WellFormed)
    (hf : t.update.1.get? name = some f) : f.body.Located := by
  obtain ⟨e, he, hnumbering⟩ :=
    exists_of_mem_numbering (numbering_update t) (NameMap.mem_of_get? hf)
  exact hnumbering.located (ht.bodies e.1 e.2 (ht.ordered.get?_eq_some_iff.mpr he))

/-- Updates can follow one another. -/
theorem WellFormed.update (ht : t.WellFormed) : t.update.1.WellFormed where
  ordered := ordered_update ht
  bodies := fun _ _ hf => (located_of_update ht hf).wellFormed

/-- An update numbers the locations of the whole table from zero on, so that location numbers tell
back edges, even if it fails. It fails with the first jump out of a function, in the order of the
names, and only the functions after that one keep their old target numbers. -/
theorem update_exact (ht : t.WellFormed) : t.Updated t.update.1 t.update.2 where
  ordered := ordered_update ht
  locations := by
    obtain ⟨n, hn⟩ := locationNumbers_update t
    rw [hn, List.length_range]
  backEdges := by
    intro name f k h hf hk
    obtain ⟨i, hi⟩ := Program.exists_instruction hk
    exact (located_of_update ht hf).isBackwardsGoto_iff hk hi
  ok_iff := by
    rw [update_snd, Program.outcomeOf_eq_ok_iff, firstStray?_eq_none_iff ht.ordered]
  error_iff := by
    intro x
    rw [update_snd, Program.outcomeOf_eq_error_iff]
    simp only [firstStray?_eq_some_iff ht.ordered]
    constructor
    · rintro ⟨h, u, ⟨name, f, hf, hclosed, hstray⟩, hx⟩
      exact ⟨name, f, h, u, hf, hclosed, hstray, hx⟩
    · rintro ⟨name, f, h, u, hf, hclosed, hstray, hx⟩
      exact ⟨h, u, ⟨name, f, hf, hclosed, hstray⟩, hx⟩
  targets := by
    intro name f hf hclosed
    have hnumbered := @numbering_numberedFrom 0 t.functions.entries
    have hordered : ((numberedFrom 0 t.functions.entries).map Prod.fst).Pairwise (· < ·) := by
      rw [names_of_numbering hnumbered]
      exact ht.ordered
    refine targetsNumbered_numberEntryTargets hordered (NameMap.mem_of_get? hf) fun b hb hlt => ?_
    obtain ⟨e, he, hnumbering⟩ := exists_of_mem_numbering hnumbered hb
    rw [hnumbering.sameCode.name] at hlt
    exact hnumbering.closed_iff.mpr (hclosed e.1 e.2 hlt (ht.ordered.get?_eq_some_iff.mpr he))
  sameCode := (numbering_update t).imp fun _ _ h => h.sameCode

/-- A jump into the loop of another function. -/
def jumpBetween : Program := .ofList 2 [.goto (.ofBool true) ⟨1, 1⟩, .endFunction]

/-- Between two loops, the function that jumps into the first. -/
def tableWithJumpBetween : FunctionTable :=
  let first := empty.insert "c::f" { body := Samples.counterLoop 1 "c::g" }
  let second := first.insert "c::g" { body := jumpBetween }
  second.insert "c::h" { body := Samples.counterLoop 3 "c::g" }

/-- The update fails in the second function. The third has its location numbers then, which tell its
back edge, but no target numbers. -/
theorem numbers_of_tableWithJumpBetween :
    let t := tableWithJumpBetween
    t.WellFormed ∧ t.Updated t.update.1 t.update.2 ∧
    t.update.1.locationNumbers = List.range 16 ∧
    t.update.2 = .error (.unnumberedTarget ⟨2, 0⟩ ⟨1, 1⟩) ∧
    (t.update.1.get? "c::h").map (fun f =>
      (f.body.instructions.countP Instruction.isTarget, f.body.backwardsGotos)) =
        some (0, [⟨3, 4⟩]) := by
  have hwf : tableWithJumpBetween.WellFormed :=
    ((wellFormed_empty.insert Program.wellFormed_ofList).insert Program.wellFormed_ofList).insert
      Program.wellFormed_ofList
  exact ⟨hwf, update_exact hwf, by decide +kernel, by rfl, by decide +kernel⟩

end Update

end FunctionTable
end GotoCheck
