import GotoCheck.Proofs.General
import GotoCheck.Proofs.RecordText
import GotoCheck.Proofs.Witness.Shape

/-! Bare changes of place among the records read back. A record counts as one when it has no
identifier, and neither has the record of an assignment to anything but a symbol. -/
namespace GotoCheck

namespace Step
variable (previous : Location) (s : Step)

/-- One of the left-hand sides is a symbol, the one of the source if that is a symbol at all. -/
def NamesSymbol : Prop :=
  ∃ name type, name ≠ "" ∧ (s.sourceLhs = some (.symbol name type) ∨
    (∀ other type', s.sourceLhs ≠ some (.symbol other type')) ∧ s.lhs = some (.symbol name type))

/-- The step is shown for its place alone. -/
def Moves : Prop :=
  ¬(s.kind = .assert ∧ s.guard = false) ∧ s.kind ≠ .assignment ∧
    s.instruction.location ≠ previous ∧ s.instruction.location.file ≠ ""

/-- The step is shown. -/
def Writes : Prop :=
  (s.kind = .assert ∧ s.guard = false) ∨ s.kind = .assignment ∨ s.Moves previous

instance : Decidable (s.Moves previous) := inferInstanceAs (Decidable (_ ∧ _))

instance : Decidable (s.Writes previous) := inferInstanceAs (Decidable (_ ∨ _))

end Step

namespace Trace

/-- Steps with the place of the step before each. -/
def placedFrom (previous : Location) : List Step → List (Location × Step)
  | [] => []
  | s :: rest => (previous, s) :: placedFrom s.instruction.location rest

/-- The steps that show, each with the place of the step before it. -/
def writers (t : Trace) : List (Location × Step) :=
  (placedFrom {} t.steps).filter fun p => p.2.Writes p.1

/-- No text of the trace breaks its line, and no comma moves the parts of a header. -/
def Unbroken (t : Trace) (names : SymbolTable) : Prop :=
  ∀ records, Shown names {} t.steps records → ∀ r ∈ records, r.Unbroken

end Trace

section Shown
variable {names : SymbolTable} {previous : Location} {s : Step} {r : TraceRecord}

theorem Step.bind_symbolName?_eq_some {e : Option Expr} {name : String} :
    e.bind Expr.symbolName? = some name ↔ ∃ type, e = some (.symbol name type) := by
  cases e with
  | none => simp
  | some e => simp [Expr.symbolName?_eq_some]

theorem Step.identifier?_eq_some {name : String} :
    s.identifier? = some name ↔ ∃ type, s.sourceLhs = some (.symbol name type) ∨
      (∀ other type', s.sourceLhs ≠ some (.symbol other type')) ∧
        s.lhs = some (.symbol name type) := by
  have hnone : s.sourceLhs.bind Expr.symbolName? = none ↔
      ∀ other type', s.sourceLhs ≠ some (.symbol other type') := by
    rw [Option.eq_none_iff_forall_ne_some]
    simp only [ne_eq, bind_symbolName?_eq_some, not_exists]
  rw [identifier?, Option.or_eq_some_iff, hnone, bind_symbolName?_eq_some,
    bind_symbolName?_eq_some, ← exists_and_left, ← exists_or]

theorem Step.namesSymbol_iff : s.NamesSymbol ↔ s.identifier?.getD "" ≠ "" := by
  have hnames : s.NamesSymbol ↔ ∃ name, name ≠ "" ∧ s.identifier? = some name := by
    simp only [NamesSymbol, identifier?_eq_some, exists_and_left]
  rw [hnames]
  cases s.identifier? with
  | none => simp
  | some name => simp

theorem Step.Shows.writes (h : s.Shows names previous r) : s.Writes previous := by
  cases h with
  | failure hkind hguard => exact .inl ⟨hkind, hguard⟩
  | assignment hkind => exact .inr (.inl hkind)
  | move hholds hkind hmoved hfile => exact .inr (.inr ⟨hholds, hkind, hmoved, hfile⟩)

theorem Step.Writes.exists_shows (h : s.Writes previous) (names : SymbolTable) :
    ∃ r, s.Shows names previous r := by
  rcases h with ⟨hkind, hguard⟩ | hkind | ⟨hholds, hkind, hmoved, hfile⟩
  · exact ⟨_, .failure hkind hguard⟩
  · exact ⟨_, .assignment hkind rfl⟩
  · exact ⟨_, .move hholds hkind hmoved hfile⟩

/-- Records without an identifier come from moves, and from assignments to what is no symbol. -/
theorem Step.Shows.isLocationOnly_trimmed (h : s.Shows names previous r) :
    r.trimmed.isLocationOnly ↔ s.Moves previous ∨ s.kind = .assignment ∧ ¬s.NamesSymbol := by
  cases h with
  | failure hkind hguard =>
    have hmoves : ¬s.Moves previous := fun h => h.1 ⟨hkind, hguard⟩
    simp [TraceRecord.trimmed, TraceRecord.isLocationOnly, hmoves, hkind]
  | assignment hkind hid =>
    have hmoves : ¬s.Moves previous := fun h => h.2.1 hkind
    simp [TraceRecord.trimmed, TraceRecord.isLocationOnly, hmoves, hkind, namesSymbol_iff, hid]
  | move hholds hkind hmoved hfile =>
    have hmoves : s.Moves previous := ⟨hholds, hkind, hmoved, hfile⟩
    simp [TraceRecord.trimmed, TraceRecord.isLocationOnly, hmoves]

theorem Shown.writers {steps : List Step} {rs : List TraceRecord}
    (h : Shown names previous steps rs) :
    List.Forall₂ (fun p r => p.2.Shows names p.1 r)
      ((Trace.placedFrom previous steps).filter fun p => p.2.Writes p.1) rs := by
  induction h with
  | nil => exact .nil
  | shows hshows _ ih =>
    rw [Trace.placedFrom, List.filter_cons_of_pos (by simpa using hshows.writes)]
    exact .cons hshows ih
  | silent hsilent _ ih =>
    have hwrites : ¬Step.Writes _ _ := fun h => (h.exists_shows names).elim hsilent
    rw [Trace.placedFrom, List.filter_cons_of_neg (by simpa using hwrites)]
    exact ih

theorem map_snd_placedFrom {steps : List Step} :
    (Trace.placedFrom previous steps).map Prod.snd = steps := by
  induction steps generalizing previous with
  | nil => rfl
  | cons s rest ih => rw [Trace.placedFrom, List.map_cons, ih]

end Shown

namespace Trace
variable {names : SymbolTable} {t : Trace}

theorem exists_mem_writers_iff {s : Step} (hkind : s.kind = .assignment) :
    (∃ previous, (previous, s) ∈ t.writers) ↔ s ∈ t.steps := by
  have hwrites (previous : Location) : s.Writes previous := .inr (.inl hkind)
  calc (∃ previous, (previous, s) ∈ t.writers) ↔
        ∃ previous, (previous, s) ∈ placedFrom {} t.steps := by simp [writers, hwrites]
    _ ↔ s ∈ (placedFrom {} t.steps).map Prod.snd := by simp
    _ ↔ s ∈ t.steps := by rw [map_snd_placedFrom]

/-- What is read of a trace are the records of the steps that show, one each, but for carriage
returns at their line ends. Those without an identifier are the moves exactly when every assignment
names a symbol. -/
theorem isLocationOnly_iff_moves (hwords : ∀ s ∈ t.steps, s.InWords)
    (hunbroken : t.Unbroken names) :
    ∃ records, TraceRecord.parse (t.recordText names) = .ok records ∧
      List.Forall₂ (fun p r => (∃ q, p.2.Shows names p.1 q ∧ q.trimmed = r) ∧
        (r.isLocationOnly ↔ p.2.Moves p.1 ∨ p.2.kind = .assignment ∧ ¬p.2.NamesSymbol))
        t.writers records ∧
      (List.Forall₂ (fun p r => r.isLocationOnly ↔ p.2.Moves p.1) t.writers records ↔
        ∀ s ∈ t.steps, s.kind = .assignment → s.NamesSymbol) := by
  have hshown : Shown names {} t.steps (t.records names) := shown_iff.mpr rfl
  have hplaces : List.Forall₂ (fun p r => (∃ q, p.2.Shows names p.1 q ∧ q.trimmed = r) ∧
      (TraceRecord.isLocationOnly r ↔
        p.2.Moves p.1 ∨ p.2.kind = .assignment ∧ ¬p.2.NamesSymbol)) t.writers
      ((t.records names).map TraceRecord.trimmed) := by
    rw [List.forall₂_map_right_iff]
    exact hshown.writers.imp fun p r h => ⟨⟨r, h, rfl⟩, h.isLocationOnly_trimmed⟩
  refine ⟨_, TraceRecord.parse_text_trimmed (hunbroken _ hshown) (hshown.wellTyped hwords),
    hplaces, ?_⟩
  rw [List.forall₂_iff_of_or (hplaces.imp fun p r h => h.2)]
  constructor
  · intro h s hs hkind
    obtain ⟨previous, hp⟩ := (exists_mem_writers_iff hkind).mpr hs
    by_contra hnames
    exact (h (previous, s) hp ⟨hkind, hnames⟩).2.1 hkind
  · rintro h ⟨previous, s⟩ hp ⟨hkind, hnames⟩
    exact absurd (h s ((exists_mem_writers_iff hkind).mp ⟨previous, hp⟩) hkind) hnames

/-- An element of an array is written under the name of a symbol, then the place changes, then an
assertion fails whose message ends in a carriage return. -/
def namedElement : Trace :=
  let place (line : Nat) : Instruction := { location := { file := "main.c", line } }
  let element : Expr := .index (Samples.intVariable "c::y") (Samples.intConstant 0) .int
  ⟨[{ Step.assignment (place 3) 1 (Samples.intVariable "c::y") (Samples.intConstant 5) with
        sourceLhs := some element },
    .ofKind .skip (place 4) 1,
    { Step.assertion (place 4) 2 false with comment := "y\r" }]⟩

theorem moves_of_namedElement :
    (∀ s ∈ namedElement.steps, s.InWords) ∧ namedElement.Unbroken Samples.symbols ∧
      ∃ records, TraceRecord.parse (namedElement.recordText Samples.symbols) = .ok records ∧
        List.Forall₂ (fun p r => r.isLocationOnly ↔ p.2.Moves p.1)
          namedElement.writers records := by
  have hwords : ∀ s ∈ namedElement.steps, s.InWords := by decide +kernel
  have hunbroken : namedElement.Unbroken Samples.symbols := by
    intro records hshown
    rw [shown_iff.mp hshown]
    decide +kernel
  have hnames : ∀ s ∈ namedElement.steps, s.kind = .assignment → s.NamesSymbol := by
    simp only [Step.namesSymbol_iff]
    decide +kernel
  obtain ⟨records, hparse, -, hmoves⟩ := isLocationOnly_iff_moves hwords hunbroken
  exact ⟨hwords, hunbroken, records, hparse, hmoves.mpr hnames⟩

/-- An assignment to an array element, which has no other name. -/
def elementWrite : Trace :=
  ⟨[.assignment { location := { file := "main.c", line := 3 } } 1
    (.index (Samples.intVariable "c::y") (Samples.intConstant 0) .int) (Samples.intConstant 5)]⟩

/-- The only step is an assignment, and it is taken for a change of place. -/
theorem not_moves_of_elementWrite :
    (∀ s ∈ elementWrite.steps, s.InWords ∧ s.kind = .assignment) ∧
      elementWrite.Unbroken Samples.symbols ∧
      ∃ r, TraceRecord.parse (elementWrite.recordText Samples.symbols) = .ok [r] ∧
        r.isLocationOnly := by
  have hrecords : elementWrite.records Samples.symbols =
      [.trace "" "" "signedbv" "5" 1 "main.c" 3 0] := by decide +kernel
  have hunbroken : elementWrite.Unbroken Samples.symbols := by
    intro records hshown
    rw [shown_iff.mp hshown]
    decide +kernel
  have hshown : Shown Samples.symbols {} elementWrite.steps
      (elementWrite.records Samples.symbols) :=
    shown_iff.mpr rfl
  have hwords : ∀ s ∈ elementWrite.steps, s.InWords ∧ s.kind = .assignment := by decide +kernel
  refine ⟨hwords, hunbroken, .trace "" "" "signedbv" "5" 1 "main.c" 3 0, ?_, rfl⟩
  have hparse := TraceRecord.parse_text_trimmed (hunbroken _ hshown)
    (hshown.wellTyped fun s hs => (hwords s hs).1)
  rw [hrecords] at hparse
  rw [recordText, hrecords, hparse]
  decide +kernel

end Trace
end GotoCheck
