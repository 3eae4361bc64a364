import GotoCheck.Proofs.NameMap
import GotoCheck.Witness.Generator

/-! Source files are read once each. As long as the files stay what they are, nothing in a witness
tells whether its generator has read them before. -/
namespace GotoCheck

namespace SourceCache
variable {c : SourceCache} {d : Directory}

/-- What is remembered of a file is what reading it again would give. -/
def Faithful (c : SourceCache) (d : Directory) : Prop :=
  ∀ file found, c.files.get? file = some found → found = (d.read? file).map Source.linesOfBytes

/-- The tokens at a place, from the file itself. -/
def readTokens (d : Directory) (place : Location) : List (Nat × String) :=
  if place.line = 0 ∨ place.file.isEmpty then []
  else (((d.read? place.file).map Source.linesOfBytes).map (Source.tokensOn place.line)).getD []

theorem faithful_empty : Faithful .empty d := by
  intro file found h
  cases h

theorem Faithful.lines (h : c.Faithful d) (file : String) :
    (c.lines d file).1.Faithful d ∧
      (c.lines d file).2 = (d.read? file).map Source.linesOfBytes := by
  unfold SourceCache.lines
  cases hfound : c.files.get? file with
  | some found => exact ⟨h, h file found hfound⟩
  | none =>
    refine ⟨?_, rfl⟩
    intro other found hother
    have hother : (c.files.insert file ((d.read? file).map Source.linesOfBytes)).get? other =
        some found := hother
    rw [NameMap.get?_insert] at hother
    split at hother
    · rename_i heq
      rw [heq]
      exact (Option.some.inj hother).symm
    · exact h other found hother

theorem Faithful.tokensAt (h : c.Faithful d) (place : Location) :
    (c.tokensAt d place).1.Faithful d ∧ (c.tokensAt d place).2 = readTokens d place := by
  unfold SourceCache.tokensAt readTokens
  split
  · exact ⟨h, rfl⟩
  · obtain ⟨hkept, hread⟩ := h.lines place.file
    refine ⟨hkept, ?_⟩
    show ((c.lines d place.file).2.map (Source.tokensOn place.line)).getD [] = _
    rw [hread]

end SourceCache

namespace WitnessGenerator
variable {d : Directory}

/-- The notes on assignments when every file is read anew. -/
def freshNotes (names : SymbolTable) (d : Directory) (current : String) :
    List (Step × Expr) → List WitnessNotes
  | [] => []
  | (s, lhs) :: rest =>
    .ofStep names current (SourceCache.readTokens d s.instruction.location) s lhs ::
      freshNotes names d s.functionName rest

theorem notes_of_faithful (names : SymbolTable) {c : SourceCache} (h : c.Faithful d)
    (current : String) (shown : List (Step × Expr)) :
    (notes names d c current shown).1.Faithful d ∧
      (notes names d c current shown).2 = freshNotes names d current shown := by
  induction shown generalizing c current with
  | nil => exact ⟨h, rfl⟩
  | cons x rest ih =>
    obtain ⟨hkept, htokens⟩ := h.tokensAt x.1.instruction.location
    obtain ⟨hlast, hlater⟩ := ih hkept x.1.functionName
    refine ⟨hlast, ?_⟩
    show WitnessNotes.ofStep names current (c.tokensAt d x.1.instruction.location).2 x.1 x.2 ::
      (notes names d (c.tokensAt d x.1.instruction.location).1 x.1.functionName rest).2 = _
    rw [htokens, hlater]
    rfl

/-- The witness of a trace, with nothing remembered. -/
def freshWitness (g : WitnessGenerator) (d : Directory) (t : Trace) : Witness :=
  ((freshNotes g.names d "" t.shownAssignments).foldl Witness.extend (.start g.config)).finish

theorem generate_of_faithful {g : WitnessGenerator} (h : g.cache.Faithful d) (t : Trace) :
    (g.generate d t).1.cache.Faithful d ∧ (g.generate d t).2 = g.freshWitness d t := by
  obtain ⟨hkept, hnotes⟩ := notes_of_faithful g.names h "" t.shownAssignments
  refine ⟨hkept, ?_⟩
  show ((notes g.names d g.cache "" t.shownAssignments).2.foldl Witness.extend
    (.start g.config)).finish = _
  rw [hnotes]
  rfl

/-- The witnesses of several traces, one after another by the same generator. -/
def witnesses (g : WitnessGenerator) (d : Directory) : List Trace → List Witness
  | [] => []
  | t :: rest => (g.generate d t).2 :: (g.generate d t).1.witnesses d rest

theorem witnesses_of_faithful {g : WitnessGenerator} (h : g.cache.Faithful d)
    (traces : List Trace) : g.witnesses d traces = traces.map (g.freshWitness d) := by
  induction traces generalizing g with
  | nil => rfl
  | cons t rest ih =>
    obtain ⟨hkept, hwitness⟩ := generate_of_faithful h t
    -- reading changes neither the names nor the header
    have hsame : (g.generate d t).1.freshWitness d = g.freshWitness d := rfl
    rw [witnesses, hwitness, ih hkept, hsame, List.map_cons]

end WitnessGenerator
end GotoCheck
