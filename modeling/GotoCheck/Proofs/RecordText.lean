import GotoCheck.Proofs.RecordReader
import GotoCheck.Samples

/-! Trace records read back. Nothing in them is escaped, so each field has to keep to its line and
the first three parts of a header to themselves; the lengths of the records do the rest. -/
namespace GotoCheck

/-- A text that can stand before a comma in a line. -/
structure IsPart (s : String) : Prop where
  noFeed : '\n' ∉ s.toList
  noComma : ',' ∉ s.toList

instance (s : String) : Decidable (IsPart s) :=
  decidable_of_iff ('\n' ∉ s.toList ∧ ',' ∉ s.toList)
    ⟨fun h => ⟨h.1, h.2⟩, fun h => ⟨h.noFeed, h.noComma⟩⟩

theorem CType.isPart_family (t : CType) : IsPart t.family := by
  cases t <;> simp only [family] <;> exact ⟨by decide, by decide⟩

namespace Step
variable (names : SymbolTable) (previous : Location) (s : Step)

/-- The family of the type of the value, or else of the left-hand side. -/
def shownFamily : String :=
  match s.value, s.lhs with
  | some v, _ => v.type.family
  | none, some l => l.type.family
  | none, none => ""

def shownValue : String :=
  match s.value with
  | some v => v.text names
  | none => ""

/-- What front ends are told of a step after a step at `previous`: a failed assertion, an
assignment, or else a change of place, unless the new place is in no file. -/
inductive Shows : TraceRecord → Prop
  | failure : s.kind = .assert → s.guard = false →
      Shows (.failed s.comment s.instruction.location.file s.instruction.location.line
        s.instruction.location.column)
  | assignment {identifier : String} : s.kind = .assignment → identifier = s.identifier?.getD "" →
      Shows (.trace identifier (names.baseName identifier) s.shownFamily (s.shownValue names)
        s.number s.instruction.location.file s.instruction.location.line
        s.instruction.location.column)
  | move : ¬(s.kind = .assert ∧ s.guard = false) → s.kind ≠ .assignment →
      s.instruction.location ≠ previous → s.instruction.location.file ≠ "" →
      Shows (.trace "" "" "" "" s.number s.instruction.location.file s.instruction.location.line
        s.instruction.location.column)

/-- Step numbers, lines and columns are words of 32 bits. -/
structure InWords : Prop where
  number : s.number < 4294967296
  line : s.instruction.location.line < 4294967296
  column : s.instruction.location.column < 4294967296

instance : Decidable s.InWords :=
  decidable_of_iff (s.number < 4294967296 ∧ s.instruction.location.line < 4294967296 ∧
      s.instruction.location.column < 4294967296)
    ⟨fun h => ⟨h.1, h.2.1, h.2.2⟩, fun h => ⟨h.number, h.line, h.column⟩⟩

end Step

/-- The records of the steps that show, one each and in order. A step is compared with the place of
the step before it, shown or not. -/
inductive Shown (names : SymbolTable) : Location → List Step → List TraceRecord → Prop
  | nil {previous : Location} : Shown names previous [] []
  | shows {previous : Location} {s : Step} {rest : List Step} {r : TraceRecord}
      {rs : List TraceRecord} : s.Shows names previous r →
      Shown names s.instruction.location rest rs → Shown names previous (s :: rest) (r :: rs)
  | silent {previous : Location} {s : Step} {rest : List Step} {rs : List TraceRecord} :
      (∀ r, ¬s.Shows names previous r) →
      Shown names s.instruction.location rest rs → Shown names previous (s :: rest) rs

namespace TraceRecord

/-- The texts of a record fit its lines: a comment, a file or a value in a line of its own, or at
its end, and identifiers and base names between commas. -/
def Plain : TraceRecord → Prop
  | failed comment file _ _ => Text.IsLine comment ∧ Text.IsLine file
  | trace identifier baseName _ value _ file _ _ =>
    IsPart identifier ∧ IsPart baseName ∧ Text.IsLine value ∧ Text.IsLine file

instance : DecidablePred Plain
  | failed _ _ _ _ => inferInstanceAs (Decidable (_ ∧ _))
  | trace _ _ _ _ _ _ _ _ => inferInstanceAs (Decidable (_ ∧ _))

/-- What reading relies on besides the texts: the family of a type and words of 32 bits. -/
def WellTyped : TraceRecord → Prop
  | failed _ _ line column => line < 4294967296 ∧ column < 4294967296
  | trace _ _ family _ number _ line column =>
    IsPart family ∧ number < 4294967296 ∧ line < 4294967296 ∧ column < 4294967296

end TraceRecord

section Shown
variable {names : SymbolTable} {previous : Location} {s : Step} {r : TraceRecord}

theorem Step.isViolation_iff : s.isViolation ↔ s.kind = .assert ∧ s.guard = false := by
  simp [isViolation]

theorem Step.assignmentRecord_eq : s.assignmentRecord names =
    .trace (s.identifier?.getD "") (names.baseName (s.identifier?.getD "")) s.shownFamily
      (s.shownValue names) s.number s.instruction.location.file s.instruction.location.line
      s.instruction.location.column := by
  unfold assignmentRecord shownFamily shownValue
  cases s.value <;> cases s.lhs <;> rfl

theorem Step.record?_eq_some_iff :
    s.record? names previous = some r ↔ s.Shows names previous r := by
  unfold record?
  dsimp only
  constructor
  · intro h
    split at h
    · rename_i hfails
      cases h
      obtain ⟨hkind, hguard⟩ := isViolation_iff.mp hfails
      exact .failure hkind hguard
    · rename_i hholds
      split at h
      · rename_i hkind
        cases h
        rw [assignmentRecord_eq]
        exact .assignment hkind rfl
      · rename_i hkind
        split at h
        · rename_i hmoved
          cases h
          have hfile : s.instruction.location.file ≠ "" := by
            intro he
            exact hmoved.2 (by rw [he]; rfl)
          exact .move (fun hv => hholds (isViolation_iff.mpr hv)) hkind hmoved.1 hfile
        · cases h
  · intro h
    cases h with
    | failure hkind hguard => rw [if_pos (isViolation_iff.mpr ⟨hkind, hguard⟩)]
    | assignment hkind hid =>
      have hholds : ¬s.isViolation := by simp [isViolation, hkind]
      rw [if_neg hholds, if_pos hkind, assignmentRecord_eq, hid]
    | move hholds hkind hmoved hfile =>
      have hfile : ¬s.instruction.location.file.isEmpty := by
        intro he
        exact hfile (String.isEmpty_iff.mp he)
      rw [if_neg (fun hv => hholds (isViolation_iff.mp hv)), if_neg hkind,
        if_pos ⟨hmoved, hfile⟩]

/-- What is shown of some steps is what is written of them. -/
theorem shown_iff {steps : List Step} {rs : List TraceRecord} :
    Shown names previous steps rs ↔ rs = Trace.recordsFrom names previous steps := by
  constructor
  · intro h
    induction h with
    | nil => rfl
    | shows hs _ ih =>
      rw [Trace.recordsFrom, Step.record?_eq_some_iff.mpr hs, ih]
      rfl
    | @silent previous s rest rs hs _ ih =>
      have hnone : s.record? names previous = none := by
        apply Option.eq_none_iff_forall_ne_some.mpr
        intro r hr
        exact hs r (Step.record?_eq_some_iff.mp hr)
      rw [Trace.recordsFrom, hnone, ih]
      rfl
  · intro h
    subst h
    induction steps generalizing previous with
    | nil => exact .nil
    | cons s rest ih =>
      rw [Trace.recordsFrom]
      cases hr : s.record? names previous with
      | some r => exact .shows (Step.record?_eq_some_iff.mp hr) ih
      | none =>
        refine .silent (fun r hs => ?_) ih
        rw [Step.record?_eq_some_iff.mpr hs] at hr
        cases hr

theorem Step.Shows.wellTyped (h : s.Shows names previous r) (hs : s.InWords) : r.WellTyped := by
  cases h with
  | failure => exact ⟨hs.line, hs.column⟩
  | assignment =>
    have hfamily : IsPart s.shownFamily := by
      unfold shownFamily
      split
      · exact CType.isPart_family _
      · exact CType.isPart_family _
      · exact ⟨by decide, by decide⟩
    exact ⟨hfamily, hs.number, hs.line, hs.column⟩
  | move => exact ⟨⟨by decide, by decide⟩, hs.number, hs.line, hs.column⟩

theorem Shown.wellTyped {steps : List Step} {rs : List TraceRecord}
    (h : Shown names previous steps rs) (hs : ∀ s ∈ steps, s.InWords) :
    ∀ r ∈ rs, r.WellTyped := by
  induction h with
  | nil =>
    intro r hr
    cases hr
  | @shows previous s rest r rs hshows _ ih =>
    intro q hq
    have hrest := ih fun u hu => hs u (List.mem_cons_of_mem s hu)
    rcases List.mem_cons.mp hq with rfl | hq
    · exact hshows.wellTyped (hs s List.mem_cons_self)
    · exact hrest q hq
  | @silent previous s rest rs _ _ ih => exact ih fun u hu => hs u (List.mem_cons_of_mem s hu)

end Shown

namespace TraceRecord
variable {r : TraceRecord}

/-- No text of a record breaks its line, and no comma moves its header's parts. -/
def Unbroken : TraceRecord → Prop
  | failed comment file _ _ => '\n' ∉ comment.toList ∧ '\n' ∉ file.toList
  | trace identifier baseName _ value _ file _ _ =>
    IsPart identifier ∧ IsPart baseName ∧ '\n' ∉ value.toList ∧ '\n' ∉ file.toList

instance : DecidablePred Unbroken
  | failed _ _ _ _ => inferInstanceAs (Decidable (_ ∧ _))
  | trace _ _ _ _ _ _ _ _ => inferInstanceAs (Decidable (_ ∧ _))

theorem Plain.unbroken (h : r.Plain) : r.Unbroken := by
  cases r with
  | failed => exact ⟨h.1.noFeed, h.2.noFeed⟩
  | trace => exact ⟨h.1, h.2.1, h.2.2.1.noFeed, h.2.2.2.noFeed⟩

/-- What is left of a record when carriage returns before its line ends count as parts of them. -/
def trimmed : TraceRecord → TraceRecord
  | failed comment file line column =>
    .failed (Text.withoutReturn comment) (Text.withoutReturn file) line column
  | trace identifier baseName family value number file line column =>
    .trace identifier baseName family (Text.withoutReturn value) number (Text.withoutReturn file)
      line column

theorem Plain.trimmed_eq (h : r.Plain) : r.trimmed = r := by
  cases r with
  | failed =>
    rw [trimmed, Text.withoutReturn_eq_self h.1.noReturn, Text.withoutReturn_eq_self h.2.noReturn]
  | trace =>
    rw [trimmed, Text.withoutReturn_eq_self h.2.2.1.noReturn,
      Text.withoutReturn_eq_self h.2.2.2.noReturn]

/-- The lines of a record as they are read. -/
def block : TraceRecord → Block
  | failed comment file line column =>
    .failed (Text.withoutReturn comment) "" "" (Text.withoutReturn file) line.repr column.repr
  | trace identifier baseName family value number file line column =>
    .trace (header identifier baseName family (Text.withoutReturn value)) number.repr
      (Text.withoutReturn file) line.repr column.repr

/-- The header ends in its value, or else in a comma. -/
theorem withoutReturn_header (identifier baseName family value : String) :
    Text.withoutReturn (header identifier baseName family value) =
      header identifier baseName family (Text.withoutReturn value) := by
  have hcut (v : String) : (header identifier baseName family v).toList =
      (identifier.toList ++ ',' :: (baseName.toList ++ ',' :: family.toList)) ++
        ',' :: v.toList := by
    simp [toList_header]
  apply String.toList_inj.mp
  rw [hcut, Text.withoutReturn, Text.withoutReturn, String.toList_ofList, String.toList_ofList,
    hcut, Text.dropReturn_append _ (List.cons_ne_nil _ _), Text.dropReturn_cons (by decide)]

theorem map_withoutReturn_lines : r.lines.map Text.withoutReturn = r.block.lines := by
  have hrepr (n : Nat) : Text.withoutReturn n.repr = n.repr :=
    Text.withoutReturn_eq_self (Text.isLine_repr n).noReturn
  have hempty : Text.withoutReturn "" = "" := rfl
  cases r with
  | failed =>
    simp only [lines, block, Block.lines, List.map_cons, List.map_nil, hrepr, hempty]
    rfl
  | trace identifier baseName family value =>
    have hheader := withoutReturn_header identifier baseName family value
    simp only [lines, block, Block.lines, List.map_cons, List.map_nil, hrepr, ← hheader]
    rfl

/-- What is read of a record is the record, but for carriage returns. -/
theorem says_block (hunbroken : r.Unbroken) (htyped : r.WellTyped) : r.block.Says r.trimmed := by
  cases r with
  | failed =>
    obtain ⟨hline, hcolumn⟩ := htyped
    exact .failed (Text.spells_repr hline) (Text.spells_repr hcolumn)
  | trace =>
    obtain ⟨hi, hb, -, -⟩ := hunbroken
    obtain ⟨hf, hnumber, hline, hcolumn⟩ := htyped
    exact .trace ⟨hi.noComma, hb.noComma, hf.noComma, rfl⟩ (Text.spells_repr hnumber)
      (Text.spells_repr hline) (Text.spells_repr hcolumn)

theorem noFeed_of_mem_lines {l : String} (hunbroken : r.Unbroken) (htyped : r.WellTyped)
    (hl : l ∈ r.lines) : '\n' ∉ l.toList := by
  have hrepr (n : Nat) : '\n' ∉ n.repr.toList := (Text.isLine_repr n).noFeed
  cases r with
  | failed =>
    obtain ⟨hcomment, hfile⟩ := hunbroken
    simp only [lines, List.mem_cons, List.not_mem_nil, or_false] at hl
    rcases hl with rfl | rfl | rfl | rfl | rfl | rfl | rfl
    · decide
    · exact hcomment
    · decide
    · decide
    · exact hfile
    · exact hrepr _
    · exact hrepr _
  | trace identifier baseName family value =>
    obtain ⟨hi, hb, hv, hfile⟩ := hunbroken
    obtain ⟨hf, -⟩ := htyped
    have hheader : '\n' ∉ (header identifier baseName family value).toList := by
      rw [toList_header]
      simp [hi.noFeed, hb.noFeed, hf.noFeed, hv]
    simp only [lines, List.mem_cons, List.not_mem_nil, or_false] at hl
    rcases hl with rfl | rfl | rfl | rfl | rfl | rfl
    · decide
    · exact hheader
    · exact hrepr _
    · exact hfile
    · exact hrepr _
    · exact hrepr _

theorem tells_map_block {rs : List TraceRecord} (hunbroken : ∀ r ∈ rs, r.Unbroken)
    (htyped : ∀ r ∈ rs, r.WellTyped) : Block.Tells (rs.map block) (rs.map trimmed) := by
  induction rs with
  | nil => exact .nil
  | cons r rs ih =>
    obtain ⟨hr, hrs⟩ := List.forall_mem_cons.mp hunbroken
    obtain ⟨hr', hrs'⟩ := List.forall_mem_cons.mp htyped
    exact .record (says_block hr hr') (ih hrs hrs')

/-- Records are read back whatever their texts look like. -/
theorem parse_text_trimmed {rs : List TraceRecord} (hunbroken : ∀ r ∈ rs, r.Unbroken)
    (htyped : ∀ r ∈ rs, r.WellTyped) :
    parse (String.join (rs.map text)) = .ok (rs.map trimmed) := by
  refine parse_eq_ok_iff.mpr ⟨rs.map block, ?_, tells_map_block hunbroken htyped⟩
  have htext : String.join (rs.map text) = Text.unlines (rs.flatMap lines) :=
    (Text.unlines_flatMap lines rs).symm
  have hfeed : ∀ l ∈ rs.flatMap lines, '\n' ∉ l.toList := by
    intro l hl
    obtain ⟨r, hr, hl⟩ := List.mem_flatMap.mp hl
    exact noFeed_of_mem_lines (hunbroken r hr) (htyped r hr) hl
  rw [htext, Text.lines_unlines _ hfeed, List.map_flatMap, List.flatMap_map]
  simp only [map_withoutReturn_lines]

theorem parse_text {rs : List TraceRecord} (hplain : ∀ r ∈ rs, r.Plain)
    (htyped : ∀ r ∈ rs, r.WellTyped) : parse (String.join (rs.map text)) = .ok rs := by
  rw [parse_text_trimmed (fun r hr => (hplain r hr).unbroken) htyped]
  calc Except.ok (rs.map trimmed) = .ok (rs.map id) :=
        congrArg _ (List.map_congr_left fun r hr => (hplain r hr).trimmed_eq)
    _ = .ok rs := congrArg _ (List.map_id rs)

end TraceRecord

namespace Trace
variable {names : SymbolTable} {t : Trace}

/-- The records of a trace keep to their lines. -/
def Plain (t : Trace) (names : SymbolTable) : Prop :=
  ∀ records, Shown names {} t.steps records → ∀ r ∈ records, r.Plain

/-- What is written of a trace for front ends reads back as one record for each step that shows. -/
theorem recordText_reads_back (hwords : ∀ s ∈ t.steps, s.InWords) (hplain : t.Plain names) :
    ∃ records, Shown names {} t.steps records ∧
      TraceRecord.parse (t.recordText names) = .ok records := by
  have hshown : Shown names {} t.steps (t.records names) := shown_iff.mpr rfl
  exact ⟨t.records names, hshown,
    TraceRecord.parse_text (hplain _ hshown) (hshown.wellTyped hwords)⟩

/-- A trace whose texts look like other lines of records: a value with commas, a file and a comment
that are keywords, an assignment to an array element, which has no identifier, and steps in no
file. -/
def misleading : Trace :=
  let place (file : String) (line : Nat) : Instruction := { location := { file, line } }
  let pair : Expr := .structValue [Samples.intConstant 1, Samples.intConstant 2]
    (.struct "pair" [("a", .int), ("b", .int)])
  let element : Expr := .index (Samples.intVariable "c::y") (Samples.intConstant 0) .int
  ⟨[.assignment (place "main.c" 3) 1 (Samples.intVariable "c::main::p") pair,
    .ofKind .skip (place "TRACE" 4) 2,
    .ofKind .skip (place "TRACE" 4) 2,
    { Step.assertion (place "" 0) 3 false with comment := "FAILED" },
    .assignment (place "" 0) 3 element (Samples.intConstant 5)]⟩

theorem records_of_misleading :
    TraceRecord.parse (misleading.recordText Samples.symbols) = .ok [
      .trace "c::main::p" "p" "struct" "{ .a=1, .b=2 }" 1 "main.c" 3 0,
      .trace "" "" "" "" 2 "TRACE" 4 0,
      .failed "FAILED" "" 0 0,
      .trace "" "" "signedbv" "5" 3 "" 0 0] := by
  have hwords : ∀ s ∈ misleading.steps, s.InWords := by decide +kernel
  have hplain : misleading.Plain Samples.symbols := by
    intro records hshown
    rw [shown_iff.mp hshown]
    decide +kernel
  obtain ⟨records, hshown, hparse⟩ := recordText_reads_back hwords hplain
  rw [hparse, shown_iff.mp hshown]
  apply congrArg Except.ok
  decide +kernel

end Trace
end GotoCheck
