import GotoCheck.Proofs.Text.Lines
import GotoCheck.Trace.Record

/-! Texts of records in blocks. A block is a blank line or the lines of a record, and lines fall
into blocks in one way only. -/
namespace GotoCheck.TraceRecord

/-! Parts between commas. -/

theorem cutComma_eq_some_iff {cs a rest : List Char} :
    cutComma cs = some (a, rest) ↔ ',' ∉ a ∧ cs = a ++ ',' :: rest := by
  induction cs generalizing a with
  | nil => simp [cutComma]
  | cons c cs ih =>
    by_cases hc : c = ','
    · subst hc
      constructor
      · intro h
        cases h
        exact ⟨List.not_mem_nil, rfl⟩
      · rintro ⟨ha, h⟩
        cases a with
        | nil => cases h; rfl
        | cons d a => exact absurd (by cases h; exact List.mem_cons_self) ha
    · rw [cutComma.eq_3 _ _ hc]
      constructor
      · intro h
        obtain ⟨⟨b, behind⟩, hb, heq⟩ := Option.map_eq_some_iff.mp h
        cases heq
        obtain ⟨hcomma, rfl⟩ := ih.mp hb
        exact ⟨by simp [hcomma, Ne.symm hc], rfl⟩
      · rintro ⟨ha, h⟩
        cases a with
        | nil => exact absurd (List.cons.inj h).1 hc
        | cons d a =>
          obtain ⟨rfl, hrest⟩ := List.cons.inj h
          have hcomma : ',' ∉ a := fun hin => ha (List.mem_cons_of_mem _ hin)
          rw [ih.mpr ⟨hcomma, hrest⟩]
          rfl

theorem cutComma_eq_none_iff {cs : List Char} : cutComma cs = none ↔ ',' ∉ cs := by
  induction cs with
  | nil => simp [cutComma]
  | cons c cs ih =>
    by_cases hc : c = ','
    · subst hc
      simp [cutComma]
    · rw [cutComma.eq_3 _ _ hc, Option.map_eq_none_iff, ih]
      simp [Ne.symm hc]

/-- Each cut takes one comma away. -/
theorem succ_le_count_iff {cs : List Char} {n : Nat} :
    n + 1 ≤ cs.count ',' ↔ ∃ a rest, cutComma cs = some (a, rest) ∧ n ≤ rest.count ',' := by
  cases h : cutComma cs with
  | none =>
    rw [List.count_eq_zero_of_not_mem (cutComma_eq_none_iff.mp h)]
    simp
  | some p =>
    obtain ⟨a, rest⟩ := p
    obtain ⟨ha, rfl⟩ := cutComma_eq_some_iff.mp h
    rw [List.count_append, List.count_eq_zero_of_not_mem ha, List.count_cons_self]
    constructor
    · intro hn
      exact ⟨a, rest, rfl, by omega⟩
    · rintro ⟨_, _, heq, hn⟩
      cases heq
      omega

def header (identifier baseName family value : String) : String :=
  identifier ++ "," ++ baseName ++ "," ++ family ++ "," ++ value

theorem toList_header {identifier baseName family value : String} :
    (header identifier baseName family value).toList = identifier.toList ++ ',' ::
      (baseName.toList ++ ',' :: (family.toList ++ ',' :: value.toList)) := by
  simp [header]

/-- The second line of a TRACE record, cut at its first three commas. -/
structure HasParts (line identifier baseName family value : String) : Prop where
  identifier_noComma : ',' ∉ identifier.toList
  baseName_noComma : ',' ∉ baseName.toList
  family_noComma : ',' ∉ family.toList
  line_eq : line = header identifier baseName family value

section Parts
variable {line identifier baseName family value : String}

theorem hasParts_iff : HasParts line identifier baseName family value ↔
    ∃ first second, cutComma line.toList = some (identifier.toList, first) ∧
      cutComma first = some (baseName.toList, second) ∧
      cutComma second = some (family.toList, value.toList) := by
  simp only [cutComma_eq_some_iff]
  constructor
  · intro ⟨hi, hb, hf, hline⟩
    exact ⟨_, _, ⟨hi, by rw [hline, toList_header]⟩, ⟨hb, rfl⟩, ⟨hf, rfl⟩⟩
  · rintro ⟨first, second, ⟨hi, hline⟩, ⟨hb, rfl⟩, ⟨hf, rfl⟩⟩
    exact ⟨hi, hb, hf, String.toList_inj.mp (by rw [hline, toList_header])⟩

theorem readParts_eq_ok_iff : readParts line = .ok (identifier, baseName, family, value) ↔
    HasParts line identifier baseName family value := by
  rw [hasParts_iff]
  unfold readParts
  constructor
  · intro h
    split at h
    · cases h
    · rename_i hfirst
      split at h
      · cases h
      · rename_i hsecond
        split at h
        · cases h
        · rename_i hthird
          cases h
          simp only [String.toList_ofList]
          exact ⟨_, _, hfirst, hsecond, hthird⟩
  · rintro ⟨first, second, hfirst, hsecond, hthird⟩
    rw [hfirst]
    dsimp only
    rw [hsecond]
    dsimp only
    rw [hthird]
    simp only [String.ofList_toList]

/-- Three commas are enough, and the value takes all others. -/
theorem three_le_count_iff : 3 ≤ line.toList.count ',' ↔
    ∃ identifier baseName family value, HasParts line identifier baseName family value := by
  simp only [hasParts_iff]
  constructor
  · intro h
    obtain ⟨a, first, hfirst, h⟩ := succ_le_count_iff.mp h
    obtain ⟨b, second, hsecond, h⟩ := succ_le_count_iff.mp h
    obtain ⟨c, d, hthird, -⟩ := succ_le_count_iff.mp h
    refine ⟨.ofList a, .ofList b, .ofList c, .ofList d, first, second, ?_⟩
    simp only [String.toList_ofList]
    exact ⟨hfirst, hsecond, hthird⟩
  · rintro ⟨_, _, _, value, first, second, hfirst, hsecond, hthird⟩
    have hone : 1 ≤ second.count ',' := succ_le_count_iff.mpr ⟨_, _, hthird, Nat.zero_le _⟩
    have htwo : 2 ≤ first.count ',' := succ_le_count_iff.mpr ⟨_, _, hsecond, hone⟩
    exact succ_le_count_iff.mpr ⟨_, _, hfirst, htwo⟩

end Parts

/-! Blocks. -/

/-- What a text of records is made of: a blank line, or the lines of a record as they stand. -/
inductive Block
  | blank
  | failed (comment third fourth file line column : String)
  | trace (header number file line column : String)

namespace Block

def lines : Block → List String
  | blank => [""]
  | failed comment third fourth file line column =>
    ["FAILED", comment, third, fourth, file, line, column]
  | trace header number file line column => ["TRACE", header, number, file, line, column]

def IsNumber (s : String) : Prop := ∃ n, Text.Spells s n

/-- What is asked of the lines of a block. The others may be anything. -/
def WellFormed : Block → Prop
  | blank => True
  | failed _ _ _ _ line column => IsNumber line ∧ IsNumber column
  | trace header number _ line column =>
    3 ≤ header.toList.count ',' ∧ IsNumber number ∧ IsNumber line ∧ IsNumber column

/-- The record that a block spells. -/
inductive Says : Block → TraceRecord → Prop
  | failed {comment third fourth file lineText columnText : String} {line column : Nat} :
      Text.Spells lineText line → Text.Spells columnText column →
      Says (.failed comment third fourth file lineText columnText)
        (.failed comment file line column)
  | trace {header identifier baseName family value numberText file lineText columnText : String}
      {number line column : Nat} : HasParts header identifier baseName family value →
      Text.Spells numberText number → Text.Spells lineText line → Text.Spells columnText column →
      Says (.trace header numberText file lineText columnText)
        (.trace identifier baseName family value number file line column)

/-- The records that some blocks spell, in order. -/
inductive Tells : List Block → List TraceRecord → Prop
  | nil : Tells [] []
  | blank {blocks : List Block} {rs : List TraceRecord} : Tells blocks rs →
      Tells (.blank :: blocks) rs
  | record {block : Block} {blocks : List Block} {r : TraceRecord} {rs : List TraceRecord} :
      block.Says r → Tells blocks rs → Tells (block :: blocks) (r :: rs)

theorem Says.wellFormed {block : Block} {r : TraceRecord} (h : block.Says r) :
    block.WellFormed := by
  cases h with
  | failed hline hcolumn => exact ⟨⟨_, hline⟩, _, hcolumn⟩
  | trace hparts hnumber hline hcolumn =>
    exact ⟨three_le_count_iff.mpr ⟨_, _, _, _, hparts⟩, ⟨_, hnumber⟩, ⟨_, hline⟩, _, hcolumn⟩

theorem WellFormed.blank_or_record {block : Block} (h : block.WellFormed) :
    block = .blank ∨ ∃ r, block.Says r := by
  cases block with
  | blank => exact .inl rfl
  | failed comment third fourth file line column =>
    obtain ⟨⟨_, hline⟩, _, hcolumn⟩ := h
    exact .inr ⟨_, .failed hline hcolumn⟩
  | trace header number file line column =>
    obtain ⟨hcommas, ⟨_, hnumber⟩, ⟨_, hline⟩, _, hcolumn⟩ := h
    obtain ⟨_, _, _, _, hparts⟩ := three_le_count_iff.mp hcommas
    exact .inr ⟨_, .trace hparts hnumber hline hcolumn⟩

theorem exists_tells_iff {blocks : List Block} :
    (∃ rs, Tells blocks rs) ↔ ∀ block ∈ blocks, block.WellFormed := by
  constructor
  · rintro ⟨rs, h⟩
    induction h with
    | nil => simp
    | blank _ ih => exact List.forall_mem_cons.mpr ⟨trivial, ih⟩
    | record hsays _ ih => exact List.forall_mem_cons.mpr ⟨Says.wellFormed hsays, ih⟩
  · intro h
    induction blocks with
    | nil => exact ⟨[], .nil⟩
    | cons block blocks ih =>
      obtain ⟨hblock, hblocks⟩ := List.forall_mem_cons.mp h
      obtain ⟨rs, hrs⟩ := ih hblocks
      rcases hblock.blank_or_record with rfl | ⟨r, hr⟩
      · exact ⟨rs, .blank hrs⟩
      · exact ⟨r :: rs, .record hr hrs⟩

/-- The first line tells the kind of a block, and the kind tells how many lines it has. -/
theorem lines_append_inj {a b : Block} {ls ms : List String}
    (h : a.lines ++ ls = b.lines ++ ms) : a = b ∧ ls = ms := by
  cases a <;> cases b <;> simp_all [lines]

theorem flatMap_lines_injective {as bs : List Block}
    (h : as.flatMap lines = bs.flatMap lines) : as = bs := by
  induction as generalizing bs with
  | nil =>
    cases bs with
    | nil => rfl
    | cons b bs => cases b <;> simp [lines] at h
  | cons a as ih =>
    cases bs with
    | nil => cases a <;> simp [lines] at h
    | cons b bs =>
      rw [List.flatMap_cons, List.flatMap_cons] at h
      obtain ⟨rfl, hrest⟩ := lines_append_inj h
      rw [ih hrest]

theorem exists_lines_append (block : Block) (after : List String) :
    ∃ l rest, l :: rest = block.lines ++ after := by
  cases block <;> exact ⟨_, _, rfl⟩

/-- The first line of a record is its keyword, and the keyword tells how many lines follow. -/
theorem Says.kind {block : Block} {r : TraceRecord} {l : String} {rest after : List String}
    (h : block.Says r) (hlines : l :: rest = block.lines ++ after) :
    (l = "FAILED" ∧ block.lines.length = 7 ∧ 6 ≤ rest.length ∧ rest.drop 6 = after) ∨
      (l = "TRACE" ∧ block.lines.length = 6 ∧ 5 ≤ rest.length ∧ rest.drop 5 = after) := by
  cases h with
  | failed =>
    obtain ⟨rfl, rfl⟩ := List.cons.inj hlines
    exact .inl ⟨rfl, rfl, by simp, rfl⟩
  | trace =>
    obtain ⟨rfl, rfl⟩ := List.cons.inj hlines
    exact .inr ⟨rfl, rfl, by simp, rfl⟩

end Block

end GotoCheck.TraceRecord
