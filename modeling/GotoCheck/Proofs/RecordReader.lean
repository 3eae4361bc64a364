import Mathlib.Data.List.Basic
import GotoCheck.Proofs.General
import GotoCheck.Proofs.RecordBlocks

/-! Reading records. A text is read block by block, and a block is read in the same way wherever it
stands, whatever stands before and behind it. -/
namespace GotoCheck.TraceRecord

section Read
variable {n k : Nat} {rest : List String} {r : TraceRecord}

theorem fieldAt_eq_ok_iff {s : String} : fieldAt n rest k = .ok s ↔ rest[k - 1]? = some s := by
  unfold fieldAt
  cases rest[k - 1]? <;> simp

theorem numberAt_eq_ok_iff {v : Nat} :
    numberAt n rest k = .ok v ↔ ∃ s, rest[k - 1]? = some s ∧ Text.Spells s v := by
  unfold numberAt
  simp only [Except.bind_eq_ok_iff, fieldAt_eq_ok_iff, ← Text.word32?_eq_some_iff]
  refine exists_congr fun s => and_congr_right fun _ => ?_
  cases Text.word32? s <;> simp

theorem readFailed_eq_ok_iff : readFailed n rest = .ok r ↔
    ∃ block after, Block.Says block r ∧ "FAILED" :: rest = block.lines ++ after := by
  unfold readFailed
  simp only [Except.bind_eq_ok_iff, fieldAt_eq_ok_iff, numberAt_eq_ok_iff]
  constructor
  · rintro ⟨comment, hcomment, file, hfile, line, ⟨lineText, hline, hspelled⟩, column,
      ⟨columnText, hcolumn, hspelled'⟩, hr⟩
    match rest with
    | _ :: _ :: _ :: _ :: _ :: _ :: after =>
      cases hcomment; cases hfile; cases hline; cases hcolumn; cases hr
      exact ⟨_, after, .failed hspelled hspelled', rfl⟩
  · rintro ⟨block, after, hsays, hlines⟩
    cases hsays with
    | failed hline hcolumn =>
      obtain ⟨-, rfl⟩ := List.cons.inj hlines
      exact ⟨_, rfl, _, rfl, _, ⟨_, rfl, hline⟩, _, ⟨_, rfl, hcolumn⟩, rfl⟩
    | trace => exact absurd (List.cons.inj hlines).1 (by decide)

theorem readTrace_eq_ok_iff : readTrace n rest = .ok r ↔
    ∃ block after, Block.Says block r ∧ "TRACE" :: rest = block.lines ++ after := by
  unfold readTrace
  simp only [Except.bind_eq_ok_iff, fieldAt_eq_ok_iff]
  constructor
  · rintro ⟨header, hheader, hr⟩
    split at hr
    · cases hr
    · rename_i identifier baseName family value hparts
      simp only [Except.bind_eq_ok_iff, fieldAt_eq_ok_iff, numberAt_eq_ok_iff] at hr
      obtain ⟨number, ⟨numberText, hnumber, hspelled⟩, file, hfile, line,
        ⟨lineText, hline, hspelled'⟩, column, ⟨columnText, hcolumn, hspelled''⟩, hr⟩ := hr
      match rest with
      | _ :: _ :: _ :: _ :: _ :: after =>
        cases hheader; cases hnumber; cases hfile; cases hline; cases hcolumn; cases hr
        exact ⟨_, after, .trace (readParts_eq_ok_iff.mp hparts) hspelled hspelled' hspelled'', rfl⟩
  · rintro ⟨block, after, hsays, hlines⟩
    cases hsays with
    | failed => exact absurd (List.cons.inj hlines).1 (by decide)
    | trace hparts hnumber hline hcolumn =>
      obtain ⟨-, rfl⟩ := List.cons.inj hlines
      refine ⟨_, rfl, ?_⟩
      rw [readParts_eq_ok_iff.mpr hparts]
      simp only [Except.bind_eq_ok_iff, fieldAt_eq_ok_iff, numberAt_eq_ok_iff]
      exact ⟨_, ⟨_, rfl, hnumber⟩, _, rfl, _, ⟨_, rfl, hline⟩, _, ⟨_, rfl, hcolumn⟩, rfl⟩

theorem block_of_readFailed (h : readFailed n rest = .ok r) :
    6 ≤ rest.length ∧
      ∃ block, Block.Says block r ∧ "FAILED" :: rest = block.lines ++ rest.drop 6 := by
  obtain ⟨block, after, hsays, hlines⟩ := readFailed_eq_ok_iff.mp h
  rcases hsays.kind hlines with ⟨-, -, hlength, rfl⟩ | ⟨hkind, -⟩
  · exact ⟨hlength, block, hsays, hlines⟩
  · exact absurd hkind (by decide)

theorem block_of_readTrace (h : readTrace n rest = .ok r) :
    5 ≤ rest.length ∧
      ∃ block, Block.Says block r ∧ "TRACE" :: rest = block.lines ++ rest.drop 5 := by
  obtain ⟨block, after, hsays, hlines⟩ := readTrace_eq_ok_iff.mp h
  rcases hsays.kind hlines with ⟨hkind, -⟩ | ⟨-, -, hlength, rfl⟩
  · exact absurd hkind (by decide)
  · exact ⟨hlength, block, hsays, hlines⟩

end Read

/-- A block is read whatever follows it. -/
theorem readLines_block {block : Block} {r : TraceRecord} (h : block.Says r) (n : Nat)
    (after : List String) : readLines n (block.lines ++ after) =
      (r :: ·) <$> readLines (n + block.lines.length) after := by
  obtain ⟨l, rest, hlines⟩ := block.exists_lines_append after
  rcases h.kind hlines with ⟨rfl, hlength, -, hafter⟩ | ⟨rfl, hlength, -, hafter⟩
  · have hread : readFailed n rest = .ok r := readFailed_eq_ok_iff.mpr ⟨block, after, h, hlines⟩
    rw [← hlines, readLines, if_neg (by decide), if_pos rfl, hread, hlength, ← hafter]
  · have hread : readTrace n rest = .ok r := readTrace_eq_ok_iff.mpr ⟨block, after, h, hlines⟩
    rw [← hlines, readLines, if_neg (by decide), if_neg (by decide), if_pos rfl, hread, hlength,
      ← hafter]

/-- Blocks are read whatever follows them, and what follows them is read as if it stood alone, with
its lines counted on. -/
theorem readLines_blocks {blocks : List Block} {rs : List TraceRecord} (h : Block.Tells blocks rs)
    (n : Nat) (rest : List String) : readLines n (blocks.flatMap Block.lines ++ rest) =
      (rs ++ ·) <$> readLines (n + (blocks.flatMap Block.lines).length) rest := by
  induction h generalizing n with
  | nil =>
    show readLines n rest = (fun q => q) <$> readLines n rest
    exact (id_map _).symm
  | @blank blocks rs _ ih =>
    have hblank : readLines n ("" :: (blocks.flatMap Block.lines ++ rest)) =
        readLines (n + 1) (blocks.flatMap Block.lines ++ rest) := by
      rw [readLines, if_pos rfl]
    show readLines n ("" :: (blocks.flatMap Block.lines ++ rest)) = _
    rw [hblank, ih, List.flatMap_cons, List.length_append, Nat.add_assoc]
    rfl
  | record hsays _ ih =>
    rw [List.flatMap_cons, List.append_assoc, readLines_block hsays, ih, List.length_append,
      Nat.add_assoc, ← comp_map]
    rfl

/-- Lines that are read are the lines of blocks. -/
theorem exists_tells_of_readLines {n : Nat} {ls : List String} {rs : List TraceRecord}
    (h : readLines n ls = .ok rs) :
    ∃ blocks, blocks.flatMap Block.lines = ls ∧ Block.Tells blocks rs := by
  fun_induction readLines n ls generalizing rs with
  | case1 =>
    cases h
    exact ⟨[], rfl, .nil⟩
  | case2 n rest ih =>
    obtain ⟨blocks, rfl, htells⟩ := ih h
    exact ⟨.blank :: blocks, rfl, .blank htells⟩
  | case4 n rest r hread _ ih =>
    obtain ⟨-, block, hsays, hlines⟩ := block_of_readFailed hread
    obtain ⟨rs, hrest, rfl⟩ := Except.map_eq_ok_iff.mp h
    obtain ⟨blocks, hblocks, htells⟩ := ih hrest
    refine ⟨block :: blocks, ?_, .record hsays htells⟩
    rw [List.flatMap_cons, hblocks, hlines]
  | case6 n rest r hread _ _ ih =>
    obtain ⟨-, block, hsays, hlines⟩ := block_of_readTrace hread
    obtain ⟨rs, hrest, rfl⟩ := Except.map_eq_ok_iff.mp h
    obtain ⟨blocks, hblocks, htells⟩ := ih hrest
    refine ⟨block :: blocks, ?_, .record hsays htells⟩
    rw [List.flatMap_cons, hblocks, hlines]
  | case3 | case5 | case7 => cases h

/-! Places. What is wrong in a text is wrong in the same way further down in another text. -/

/-- An error behind `k` more lines. -/
def ParseError.later (k : Nat) (e : ParseError) : ParseError := { e with line := e.line + k }

section Later
variable {n k : Nat} {rest : List String}

theorem fieldAt_add (j : Nat) :
    fieldAt (n + k) rest j = (fieldAt n rest j).mapError (ParseError.later k) := by
  unfold fieldAt
  cases rest[j - 1]? with
  | some s => rfl
  | none =>
    rw [Nat.add_right_comm]
    rfl

theorem numberAt_add (j : Nat) :
    numberAt (n + k) rest j = (numberAt n rest j).mapError (ParseError.later k) := by
  unfold numberAt
  rw [Except.mapError_bind, fieldAt_add]
  refine bind_congr fun s => ?_
  cases Text.word32? s with
  | some v => rfl
  | none =>
    rw [Nat.add_right_comm]
    rfl

theorem readFailed_add :
    readFailed (n + k) rest = (readFailed n rest).mapError (ParseError.later k) := by
  unfold readFailed
  simp only [Except.mapError_bind, fieldAt_add, numberAt_add]
  rfl

theorem readTrace_add :
    readTrace (n + k) rest = (readTrace n rest).mapError (ParseError.later k) := by
  unfold readTrace
  rw [Except.mapError_bind, fieldAt_add]
  refine bind_congr fun header => ?_
  split
  · rw [Nat.add_right_comm]
    rfl
  · simp only [Except.mapError_bind, fieldAt_add, numberAt_add]
    rfl

theorem readLines_add (ls : List String) :
    readLines (n + k) ls = (readLines n ls).mapError (ParseError.later k) := by
  fun_induction readLines n ls with
  | case1 n => rw [readLines]; rfl
  | case2 n rest ih =>
    rw [readLines, if_pos rfl, Nat.add_right_comm, ih]
  | case3 n rest e hread =>
    rw [readLines, if_neg (by decide), if_pos rfl, readFailed_add, hread]
    rfl
  | case4 n rest r hread _ ih =>
    rw [readLines, if_neg (by decide), if_pos rfl, readFailed_add, hread, Except.mapError_map, ← ih,
      Nat.add_right_comm]
    rfl
  | case5 n rest e hread =>
    rw [readLines, if_neg (by decide), if_neg (by decide), if_pos rfl, readTrace_add, hread]
    rfl
  | case6 n rest r hread _ _ ih =>
    rw [readLines, if_neg (by decide), if_neg (by decide), if_pos rfl, readTrace_add, hread,
      Except.mapError_map, ← ih, Nat.add_right_comm]
    rfl
  | case7 n l rest hblank hfailed htrace =>
    rw [readLines, if_neg hblank, if_neg hfailed, if_neg htrace]
    rfl

end Later

/-- Reads records as a loop does that stands before line `i` of a text and steps over its lines. It
tells where it stops. -/
def readFrom (ls : List String) (i : Nat) : Except ParseError (List TraceRecord × Nat) :=
  if h : i < ls.length then
    if ls[i] = "" then readFrom ls (i + 1)
    else if ls[i] = "FAILED" then
      match readFailed (i + 1) (ls.drop (i + 1)) with
      | .error e => .error e
      | .ok r => (fun p => (r :: p.1, p.2)) <$> readFrom ls (i + 7)
    else if ls[i] = "TRACE" then
      match readTrace (i + 1) (ls.drop (i + 1)) with
      | .error e => .error e
      | .ok r => (fun p => (r :: p.1, p.2)) <$> readFrom ls (i + 6)
    else .error ⟨i + 1, .expectedKeyword ls[i]⟩
  else .ok ([], i)
termination_by ls.length - i

/-- The loop reads the same records. It never steps past the end: where it stops after an accepted
text, all lines are behind it and no more. -/
theorem readFrom_eq {ls : List String} {i : Nat} (hi : i ≤ ls.length) :
    readFrom ls i = (fun rs => (rs, ls.length)) <$> readLines (i + 1) (ls.drop i) := by
  fun_induction readFrom ls i with
  | case1 i h hblank ih =>
    rw [List.drop_eq_getElem_cons h, readLines, if_pos hblank, ih h]
  | case2 i h hblank hfailed e hread =>
    rw [List.drop_eq_getElem_cons h, readLines, if_neg hblank, if_pos hfailed, hread]
    rfl
  | case3 i h hblank hfailed r hread ih =>
    have hthere := (block_of_readFailed hread).1
    rw [List.length_drop] at hthere
    rw [List.drop_eq_getElem_cons h, readLines, if_neg hblank, if_pos hfailed, hread,
      ih (by omega), List.drop_drop, ← comp_map, ← comp_map]
    rfl
  | case4 i h hblank hfailed htrace e hread =>
    rw [List.drop_eq_getElem_cons h, readLines, if_neg hblank, if_neg hfailed, if_pos htrace,
      hread]
    rfl
  | case5 i h hblank hfailed htrace r hread ih =>
    have hthere := (block_of_readTrace hread).1
    rw [List.length_drop] at hthere
    rw [List.drop_eq_getElem_cons h, readLines, if_neg hblank, if_neg hfailed, if_pos htrace,
      hread, ih (by omega), List.drop_drop, ← comp_map, ← comp_map]
    rfl
  | case6 i h hblank hfailed htrace =>
    rw [List.drop_eq_getElem_cons h, readLines, if_neg hblank, if_neg hfailed, if_neg htrace]
    rfl
  | case7 i h =>
    have hend : i = ls.length := by omega
    rw [hend, List.drop_length, readLines]
    rfl

/-- What a text of records is. -/
theorem parse_eq_ok_iff {text : String} {rs : List TraceRecord} : parse text = .ok rs ↔
    ∃ blocks, blocks.flatMap Block.lines = Text.lines text ∧ Block.Tells blocks rs := by
  constructor
  · exact exists_tells_of_readLines
  · rintro ⟨blocks, hlines, htells⟩
    have hread := readLines_blocks htells 1 []
    rw [List.append_nil, readLines] at hread
    rw [parse, ← hlines, hread]
    show Except.ok (rs ++ []) = _
    rw [List.append_nil]

/-- Behind the lines of a text that is read alone, another text is read as if it stood alone, with
the lines of the first counted. -/
theorem parse_append {a b : String} {rs : List TraceRecord}
    (ha : a = "" ∨ a.toList.getLast? = some '\n') (h : parse a = .ok rs) :
    parse (a ++ b) =
      (rs ++ ·) <$> (parse b).mapError (ParseError.later (Text.lines a).length) := by
  obtain ⟨blocks, hlines, htells⟩ := parse_eq_ok_iff.mp h
  rw [parse, Text.lines_append ha, ← hlines, readLines_blocks htells, readLines_add, hlines, parse]

/-- The blocks of a text: its lines, cut into blank lines and well-formed records. -/
def Splits (text : String) (blocks : List Block) : Prop :=
  (∀ block ∈ blocks, block.WellFormed) ∧ blocks.flatMap Block.lines = Text.lines text

/-- Texts of records are read one behind the other, with errors where they are in the whole. The
texts that are read are those that split into blocks. They do so in one way, the records are the
blocks in order, and the loop over the lines stops at their end. -/
theorem parse_exact :
    (∀ a b rs, a = "" ∨ a.toList.getLast? = some '\n' → parse a = .ok rs →
      parse (a ++ b) =
        match parse b with
        | .ok qs => .ok (rs ++ qs)
        | .error e => .error { e with line := e.line + (Text.lines a).length }) ∧
    (∀ text, (∃ rs, parse text = .ok rs) ↔ ∃ blocks, Splits text blocks) ∧
    ∀ text rs, parse text = .ok rs →
      ∃ blocks, Splits text blocks ∧ (∀ other, Splits text other → other = blocks) ∧
        Block.Tells blocks rs ∧
        readFrom (Text.lines text) 0 = .ok (rs, (Text.lines text).length) := by
  refine ⟨fun a b rs ha h => ?_, fun text => ⟨?_, ?_⟩, fun text rs h => ?_⟩
  · rw [parse_append ha h]
    cases parse b <;> rfl
  · rintro ⟨rs, h⟩
    obtain ⟨blocks, hlines, htells⟩ := parse_eq_ok_iff.mp h
    exact ⟨blocks, Block.exists_tells_iff.mp ⟨rs, htells⟩, hlines⟩
  · rintro ⟨blocks, hwell, hlines⟩
    obtain ⟨rs, htells⟩ := Block.exists_tells_iff.mpr hwell
    exact ⟨rs, parse_eq_ok_iff.mpr ⟨blocks, hlines, htells⟩⟩
  · obtain ⟨blocks, hlines, htells⟩ := parse_eq_ok_iff.mp h
    refine ⟨blocks, ⟨Block.exists_tells_iff.mp ⟨rs, htells⟩, hlines⟩, fun other hother => ?_,
      htells, ?_⟩
    · exact Block.flatMap_lines_injective (hother.2.trans hlines.symm)
    · have hread : readLines 1 (Text.lines text) = .ok rs := h
      rw [readFrom_eq (Nat.zero_le _), List.drop_zero, hread]
      rfl

/-- A failed assertion with fields that look like keywords, behind a blank line and with line ends
of both styles. -/
def keywordFields : String := "\r\nFAILED\r\nTRACE\r\nFAILED\n\nTRACE\n+4\n007\n"

theorem error_behind_keywordFields :
    parse keywordFields = .ok [.failed "TRACE" "TRACE" 4 7] ∧
      parse (keywordFields ++ "\nTRACE\nx,x\n") = .error ⟨11, .missing "type id"⟩ ∧
      readFrom (Text.lines keywordFields) 0 = .ok ([.failed "TRACE" "TRACE" 4 7], 8) := by
  have hfirst : parse keywordFields = .ok [.failed "TRACE" "TRACE" 4 7] := by decide +kernel
  have hsecond : parse "\nTRACE\nx,x\n" = .error ⟨3, .missing "type id"⟩ := by decide +kernel
  obtain ⟨hbehind, -, hblocks⟩ := parse_exact
  obtain ⟨_, -, -, -, hstop⟩ := hblocks _ _ hfirst
  refine ⟨hfirst, ?_, hstop⟩
  have hend : keywordFields.toList.getLast? = some '\n' := by decide
  rw [hbehind _ _ _ (.inr hend) hfirst, hsecond]
  rfl

end GotoCheck.TraceRecord
